import Telemetry.Config.Printer
import Telemetry.Config.Reader
import Telemetry.Event.Sample
import Telemetry.Level.Printer
import Telemetry.Level.Reader
import Telemetry.Main
import Telemetry.Proofs.Config.RoundTrip
import Telemetry.Proofs.Event.Obtained
import Telemetry.Proofs.Pipeline.Delivery
import Telemetry.Proofs.Receiver.Arrivals
import Telemetry.Proofs.Ring.BoundedQueue
import Telemetry.Proofs.Ring.Cursors
import Telemetry.Proofs.Session.Books
import Telemetry.Proofs.Session.Panic
import Telemetry.Proofs.Session.SingleBatch
import Telemetry.Proofs.Sink.DatagramSizes
import Telemetry.Proofs.Sink.InjectedFailures
import Telemetry.Proofs.Wire.Bounds
