import Telemetry.Proofs.Session.Ending
import Telemetry.Sink.Counting

/-!
# Counting sinks

A counting sink answers every `send` and counts its answers.
-/

namespace Telemetry.CountingSink

/-- A `send` is an attempt, and it is counted once more if it is accepted. -/
theorem send_cases (sink : CountingSink) (event : Event) :
    (Sink.send sink event).2.attempts = sink.attempts + 1 ∧
      ((∃ error, (Sink.send sink event).1 = .rejected error ∧
          (Sink.send sink event).2.count = sink.count) ∨
        ((Sink.send sink event).1 = .accepted ∧
          (Sink.send sink event).2.count = sink.count + 1)) := by
  have hsend : Sink.send sink event = sink.send event := rfl
  rw [hsend, send]
  split
  · exact ⟨rfl, .inl ⟨_, rfl, rfl⟩⟩
  · exact ⟨rfl, .inr ⟨rfl, rfl⟩⟩

theorem neverPanics : NeverPanics CountingSink := by
  intro sink event hanswer
  rcases (sink.send_cases event).2 with ⟨error, hrejected, -⟩ | ⟨haccepted, -⟩
  · rw [hrejected] at hanswer
    cases hanswer
  · rw [haccepted] at hanswer
    cases hanswer

end Telemetry.CountingSink
