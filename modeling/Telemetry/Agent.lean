import Telemetry.EventRing
import Telemetry.Sink

/-!
# The drain agent

An agent owns one worker that moves events from the ring to a sink.  The worker
sleeps until a wakeup is pending, consumes it and forwards events in batches of
at most `drainLimit`.  After each batch it reads the stop flag; without a stop
it goes on with another batch until it has seen the ring empty, and with one it
drains whatever is left and exits.  Wakeups coalesce: any number of them before
the worker looks is one.

The worker is written as a machine that takes one step at a time, so that other
parties can act between any two of its steps.  `settle` lets it run until it has
nothing to do: it sleeps without a pending wakeup, waits in a `send` that does
not return, or is gone.
-/

namespace Telemetry

/-- What an agent has counted. -/
structure Stats where
  /-- Events the sink accepted. -/
  sent : UInt64 := 0
  /-- Calls of `notify`. -/
  wakeups : UInt64 := 0
  /-- Events the sink rejected.  They are discarded. -/
  sendFailures : UInt64 := 0
  deriving DecidableEq, Repr

namespace Stats

def addSent (stats : Stats) : Stats := { stats with sent := stats.sent + 1 }

def addWakeup (stats : Stats) : Stats := { stats with wakeups := stats.wakeups + 1 }

def addSendFailure (stats : Stats) : Stats :=
  { stats with sendFailures := stats.sendFailures + 1 }

def summary (stats : Stats) : String :=
  "AgentStats \x7b sent: " ++ toString stats.sent ++
    ", wakeups: " ++ toString stats.wakeups ++
    ", send_failures: " ++ toString stats.sendFailures ++ " \x7d"

end Stats

/-- Where the worker is. -/
inductive Worker where
  /-- Sleeps until a wakeup is pending. -/
  | waiting
  /-- In a batch that may still take `room` events; the last batch has no
  bound. -/
  | draining (room : Option Nat)
  /-- Inside the `send` of an event that has left the ring. -/
  | sending (event : Event) (room : Option Nat)
  /-- A bounded batch is over, having seen the ring empty or not. -/
  | checking (emptied : Bool)
  /-- Returned after the last batch. -/
  | exited
  /-- Unwound by a panic of the sink. -/
  | dead
  deriving DecidableEq

structure Agent (σ : Type) where
  threadName : String
  /-- Events per batch. -/
  drainLimit : Nat
  drainLimit_pos : 0 < drainLimit
  ring : EventRing
  sink : σ
  stats : Stats
  /-- Whether a wakeup is pending. -/
  pending : Bool
  /-- The stop flag. -/
  stopping : Bool
  /-- While it is set, no `send` returns. -/
  stalled : Bool
  worker : Worker
  /-- Whether the worker has not been joined yet. -/
  running : Bool

namespace Agent

variable {σ : Type}

/-- A fresh agent over `ring` and `sink`.  A configuration that does not validate
starts nothing, nor does a system that refuses a thread for the worker. -/
def start (config : AgentConfig) (ring : EventRing) (sink : σ)
    (refusal : Option String := none) : Except Error (Agent σ) :=
  match h : config.validate with
  | .error fault => .error (.invalidArgument fault)
  | .ok () =>
    match refusal with
    | some reason =>
      .error (.workerCreation ("worker thread '" ++ config.threadName ++ "'") reason)
    | none => .ok {
        threadName := config.threadName
        drainLimit := config.maxDrainPerWake.toNat
        drainLimit_pos := AgentConfig.maxDrainPerWake_pos h
        ring, sink
        stats := {}
        pending := false
        stopping := false
        stalled := false
        worker := .waiting
        running := true }

section Worker

variable [Sink σ]

/-- The `send` of an event returns or panics. -/
def finishSend (agent : Agent σ) (event : Event) (room : Option Nat) : Agent σ :=
  match Sink.send agent.sink event with
  | (.accepted, sink) =>
    { agent with sink, stats := agent.stats.addSent, worker := .draining room }
  | (.rejected _, sink) =>
    { agent with sink, stats := agent.stats.addSendFailure, worker := .draining room }
  | (.panicked, sink) => { agent with sink, worker := .dead }

/-- The worker in a batch takes the next event, if there is room and one is
queued. -/
def drain (agent : Agent σ) (room : Option Nat) : Agent σ :=
  if room = some 0 then
    { agent with worker := .checking false }
  else
    match agent.ring.pop? with
    | some (event, ring) =>
      { agent with ring, worker := .sending event (room.map (· - 1)) }
    | none =>
      { agent with worker := if room.isSome then .checking true else .exited }

/-- One step of the worker, or `none` where it cannot take one. -/
def step? (agent : Agent σ) : Option (Agent σ) :=
  match agent.worker with
  | .waiting =>
    if agent.pending then
      some { agent with pending := false, worker := .draining (some agent.drainLimit) }
    else
      none
  | .draining room => some (agent.drain room)
  | .sending event room =>
    if agent.stalled then none else some (agent.finishSend event room)
  | .checking emptied =>
    let worker :=
      if agent.stopping then .draining none
      else if emptied then .waiting
      else .draining (some agent.drainLimit)
    some { agent with worker }
  | .exited => none
  | .dead => none

/-- How far the worker is from rest while the ring stays as it is.  A pending
wakeup is worth a whole empty batch. -/
def distanceToRest (agent : Agent σ) : Nat :=
  let wakeup := if agent.pending then 8 else 0
  match agent.worker with
  | .exited | .dead => 0
  | .waiting => wakeup
  | .draining none => 1
  | .checking true => wakeup + 2
  | .draining (some (_ + 1)) => wakeup + 3
  | .checking false => wakeup + 4
  | .draining (some 0) => wakeup + 5
  | .sending _ _ => wakeup + 6

theorem step?_decreases {agent after : Agent σ} (h : agent.step? = some after) :
    Prod.Lex (· < ·) (· < ·)
      (after.ring.count.toNat, after.distanceToRest)
      (agent.ring.count.toNat, agent.distanceToRest) := by
  have hlimit := agent.drainLimit_pos
  obtain ⟨limit, hlimit⟩ : ∃ limit, agent.drainLimit = limit + 1 :=
    ⟨agent.drainLimit - 1, by omega⟩
  unfold step? at h
  split at h
  · next hworker =>
    split at h
    · next hpending =>
      cases h
      apply Prod.Lex.right
      simp [distanceToRest, hworker, hpending, hlimit]
    · cases h
  · next room hworker =>
    cases h
    unfold drain
    split
    · next hroom =>
      apply Prod.Lex.right
      simp [distanceToRest, hworker, hroom]
    · next hroom =>
      split
      · next event ring hpop =>
        apply Prod.Lex.left
        have := EventRing.count_of_pop? hpop
        simp only
        omega
      · apply Prod.Lex.right
        match room, hroom, hworker with
        | none, _, hworker => simp [distanceToRest, hworker]
        | some (k + 1), _, hworker => simp [distanceToRest, hworker]
        | some 0, hroom, _ => exact absurd rfl hroom
  · next event room hworker =>
    split at h
    · cases h
    · cases h
      unfold finishSend
      split <;> apply Prod.Lex.right <;> rcases room with _ | _ | room <;>
        simp only [distanceToRest, hworker] <;> omega
  · next emptied hworker =>
    simp only [Option.some.injEq] at h
    subst h
    apply Prod.Lex.right
    cases emptied <;> by_cases hstop : agent.stopping = true <;>
      simp [distanceToRest, hworker, hstop, hlimit]
  · cases h
  · cases h

/-- Runs the worker until it is at rest. -/
def settle (agent : Agent σ) : Agent σ :=
  match _hstep : agent.step? with
  | some after => settle after
  | none => agent
termination_by (agent.ring.count.toNat, agent.distanceToRest)
decreasing_by exact step?_decreases _hstep

/-- Makes a wakeup pending. -/
def signal (agent : Agent σ) : Agent σ := { agent with pending := true }

/-- Offers an event to the ring.  The worker is not told. -/
def push (agent : Agent σ) (event : Event) : Bool × Agent σ :=
  let (accepted, ring) := agent.ring.push event
  (accepted, { agent with ring })

/-- Counts a wakeup and then makes it pending. -/
def notify (agent : Agent σ) : Agent σ :=
  { agent with stats := agent.stats.addWakeup }.signal

/-- From here on no `send` returns. -/
def stall (agent : Agent σ) : Agent σ := { agent with stalled := true }

/-- A `send` returns again. -/
def release (agent : Agent σ) : Agent σ := { agent with stalled := false }

/-- Stores the stop flag. -/
def raiseStop (agent : Agent σ) : Agent σ := { agent with stopping := true }

/-- Stores the stop flag and then wakes the worker. -/
def requestStop (agent : Agent σ) : Agent σ := agent.raiseStop.signal

/-- Once the worker has returned the sink is shut down; after a panic it is
not. -/
def join (agent : Agent σ) : Agent σ :=
  match agent.worker with
  | .exited => { agent with sink := Sink.shutdown agent.sink }
  | _ => agent

/-- Ends the session the first time it is called and does nothing afterwards. -/
def teardown (agent : Agent σ) : Agent σ :=
  if agent.running then
    { agent with running := false }.requestStop.settle.join
  else
    agent

/-- Giving the agent up tears it down. -/
def drop (agent : Agent σ) : Agent σ := agent.teardown

/-- Tears the agent down, reports the final counters and gives it up. -/
def stop (agent : Agent σ) : Stats × Agent σ :=
  let ended := agent.teardown
  (ended.stats, ended.drop)

end Worker

def summary (agent : Agent σ) : String :=
  "TelemetryAgent \x7b running: " ++ toString agent.running ++
    ", stats: " ++ agent.stats.summary ++ " \x7d"

end Agent

/-- Events sent by an agent that may be absent. -/
def sentCount (stats : Option Stats) : UInt64 := (stats.map Stats.sent).getD 0

/-- Wakeups of an agent that may be absent. -/
def wakeupCount (stats : Option Stats) : UInt64 := (stats.map Stats.wakeups).getD 0

end Telemetry
