/-
# IncomUdon.Transport.Events — what the client is told was offered by the worker.

The worker offers an event and goes on whether or not the channel has room; the client takes the oldest one. So an
event that waits in the channel was offered earlier in the run, and what `try_next_event` returns was waiting.
-/
import IncomUdon.Transport.Turns

namespace IncomUdon.Transport

open IncomUdon.Lib
open IncomUdon.Crypto

variable {crates : CryptoCrates} {config : RelayConfig} {s s' : Session} {effects : List Effect}

theorem Session.submit_events (s : Session) (command : RelayCommand) : (s.submit command).1.events = s.events := by
  rw [(s.submit_spec command).1]

/-- What waits behind a step waited before it, or was offered by it. -/
theorem step_queued {label : Label} (h : step crates config s label = some (s', effects)) {event : RelayEvent}
    (hqueued : event ∈ s'.events.queue) : event ∈ s.events.queue ∨ Effect.event event ∈ effects := by
  cases label with
  | client action =>
    refine Or.inl ?_
    cases clientStep_does h with
    | submits | posts =>
      rw [← s.submit_events]
      exact hqueued
    | takes _ htake =>
      rw [(Channel.tryRecv_eq_some htake).1]
      exact List.mem_cons_of_mem _ hqueued
    | finds | stops | stopped | joins | releases => exact hqueued
  | worker env =>
    -- the channel takes what it has room for, of the events among the effects
    rw [(workerStep_turn h).2.1] at hqueued
    rcases Channel.mem_post hqueued with hold | hnew
    · exact Or.inl hold
    · refine Or.inr ?_
      obtain ⟨e, he, hevent⟩ := List.mem_filterMap.mp hnew
      cases e with
      | event offered =>
        obtain rfl := Option.some.inj hevent
        exact he
      | _ => cases hevent

/-- **What waits in the event channel was offered** by the worker, earlier in the run. -/
theorem run_queued {localAddr : SocketAddr} {random : UInt64} {labels : List Label}
    (hrun : run (step crates config) (Session.start crates config localAddr random) labels = some (s, effects)) :
    ∀ event ∈ s.events.queue, Effect.event event ∈ effects := by
  refine run_history (R := fun s _ seen => ∀ event ∈ s.events.queue, Effect.event event ∈ seen) ?_ ?_ hrun
  · intro s is seen i s' os hseen hstep event hqueued
    rcases step_queued hstep hqueued with hold | hnew
    · exact List.mem_append_left _ (hseen event hold)
    · exact List.mem_append_right _ hnew
  · intro event hqueued
    cases hqueued

end IncomUdon.Transport
