/-
# IncomUdon.Transport.Progress — no command waits for ever.

A command that the queue accepted is taken by the worker, as long as the client does not disconnect. The client may go
on calling in between, as often as it likes: what it submits comes behind. So the time a command waits is counted in
steps of the worker alone, and bounded by the commands in front of it.
-/
import IncomUdon.Transport.Lifecycle

namespace IncomUdon.Transport

open IncomUdon.Lib
open IncomUdon.Protocol
open IncomUdon.Crypto

section

variable {crates : CryptoCrates} {config : RelayConfig} {s s' : Session} {seen effects : List Effect}

/-- How many steps the worker is from its next receive. -/
def WorkerPc.distance : WorkerPc → Nat
  | .head => 1
  | .join | .recv => 2
  | .entry | .keepalive => 3
  | .recheck => 4
  | _ => 0

/-- The steps of the worker that are left until `count` commands are taken. -/
def stepsLeft (count : Nat) (s : Session) (effects : List Effect) : Nat :=
  if count ≤ (effects.filterMap Effect.took?).length then 0
  else count - (effects.filterMap Effect.took?).length + s.worker.distance

/-- What keeps a session going: its flag is set, its worker lives, and of the first `count` commands those that were
not taken still wait. -/
structure Serves (count : Nat) (before : List Effect) (s : Session) (effects : List Effect) : Prop where
  shutdown : Shutdown s (before ++ effects)
  alive : s.worker ≠ .panicked
  running : s.running = true
  waiting : count ≤ (effects.filterMap Effect.took?).length + s.commands.queue.length

/-- Going on brings the worker nearer to its next receive, as long as a command waits. -/
theorem Goes.distance_lt {pc : WorkerPc} {running : Bool} (h : Goes s pc running) (hserves : Shutdown s seen)
    (hrunning : s.running = true) (hwaits : s.commands.queue ≠ []) (halive : pc ≠ .panicked) :
    pc.distance + 1 ≤ s.worker.distance := by
  obtain ⟨hleave, hstop, hreturned⟩ := hserves.early hrunning
  cases h with
  | isStopped _ hstopped | givesUp _ hstopped =>
    rw [hrunning] at hstopped
    cases hstopped
  | timesOut _ hempty | isClosed _ hempty | drained _ hempty | drainsClosed _ hempty => exact absurd hempty hwaits
  | dies => exact absurd rfl halive
  | returns hpc => exact absurd hpc hstop
  | connected hpc | runs hpc | goesOn hpc | notDue hpc | received hpc => simp [hpc, WorkerPc.distance]

/-- The first of the commands left to take waits. -/
theorem Serves.waits {count : Nat} (h : Serves count seen s effects)
    (hleft : ¬ count ≤ (effects.filterMap Effect.took?).length) : s.commands.queue ≠ [] := by
  intro hempty
  have hwaiting := h.waiting
  rw [hempty, List.length_nil] at hwaiting
  omega

/-- **A step of the worker** leaves one less to do. -/
theorem Serves.worker (haead : AeadLaws crates) {count : Nat} {env : Env} {es : List Effect}
    (h : Serves count seen s effects) (hstep : workerStep crates config s env = some (s', es)) :
    Serves count seen s' (effects ++ es) ∧ stepsLeft count s' (effects ++ es) ≤ stepsLeft count s effects - 1 := by
  have halive := workerStep_not_panicked haead hstep
  have hfifo : s.commands.queue ++ es.filterMap Effect.accepted? = es.filterMap Effect.took? ++ s'.commands.queue :=
    @step_fifo crates config s s' es (.worker env) hstep
  rw [workerStep_view accepted_of_outward (fun _ => rfl) hstep, List.append_nil] at hfifo
  have htaken : ((effects ++ es).filterMap Effect.took?).length =
      (effects.filterMap Effect.took?).length + (es.filterMap Effect.took?).length := by
    rw [List.filterMap_append, List.length_append]
  have hlength := congrArg List.length hfifo
  rw [List.length_append] at hlength
  refine ⟨⟨?_, halive, (h.shutdown.running hstep).trans h.running, ?_⟩, ?_⟩
  · rw [← List.append_assoc]
    exact h.shutdown.worker hstep
  · have hwaiting := h.waiting
    omega
  · unfold stepsLeft
    rw [htaken]
    by_cases hdone : count ≤ (effects.filterMap Effect.took?).length
    · rw [if_pos (by omega), if_pos hdone]
    · -- a command waits, so the worker comes nearer to it or takes it
      have hwaits := h.waits hdone
      rw [if_neg hdone]
      have hnearer : (es.filterMap Effect.took? = [] ∧ s'.worker.distance + 1 ≤ s.worker.distance) ∨
          (es.filterMap Effect.took?).length = 1 ∧ s'.worker.distance = 0 := by
        have hsame : s'.commands = s.commands → es.filterMap Effect.took? = [] := by
          intro hcommands
          rw [hcommands] at hfifo
          exact List.eq_nil_of_length_eq_zero (by rw [hcommands] at hlength; omega)
        cases (workerStep_turn hstep).2.2 with
        | goes hgoes hcommands =>
          exact Or.inl ⟨hsame hcommands, hgoes.distance_lt h.shutdown h.running hwaits halive⟩
        | takes _ hqueue _ hworker =>
          refine Or.inr ⟨?_, ?_⟩
          · rw [hqueue, List.length_cons] at hlength
            omega
          · rw [hworker] at halive ⊢
            split
            · rename_i hpanicked
              rw [if_pos hpanicked] at halive
              exact absurd rfl halive
            · rfl
        | ends hqueue =>
          have hstopped := h.shutdown.posted (by rw [hqueue]; exact List.mem_cons_self)
          rw [h.running] at hstopped
          cases hstopped
        | owns hplace hcommands =>
          refine Or.inl ⟨hsame hcommands, ?_⟩
          have hleave := (h.shutdown.early h.running).1
          generalize s.worker = pc, s'.worker = pc' at hplace hleave
          cases hplace with
          | join | keepalive => exact Nat.le_refl _
          | leave => exact absurd rfl hleave
      rcases hnearer with ⟨hnone, hdistance⟩ | ⟨hone, hdistance⟩
      · rw [hnone, List.length_nil, Nat.add_zero, if_neg hdone]
        omega
      · rw [hone, hdistance]
        split <;> omega

/-- **A call of the client** other than `disconnect` leaves no more to do. -/
theorem Serves.client {count : Nat} {action : ClientAction} {es : List Effect} (h : Serves count seen s effects)
    (hopen : action ≠ .disconnect) (hstep : clientStep s action = some (s', es)) :
    Serves count seen s' (effects ++ es) ∧ stepsLeft count s' (effects ++ es) ≤ stepsLeft count s effects := by
  obtain ⟨hworker, hqueue, htook, -⟩ := clientStep_turn hstep
  have hrunning : s'.running = true := by
    cases clientStep_does hstep with
    | @submits _ command =>
      rw [(s.submit_spec command).1]
      exact h.running
    | posts =>
      rw [(s.submit_spec .disconnect).1]
      exact h.running
    | stops => exact absurd rfl hopen
    | takes | finds | stopped | joins | releases => exact h.running
  have htaken : (effects ++ es).filterMap Effect.took? = effects.filterMap Effect.took? := by
    rw [List.filterMap_append, htook, List.append_nil]
  refine ⟨⟨?_, hworker ▸ h.alive, hrunning, ?_⟩, ?_⟩
  · rw [← List.append_assoc]
    exact h.shutdown.client hstep
  · rw [htaken, hqueue, List.length_append]
    have hwaiting := h.waiting
    omega
  · rw [stepsLeft, stepsLeft, htaken, hworker]

/-- A step of the worker. -/
def Label.work : Label → Bool
  | .worker _ => true
  | .client _ => false

/-- **No command waits for ever.** Let a session have run in any interleaving up to a state whose flag is set, and let
it run on in any interleaving in which the client does not disconnect, with four worker steps more than commands wait.
Then the worker has taken all of them, in order, before anything that was submitted later. -/
theorem commands_served (haead : AeadLaws crates) {localAddr : SocketAddr} {random : UInt64} {labels : List Label}
    (hrun : run (step crates config) (Session.start crates config localAddr random) labels = some (s, seen))
    (hrunning : s.running = true) {more : List Label}
    (hmore : run (step crates config) s more = some (s', effects)) (hopen : .client .disconnect ∉ more)
    (hlong : s.commands.queue.length + 4 ≤ more.countP Label.work) :
    ∃ later, effects.filterMap Effect.took? = s.commands.queue ++ later := by
  have hserves : Serves s.commands.queue.length seen s [] := by
    refine ⟨?_, run_not_panicked haead hrun, hrunning, Nat.le_add_left _ _⟩
    rw [List.append_nil]
    exact run_shutdown hrun
  have hdone := run_served (P := fun label => label ≠ .client .disconnect)
    (Serves s.commands.queue.length seen) Label.work (stepsLeft s.commands.queue.length) (by
      intro t es label t' es' hinv hlabel hstep
      cases label with
      | worker env => exact hinv.worker haead hstep
      | client action => exact hinv.client (fun heq => hlabel (heq ▸ rfl)) hstep)
    (fun label hmem heq => hopen (heq ▸ hmem)) hserves hmore
  have hdistance : s.worker.distance ≤ 4 := by
    cases s.worker <;> simp [WorkerPc.distance]
  have hall : s.commands.queue.length ≤ (effects.filterMap Effect.took?).length := by
    by_contra hshort
    have hzero := hdone.2
    rw [stepsLeft, if_neg hshort, stepsLeft] at hzero
    split at hzero
    · omega
    · rw [List.filterMap_nil, List.length_nil] at hzero
      omega
  -- the queue is first in, first out
  have hfifo : s.commands.queue <+: effects.filterMap Effect.took? :=
    List.prefix_of_prefix_length_le ⟨_, run_fifo hmore⟩ (List.prefix_append _ _) hall
  obtain ⟨later, hlater⟩ := hfifo
  exact ⟨later, hlater.symm⟩

end

/-- Two commands, submitted before the worker has begun; the client goes on asking for events. -/
theorem commands_served_two : ∃ s seen s' effects later,
    run (step tagCrates (station .aesGcmV2)) (Session.start tagCrates (station .aesGcmV2) stationAddr 0)
      [.client (.sendControl .pttOn []), .client (.sendControl .pttOff [])] = some (s, seen) ∧
    run (step tagCrates (station .aesGcmV2)) s
      (List.replicate 3 tick ++ [.client .tryNextEvent] ++ List.replicate 3 tick) = some (s', effects) ∧
    effects.filterMap Effect.took? = [.sendControl .pttOn [], .sendControl .pttOff []] ++ later := by
  have hview : (run (step tagCrates (station .aesGcmV2)) (Session.start tagCrates (station .aesGcmV2) stationAddr 0)
      [.client (.sendControl .pttOn []), .client (.sendControl .pttOff [])]).map (fun r =>
        (r.1.commands.queue, r.1.running, (run (step tagCrates (station .aesGcmV2)) r.1
          (List.replicate 3 tick ++ [.client .tryNextEvent] ++ List.replicate 3 tick)).isSome)) =
      some ([.sendControl .pttOn [], .sendControl .pttOff []], true, true) := by decide +kernel
  obtain ⟨⟨s, seen⟩, hrun, hsees⟩ := Option.map_eq_some_iff.mp hview
  obtain ⟨hqueue, hrest⟩ := Prod.mk.inj hsees
  obtain ⟨hrunning, hgoes⟩ := Prod.mk.inj hrest
  obtain ⟨⟨s', effects⟩, hmore⟩ := Option.isSome_iff_exists.mp hgoes
  obtain ⟨later, hlater⟩ := commands_served tagCrates_aead hrun hrunning hmore (by simp [tick]) (by
    rw [hqueue]
    decide)
  exact ⟨s, seen, s', effects, later, hrun, hmore, hqueue ▸ hlater⟩

end IncomUdon.Transport
