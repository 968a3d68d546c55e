/-
# IncomUdon.Transport.Turns — the worker's next step, place by place.

`step_does` sorts the steps by what they put on the wire; here they are sorted by where they take the worker: it goes
on without a command or a packet (`Goes`), takes a command, takes `Disconnect`, or sends a control packet of its own
(`Owns`). What a step does to the two channels is the same in all four cases. On the client's side a call appends to
the queue what was accepted, and nothing else.
-/
import IncomUdon.Transport.Worker

namespace IncomUdon.Transport

open IncomUdon.Lib
open IncomUdon.Protocol
open IncomUdon.Crypto

/-! ## §1 — the worker -/

/-- A move to another place of the loop, with what it leaves in the flag. -/
inductive Goes (s : Session) : WorkerPc → Bool → Prop where
  | connected (hpc : s.worker = .entry) : Goes s .join s.running
  | runs (hpc : s.worker = .head) (hrunning : s.running = true) : Goes s .recvTimeout s.running
  | isStopped (hpc : s.worker = .head) (hrunning : s.running = false) : Goes s .leave s.running
  | timesOut (hpc : s.worker = .recvTimeout) (hempty : s.commands.queue = []) (hclient : s.client ≠ .gone) :
      Goes s .drain s.running
  | isClosed (hpc : s.worker = .recvTimeout) (hempty : s.commands.queue = []) (hgone : s.client = .gone) :
      Goes s .leave s.running
  | drained (hpc : s.worker = .drain) (hempty : s.commands.queue = []) (hclient : s.client ≠ .gone) :
      Goes s .recheck s.running
  | drainsClosed (hpc : s.worker = .drain) (hempty : s.commands.queue = []) (hgone : s.client = .gone) :
      Goes s .recheck false
  | goesOn (hpc : s.worker = .recheck) (hrunning : s.running = true) : Goes s .keepalive s.running
  | givesUp (hpc : s.worker = .recheck) (hrunning : s.running = false) : Goes s .leave s.running
  | notDue (hpc : s.worker = .keepalive) : Goes s .recv s.running
  | received (hpc : s.worker = .recv) : Goes s .head s.running
  | dies (hpc : s.worker = .recv) : Goes s .panicked s.running
  | returns (hpc : s.worker = .stop) : Goes s .returned s.running

/-- Where the worker sends a control packet of its own, and where it goes then. -/
inductive Owns : WorkerPc → PacketType → WorkerPc → Prop where
  | join : Owns .join .join .head
  | keepalive : Owns .keepalive .keepalive .recv
  | leave : Owns .leave .leave .stop

/-- **The four kinds of worker steps.** -/
inductive WorkerDoes (crates : CryptoCrates) (config : RelayConfig) (s : Session) (env : Env) (s' : Session)
    (effects : List Effect) : Prop where
  /-- Nothing is taken and nothing is sent. -/
  | goes (hgoes : Goes s s'.worker s'.running) (hcommands : s'.commands = s.commands)
      (hsequence : s'.sequence = s.sequence) (hevents : ∀ e ∈ effects, ∃ event, e = .event event)
      (hmedia : s'.media = s.media)
  /-- A command is taken and processed. -/
  | takes {command : RelayCommand} {turn : Turn} (hpc : s.worker = .recvTimeout ∨ s.worker = .drain)
      (hqueue : s.commands.queue = command :: s'.commands.queue)
      (hturn : process crates config s command env.sent = some turn)
      (hworker : s'.worker = if turn.panicked then .panicked else .drain) (hrunning : s'.running = s.running)
      (heffects : effects = .took command :: turn.effects)
      (hcounters : s'.sequence = turn.sequence ∧ s'.media = turn.media)
  /-- `Disconnect` is taken, at either receive. -/
  | ends (hqueue : s.commands.queue = .disconnect :: s'.commands.queue)
      (hafter : (s.worker = .recvTimeout ∧ s'.worker = .leave ∧ s'.running = s.running) ∨
        (s.worker = .drain ∧ s'.worker = .recheck ∧ s'.running = false))
      (heffects : effects = [.took .disconnect])
      (hcounters : s'.sequence = s.sequence ∧ s'.media = s.media)
  /-- A control packet of the worker's own is sent. -/
  | owns {packetType : PacketType} (hplace : Owns s.worker packetType s'.worker) (hcommands : s'.commands = s.commands)
      (hrunning : s'.running = s.running)
      (heffects : effects = sendPacket .control (controlPacket config s.sequence packetType []) env.sent)
      (hcounters : s'.sequence = s.sequence + 1 ∧ s'.media = s.media)

section

variable {crates : CryptoCrates} {config : RelayConfig} {s s' : Session} {effects : List Effect}

/-- Only `Disconnect` is not processed. -/
theorem process_eq_none {command : RelayCommand} {sent : Except IoError Unit}
    (h : process crates config s command sent = none) : command = .disconnect := by
  cases command with
  | disconnect => rfl
  | _ => cases h

/-- What a receive offers is events. -/
theorem receive_events (crates : CryptoCrates) (sequence : UInt16) (media : MediaState) (bytes : Bytes) :
    ∀ e ∈ (receive crates sequence media bytes).effects, ∃ event, e = .event event := by
  unfold receive
  split
  · split <;> simp
  · simp
  · simp

/-! Where the source chooses the next place by a condition, both choices are moves. -/

theorem Goes.of_head (hpc : s.worker = .head) :
    Goes s (if s.running then .recvTimeout else .leave) s.running := by
  split
  · rename_i hrunning
    exact .runs hpc hrunning
  · rename_i hrunning
    exact .isStopped hpc (Bool.eq_false_iff.mpr hrunning)

theorem Goes.of_empty (hpc : s.worker = .recvTimeout) (hempty : s.commands.queue = []) :
    Goes s (if s.client = .gone then .leave else .drain) s.running := by
  split
  · rename_i hgone
    exact .isClosed hpc hempty hgone
  · rename_i hclient
    exact .timesOut hpc hempty hclient

theorem Goes.of_drained (hpc : s.worker = .drain) (hempty : s.commands.queue = []) :
    Goes s .recheck (if s.client = .gone then false else s.running) := by
  split
  · rename_i hgone
    exact .drainsClosed hpc hempty hgone
  · rename_i hclient
    exact .drained hpc hempty hclient

theorem Goes.of_recheck (hpc : s.worker = .recheck) :
    Goes s (if s.running then .keepalive else .leave) s.running := by
  split
  · rename_i hrunning
    exact .goesOn hpc hrunning
  · rename_i hrunning
    exact .givesUp hpc (Bool.eq_false_iff.mpr hrunning)

theorem Goes.of_received (hpc : s.worker = .recv) (panicked : Bool) :
    Goes s (if panicked then .panicked else .head) s.running := by
  split
  · exact .dies hpc
  · exact .received hpc

/-- **What a worker step does**: the client's side is left alone, the events it has are posted, and it is of one of
the four kinds. -/
theorem workerStep_turn {env : Env} (h : workerStep crates config s env = some (s', effects)) :
    s'.client = s.client ∧ s'.events = s.events.post (effects.filterMap Effect.event?) ∧
      WorkerDoes crates config s env s' effects := by
  unfold workerStep at h
  split at h
  · -- the `Connected` event
    rename_i hpc
    obtain ⟨rfl, rfl⟩ := Prod.mk.inj (Option.some.inj h)
    exact ⟨rfl, rfl, .goes (.connected hpc) rfl rfl (by simp [Session.offer]) rfl⟩
  · rename_i hpc
    obtain ⟨rfl, rfl⟩ := Prod.mk.inj (Option.some.inj h)
    have hplace : Owns s.worker .join .head := by
      rw [hpc]
      exact .join
    exact ⟨rfl, rfl, .owns hplace rfl rfl rfl ⟨rfl, rfl⟩⟩
  · rename_i hpc
    obtain ⟨rfl, rfl⟩ := Prod.mk.inj (Option.some.inj h)
    exact ⟨rfl, rfl, .goes (.of_head hpc) rfl rfl (by simp) rfl⟩
  · -- `recv_timeout`
    rename_i hpc
    split at h
    · rename_i command commands htake
      have hqueue := (Channel.tryRecv_eq_some htake).1
      split at h
      · rename_i turn hturn
        obtain ⟨rfl, rfl⟩ := Prod.mk.inj (Option.some.inj h)
        exact ⟨rfl, rfl, .takes (Or.inl hpc) hqueue hturn rfl rfl rfl ⟨rfl, rfl⟩⟩
      · rename_i hnone
        obtain rfl := process_eq_none hnone
        obtain ⟨rfl, rfl⟩ := Prod.mk.inj (Option.some.inj h)
        exact ⟨rfl, rfl, .ends hqueue (Or.inl ⟨hpc, rfl, rfl⟩) rfl ⟨rfl, rfl⟩⟩
    · rename_i hempty
      obtain ⟨rfl, rfl⟩ := Prod.mk.inj (Option.some.inj h)
      exact ⟨rfl, rfl, .goes (.of_empty hpc (Channel.tryRecv_eq_none.mp hempty)) rfl rfl (by simp) rfl⟩
  · -- the inner loop of `try_recv`
    rename_i hpc
    split at h
    · rename_i command commands htake
      have hqueue := (Channel.tryRecv_eq_some htake).1
      split at h
      · rename_i turn hturn
        obtain ⟨rfl, rfl⟩ := Prod.mk.inj (Option.some.inj h)
        exact ⟨rfl, rfl, .takes (Or.inr hpc) hqueue hturn rfl rfl rfl ⟨rfl, rfl⟩⟩
      · rename_i hnone
        obtain rfl := process_eq_none hnone
        obtain ⟨rfl, rfl⟩ := Prod.mk.inj (Option.some.inj h)
        exact ⟨rfl, rfl, .ends hqueue (Or.inr ⟨hpc, rfl, rfl⟩) rfl ⟨rfl, rfl⟩⟩
    · rename_i hempty
      obtain ⟨rfl, rfl⟩ := Prod.mk.inj (Option.some.inj h)
      exact ⟨rfl, rfl, .goes (.of_drained hpc (Channel.tryRecv_eq_none.mp hempty)) rfl rfl (by simp) rfl⟩
  · rename_i hpc
    obtain ⟨rfl, rfl⟩ := Prod.mk.inj (Option.some.inj h)
    exact ⟨rfl, rfl, .goes (.of_recheck hpc) rfl rfl (by simp) rfl⟩
  · -- the keepalive tick
    rename_i hpc
    split at h
    · obtain ⟨rfl, rfl⟩ := Prod.mk.inj (Option.some.inj h)
      have hplace : Owns s.worker .keepalive .recv := by
        rw [hpc]
        exact .keepalive
      exact ⟨rfl, rfl, .owns hplace rfl rfl rfl ⟨rfl, rfl⟩⟩
    · obtain ⟨rfl, rfl⟩ := Prod.mk.inj (Option.some.inj h)
      exact ⟨rfl, rfl, .goes (.notDue hpc) rfl rfl (by simp) rfl⟩
  · -- `socket.recv`
    rename_i hpc
    split at h
    · obtain ⟨rfl, rfl⟩ := Prod.mk.inj (Option.some.inj h)
      exact ⟨rfl, rfl, .goes (.of_received hpc _) rfl (receive_counters _ _ _ _).1 (receive_events _ _ _ _)
        (receive_counters _ _ _ _).2⟩
    · split at h
      · obtain ⟨rfl, rfl⟩ := Prod.mk.inj (Option.some.inj h)
        exact ⟨rfl, rfl, .goes (.received hpc) rfl rfl (by simp) rfl⟩
      · obtain ⟨rfl, rfl⟩ := Prod.mk.inj (Option.some.inj h)
        exact ⟨rfl, rfl, .goes (.received hpc) rfl rfl (by simp [Session.offer]) rfl⟩
  · rename_i hpc
    obtain ⟨rfl, rfl⟩ := Prod.mk.inj (Option.some.inj h)
    have hplace : Owns s.worker .leave .stop := by
      rw [hpc]
      exact .leave
    exact ⟨rfl, rfl, .owns hplace rfl rfl rfl ⟨rfl, rfl⟩⟩
  · -- the `Stopped` event
    rename_i hpc
    obtain ⟨rfl, rfl⟩ := Prod.mk.inj (Option.some.inj h)
    exact ⟨rfl, rfl, .goes (.returns hpc) rfl rfl (by simp [Session.offer]) rfl⟩
  · cases h
  · cases h

/-! ## §2 — what the worker shows -/

/-- What a call of the worker does on its own account: it takes no command and answers no client. -/
def Effect.outward : Effect → Bool
  | .encrypt _ => true
  | .handed _ _ => true
  | .datagram _ => true
  | .event _ => true
  | _ => false

/-- A command the queue accepted. -/
def Effect.accepted? : Effect → Option RelayCommand
  | .submitted command true => some command
  | _ => none

/-- A command the worker took. -/
def Effect.took? : Effect → Option RelayCommand
  | .took command => some command
  | _ => none

/-- A view of the client's side shows nothing of such effects. -/
theorem outward_view {α : Type} {view : Effect → Option α} (hview : ∀ e, e.outward = true → view e = none)
    {es : List Effect} (h : ∀ e ∈ es, e.outward = true) : es.filterMap view = [] := by
  rw [List.filterMap_eq_nil_iff]
  exact fun e he => hview e (h e he)

theorem took_of_outward (e : Effect) (h : e.outward = true) : e.took? = none := by
  cases e with
  | took command => cases h
  | _ => rfl

theorem accepted_of_outward (e : Effect) (h : e.outward = true) : e.accepted? = none := by
  cases e with
  | submitted command ok => cases h
  | _ => rfl

theorem sendPacket_outward (origin : Origin) (packet : Packet) (sent : Except IoError Unit) :
    ∀ e ∈ sendPacket origin packet sent, e.outward = true := by
  unfold sendPacket
  cases packet.encode with
  | error error => simp [Effect.outward]
  | ok bytes => cases sent <;> simp [Effect.outward]

theorem process_outward {command : RelayCommand} {sent : Except IoError Unit} {turn : Turn}
    (h : process crates config s command sent = some turn) : ∀ e ∈ turn.effects, e.outward = true := by
  cases command with
  | send packet =>
    obtain rfl := Option.some.inj h
    exact sendPacket_outward .client packet sent
  | sendControl packetType payload =>
    obtain rfl := Option.some.inj h
    exact sendPacket_outward .control _ sent
  | sendPcm frame =>
    obtain rfl := Option.some.inj h
    have hsends := sendPcm_sends crates config s.sequence s.media frame sent
    generalize sendPcm crates config s.sequence s.media frame sent = turn at hsends
    cases hsends with
    | plain => exact sendPacket_outward .pcm _ sent
    | «sealed» =>
      intro e he
      rcases List.mem_cons.mp he with rfl | hsent
      · rfl
      · exact sendPacket_outward .pcm _ sent e hsent
    | _ => simp [Effect.outward]
  | disconnect => cases h

/-- **The worker's effects**: the command it took, if any, and then what is outward. -/
theorem WorkerDoes.shows {env : Env} (h : WorkerDoes crates config s env s' effects) :
    ∃ taken outward, effects = taken.map Effect.took ++ outward ∧ (∀ e ∈ outward, e.outward = true) ∧
      s.commands.queue = taken ++ s'.commands.queue := by
  cases h with
  | goes _ hcommands _ hevents =>
    refine ⟨[], effects, rfl, ?_, by rw [hcommands]; rfl⟩
    intro e he
    obtain ⟨event, rfl⟩ := hevents e he
    rfl
  | @takes command turn _ hqueue hturn _ _ heffects =>
    exact ⟨[command], turn.effects, heffects, process_outward hturn, hqueue⟩
  | ends hqueue _ heffects => exact ⟨[.disconnect], [], heffects, by simp, hqueue⟩
  | owns _ hcommands _ heffects =>
    exact ⟨[], effects, rfl, heffects ▸ sendPacket_outward .control _ env.sent, by rw [hcommands]; rfl⟩

/-- A view that shows neither outward effects nor takings shows nothing of a worker step. -/
theorem workerStep_view {α : Type} {env : Env} {view : Effect → Option α}
    (hview : ∀ e, e.outward = true → view e = none) (htook : ∀ command, view (.took command) = none)
    (h : workerStep crates config s env = some (s', effects)) : effects.filterMap view = [] := by
  obtain ⟨taken, outward, rfl, houtward, -⟩ := (workerStep_turn h).2.2.shows
  rw [List.filterMap_append, outward_view hview houtward, List.append_nil, List.filterMap_eq_nil_iff]
  intro e he
  obtain ⟨command, -, rfl⟩ := List.mem_map.mp he
  exact htook command

/-! ## §3 — the command queue -/

/-- Submitting appends what is accepted, and touches nothing but the queue. -/
theorem Session.submit_spec (s : Session) (command : RelayCommand) :
    (s.submit command).1 = { s with commands := (s.submit command).1.commands } ∧
      (s.submit command).1.commands.queue = s.commands.queue ++ (s.submit command).2.filterMap Effect.accepted? ∧
      (s.workerGone → (s.submit command).2 = [.submitted command false]) := by
  unfold Session.submit
  split
  · exact ⟨rfl, (List.append_nil _).symm, fun _ => rfl⟩
  · rename_i hgone
    refine ⟨rfl, ?_, fun h => absurd h hgone⟩
    by_cases hroom : s.commands.queue.length < s.commands.capacity
    · obtain ⟨hok, hqueue⟩ := Channel.trySend_of_lt command hroom
      rw [hok]
      exact hqueue
    · rw [Channel.trySend_of_full command hroom]
      exact (List.append_nil _).symm

/-- **What a client call does** to the worker's side: nothing but to append to the queue what it accepts, and to clear
the flag. -/
theorem clientStep_turn {action : ClientAction} (h : clientStep s action = some (s', effects)) :
    s'.worker = s.worker ∧ s'.commands.queue = s.commands.queue ++ effects.filterMap Effect.accepted? ∧
      effects.filterMap Effect.took? = [] ∧ (s'.running = s.running ∨ s'.running = false) := by
  have hsubmits : ∀ command, (s.submit command).1.worker = s.worker ∧ (s.submit command).1.running = s.running ∧
      (s.submit command).2.filterMap Effect.took? = [] := by
    intro command
    obtain ⟨ok, heffects⟩ := s.submit_effects command
    rw [(s.submit_spec command).1, heffects]
    exact ⟨rfl, rfl, rfl⟩
  cases clientStep_does h with
  | @submits action command =>
    obtain ⟨hworker, hrunning, htook⟩ := hsubmits command
    exact ⟨hworker, (s.submit_spec command).2.1, htook, Or.inl hrunning⟩
  | posts =>
    obtain ⟨hworker, hrunning, htook⟩ := hsubmits .disconnect
    exact ⟨hworker, (s.submit_spec .disconnect).2.1, htook, Or.inl hrunning⟩
  | takes | finds | stopped | joins | releases => exact ⟨rfl, (List.append_nil _).symm, rfl, Or.inl rfl⟩
  | stops => exact ⟨rfl, (List.append_nil _).symm, rfl, Or.inr rfl⟩

/-- Between calls the client submits no `Disconnect`. -/
theorem idle_submits {action : ClientAction} {command : RelayCommand} (hidle : s.client = .idle)
    (hcommand : action.command? = some command) (h : clientStep s action = some (s', effects)) :
    command ≠ .disconnect := by
  rintro rfl
  cases action with
  | postDisconnect =>
    simp only [clientStep, hidle] at h
    cases h
  | _ => cases hcommand

/-- **One step of the queue**: what waited and what is accepted is what is taken and what waits then. -/
theorem step_fifo {label : Label} (h : step crates config s label = some (s', effects)) :
    s.commands.queue ++ effects.filterMap Effect.accepted? =
      effects.filterMap Effect.took? ++ s'.commands.queue := by
  cases label with
  | client action =>
    obtain ⟨-, hqueue, htook, -⟩ := clientStep_turn h
    rw [htook, hqueue]
    rfl
  | worker env =>
    have hnone := workerStep_view accepted_of_outward (fun _ => rfl) h
    obtain ⟨taken, outward, rfl, houtward, hqueue⟩ := (workerStep_turn h).2.2.shows
    have htaken : (taken.map Effect.took).filterMap Effect.took? = taken := by
      rw [List.filterMap_map]
      exact List.filterMap_some
    rw [hnone, List.append_nil, List.filterMap_append, outward_view took_of_outward houtward, List.append_nil, htaken,
      hqueue]

/-- **First in, first out**: in order, every command accepted was taken or waits. -/
theorem run_fifo {labels : List Label} (hrun : run (step crates config) s labels = some (s', effects)) :
    s.commands.queue ++ effects.filterMap Effect.accepted? =
      effects.filterMap Effect.took? ++ s'.commands.queue := by
  refine run_history (R := fun t _ seen => s.commands.queue ++ seen.filterMap Effect.accepted? =
    seen.filterMap Effect.took? ++ t.commands.queue) ?_ (List.append_nil _) hrun
  intro t _ seen label t' es hseen hstep
  calc s.commands.queue ++ (seen ++ es).filterMap Effect.accepted?
      = seen.filterMap Effect.took? ++ (t.commands.queue ++ es.filterMap Effect.accepted?) := by
        rw [List.filterMap_append, ← List.append_assoc, hseen, List.append_assoc]
    _ = (seen ++ es).filterMap Effect.took? ++ t'.commands.queue := by
        rw [step_fifo hstep, List.filterMap_append, List.append_assoc]

end

end IncomUdon.Transport
