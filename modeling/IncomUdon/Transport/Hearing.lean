/-
# IncomUdon.Transport.Hearing — the received frames that wait in the event channel.

The worker offers a `PcmReceived` for every audio datagram it can read, and drops it where the channel is full; the
client takes the oldest event. §1 names the frames that are offered, that wait and that are told, §2 follows them
through a step and a run in which the channel has room, and §3 shows that this is exactly when the newest is kept.
-/
import IncomUdon.Transport.Authenticity
import IncomUdon.Transport.Events

namespace IncomUdon.Transport

open IncomUdon.Lib
open IncomUdon.Protocol
open IncomUdon.Crypto

/-! ## §1 — frames -/

/-- A received frame, with its sender. -/
def RelayEvent.heard? : RelayEvent → Option (UInt32 × Bytes)
  | .pcmReceived senderId frame => some (senderId, frame)
  | _ => none

/-- The frame of a `PcmReceived` the worker offers. -/
def Effect.offered? : Effect → Option (UInt32 × Bytes)
  | .event e => e.heard?
  | _ => none

/-- The frame of a `PcmReceived` that `try_next_event` returns. -/
def Effect.told? : Effect → Option (UInt32 × Bytes)
  | .nextEvent (some e) => e.heard?
  | _ => none

/-- The received frames that wait in the event channel. -/
def Session.heard (s : Session) : List (UInt32 × Bytes) := s.events.queue.filterMap RelayEvent.heard?

section

variable {crates : CryptoCrates} {config : RelayConfig} {s s' : Session} {effects : List Effect}

/-- The worker reads a datagram with this frame. -/
def Hears (crates : CryptoCrates) (s : Session) (env : Env) (heard : UInt32 × Bytes) : Prop :=
  s.worker = .recv ∧ ∃ datagram packet, env.received = .ok datagram ∧
    Packet.decode (datagram.take receiveBufferLen) = .ok packet ∧ decodePcm crates packet s.media.key = some heard

/-- A frame is received only while the event channel has room. -/
def HearsWithRoom (crates : CryptoCrates) (s : Session) (label : Label) : Prop :=
  ∀ env heard, label = .worker env → Hears crates s env heard → s.events.queue.length < s.events.capacity

/-- **What is wanted of a step**: frames it discards are the oldest that wait, and never the one it receives. -/
def KeepsFreshest (s s' : Session) (effects : List Effect) : Prop :=
  ∃ k, s'.heard = s.heard.drop k ++ effects.filterMap Effect.offered?

theorem offered_eq_event (effects : List Effect) :
    effects.filterMap Effect.offered? = (effects.filterMap Effect.event?).filterMap RelayEvent.heard? := by
  rw [List.filterMap_filterMap]
  apply List.filterMap_congr
  intro e _
  cases e <;> rfl

/-- Reading a datagram with a frame offers that frame and nothing else. -/
theorem workerStep_hears {env : Env} {heard : UInt32 × Bytes} (hhears : Hears crates s env heard)
    (h : workerStep crates config s env = some (s', effects)) :
    effects = [.event (.pcmReceived heard.1 heard.2)] ∧
      s'.events = s.events.post [.pcmReceived heard.1 heard.2] := by
  obtain ⟨hpc, datagram, packet, hrecv, hdecode, hpcm⟩ := hhears
  have hturn : receive crates s.sequence s.media (datagram.take receiveBufferLen) =
      ⟨s.sequence, s.media, [.event (.pcmReceived heard.1 heard.2)], false⟩ := by
    simp only [receive, hdecode, hpcm]
  have hread := workerStep_recv crates config hrecv hpc
  rw [hturn] at hread
  rw [hread] at h
  obtain ⟨rfl, rfl⟩ := Prod.mk.inj (Option.some.inj h)
  exact ⟨rfl, rfl⟩

/-- Any other step of the worker offers no frame and leaves those that wait. -/
theorem workerStep_quiet {env : Env} (hquiet : ∀ heard, ¬ Hears crates s env heard)
    (h : workerStep crates config s env = some (s', effects)) :
    effects.filterMap Effect.offered? = [] ∧ s'.heard = s.heard := by
  have hnone : effects.filterMap Effect.offered? = [] := by
    rw [List.filterMap_eq_nil_iff]
    intro e he
    cases e with
    | event event =>
      cases event with
      | pcmReceived senderId frame =>
        obtain ⟨env', datagram, packet, heq, hpc, hrecv, hdecode, hpcm⟩ := (workerStep_does h).pcmReceived he
        obtain rfl := Label.worker.inj heq
        exact absurd ⟨hpc, datagram, packet, hrecv, hdecode, hpcm⟩ (hquiet (senderId, frame))
      | _ => rfl
    | _ => rfl
  refine ⟨hnone, ?_⟩
  -- what is posted is no frame, whether or not it gets in
  rw [Session.heard, (workerStep_turn h).2.1, (Channel.post_queue _ _).1, List.take_append,
    List.take_of_length_le s.events.fits, List.filterMap_append]
  have hrest : ((effects.filterMap Effect.event?).take (s.events.capacity - s.events.queue.length)).filterMap
      RelayEvent.heard? = [] := by
    rw [offered_eq_event] at hnone
    rw [List.filterMap_eq_nil_iff] at hnone ⊢
    exact fun event hevent => hnone event (List.mem_of_mem_take hevent)
  rw [hrest, List.append_nil]
  rfl

/-! ## §2 — steps and runs -/

theorem told_of_outward (e : Effect) (h : e.outward = true) : e.told? = none := by
  cases e with
  | nextEvent event => cases h
  | _ => rfl

/-- The worker tells nothing. -/
theorem workerStep_told {env : Env} (h : workerStep crates config s env = some (s', effects)) :
    effects.filterMap Effect.told? = [] := workerStep_view told_of_outward (fun _ => rfl) h

/-- The client takes the oldest event, and offers none. -/
theorem clientStep_heard {action : ClientAction} (h : clientStep s action = some (s', effects)) :
    s.heard = effects.filterMap Effect.told? ++ s'.heard ∧ effects.filterMap Effect.offered? = [] := by
  have hsubmits : ∀ command, s.heard = (s.submit command).2.filterMap Effect.told? ++ (s.submit command).1.heard ∧
      (s.submit command).2.filterMap Effect.offered? = [] := by
    intro command
    obtain ⟨ok, heffects⟩ := s.submit_effects command
    rw [heffects, Session.heard, Session.heard, s.submit_events]
    exact ⟨rfl, rfl⟩
  cases clientStep_does h with
  | submits => exact hsubmits _
  | posts => exact hsubmits .disconnect
  | @takes event events _ htake =>
    refine ⟨?_, rfl⟩
    rw [Session.heard, (Channel.tryRecv_eq_some htake).1]
    show List.filterMap RelayEvent.heard? ([event] ++ events.queue) = _
    rw [List.filterMap_append]
    cases event <;> rfl
  | finds | stops | stopped | joins | releases => exact ⟨rfl, rfl⟩

/-- A frame for which there is room waits behind the others. -/
theorem workerStep_keeps {env : Env} {heard : UInt32 × Bytes} (hhears : Hears crates s env heard)
    (hlt : s.events.queue.length < s.events.capacity) (h : workerStep crates config s env = some (s', effects)) :
    s'.heard = s.heard ++ [heard] := by
  obtain ⟨rfl, hevents⟩ := workerStep_hears hhears h
  have hroom : s.events.queue.length + [RelayEvent.pcmReceived heard.1 heard.2].length ≤ s.events.capacity := hlt
  rw [Session.heard, hevents, Channel.post_of_le hroom, List.filterMap_append]
  rfl

/-- **One step, while there is room**: what waited and what is received is what is told and what waits then. -/
theorem step_heard {label : Label} (hroom : HearsWithRoom crates s label)
    (h : step crates config s label = some (s', effects)) :
    s.heard ++ effects.filterMap Effect.offered? = effects.filterMap Effect.told? ++ s'.heard := by
  cases label with
  | client action =>
    obtain ⟨hheard, hnone⟩ := clientStep_heard h
    rw [hnone, List.append_nil, hheard]
  | worker env =>
    rw [workerStep_told h, List.nil_append]
    by_cases hhears : ∃ heard, Hears crates s env heard
    · obtain ⟨heard, hhears⟩ := hhears
      rw [workerStep_keeps hhears (hroom env heard rfl hhears) h, (workerStep_hears hhears h).1]
      rfl
    · obtain ⟨hnone, hsame⟩ := workerStep_quiet (fun heard hh => hhears ⟨heard, hh⟩) h
      rw [hnone, hsame, List.append_nil]

/-- **No frame is lost while there is room**: in order, every frame received was told or waits. -/
theorem run_heard {localAddr : SocketAddr} {random : UInt64} {labels : List Label}
    (hrun : run (step crates config) (Session.start crates config localAddr random) labels = some (s, effects))
    (halong : Along (step crates config) (HearsWithRoom crates) (Session.start crates config localAddr random) labels) :
    effects.filterMap Effect.offered? = effects.filterMap Effect.told? ++ s.heard := by
  refine run_history_along (R := fun s _ seen =>
    seen.filterMap Effect.offered? = seen.filterMap Effect.told? ++ s.heard) ?_ labels [] [] _ s effects rfl halong hrun
  intro s _ seen label s' es hseen hroom hstep
  have hkeeps := step_heard hroom hstep
  calc (seen ++ es).filterMap Effect.offered?
      = seen.filterMap Effect.told? ++ (s.heard ++ es.filterMap Effect.offered?) := by
        rw [List.filterMap_append, hseen, List.append_assoc]
    _ = (seen ++ es).filterMap Effect.told? ++ s'.heard := by
        rw [hkeeps, List.filterMap_append, List.append_assoc]

/-- A step that meets the condition discards nothing but what waited longest. -/
theorem step_keepsFreshest {label : Label} (hroom : HearsWithRoom crates s label)
    (h : step crates config s label = some (s', effects)) : KeepsFreshest s s' effects := by
  have hheard := step_heard hroom h
  cases label with
  | client action =>
    rw [(clientStep_heard h).2, List.append_nil] at hheard
    refine ⟨(effects.filterMap Effect.told?).length, ?_⟩
    rw [(clientStep_heard h).2, List.append_nil, hheard, List.drop_left]
  | worker env =>
    rw [workerStep_told h, List.nil_append] at hheard
    exact ⟨0, hheard.symm⟩

/-! ## §3 — exactly while there is room -/

/-- **A received frame is kept exactly where the channel has room for it**, unless a frame like it waits already. -/
theorem keepsFreshest_iff {env : Env} {heard : UInt32 × Bytes} (hhears : Hears crates s env heard)
    (hnew : heard ∉ s.heard) (h : workerStep crates config s env = some (s', effects)) :
    KeepsFreshest s s' effects ↔ s.events.queue.length < s.events.capacity := by
  obtain ⟨heffects, hevents⟩ := workerStep_hears hhears h
  have hoffered : effects.filterMap Effect.offered? = [heard] := by
    rw [heffects]
    rfl
  rw [KeepsFreshest, hoffered]
  constructor
  · rintro ⟨k, hkept⟩
    by_contra hfull
    -- a full channel stays as it is
    have hsame : s'.heard = s.heard := by
      rw [Session.heard, hevents]
      show ((s.events.trySend _).2.queue).filterMap _ = _
      rw [Channel.trySend_of_full _ hfull]
      rfl
    rw [hsame] at hkept
    apply hnew
    rw [hkept]
    exact List.mem_append_right _ (List.mem_singleton_self _)
  · intro hlt
    exact ⟨0, workerStep_keeps hhears hlt h⟩

end

end IncomUdon.Transport
