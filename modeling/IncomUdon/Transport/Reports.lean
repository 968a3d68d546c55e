/-
# IncomUdon.Transport.Reports — every datagram is reported once.

What the worker makes of a datagram it offers as one event: `ReceiveRejected` with the first check that failed,
`PcmReceived` with the frame, or `Received` with the packet. `Reports` states that on the bytes, by the rules of
`IncomUdon.Protocol` and not by the decoder. In any run the events of this kind are the reports of the datagrams read,
one for one and in order.
-/
import Mathlib.Data.List.Forall2
import IncomUdon.Lib.Product
import IncomUdon.Protocol.Rejection
import IncomUdon.Transport.Voice

namespace IncomUdon.Transport

open IncomUdon.Lib
open IncomUdon.Protocol
open IncomUdon.Crypto

/-- An event that reports a datagram. -/
def RelayEvent.report? : RelayEvent → Option RelayEvent
  | .received packet => some (.received packet)
  | .pcmReceived senderId frame => some (.pcmReceived senderId frame)
  | .receiveRejected error => some (.receiveRejected error)
  | _ => none

/-- The reports among the effects. -/
def reports (effects : List Effect) : List RelayEvent :=
  (effects.filterMap Effect.event?).filterMap RelayEvent.report?

/-- **`Reports crates key datagram event`** — what a worker with this key has to say of a datagram. The receive buffer
holds its first 2048 bytes. -/
inductive Reports (crates : CryptoCrates) (key : Option (ByteArr 32)) (datagram : Bytes) : RelayEvent → Prop where
  | rejected {error : ProtocolError} (h : Rejected (datagram.take receiveBufferLen) error) :
      Reports crates key datagram (.receiveRejected error)
  | audio {packet : Packet} {senderId : UInt32} {frame : Bytes}
      (h : Spells (datagram.take receiveBufferLen) packet)
      (hpcm : decodePcm crates packet key = some (senderId, frame)) :
      Reports crates key datagram (.pcmReceived senderId frame)
  | packet {packet : Packet} (h : Spells (datagram.take receiveBufferLen) packet)
      (hpcm : decodePcm crates packet key = none) : Reports crates key datagram (.received packet)

/-- What stands on the right of related lists is related to something on the left. -/
theorem mem_of_forall₂ {α β : Type} {R : α → β → Prop} {xs : List α} {ys : List β} (h : List.Forall₂ R xs ys) {y : β}
    (hy : y ∈ ys) : ∃ x ∈ xs, R x y := by
  induction h with
  | nil => cases hy
  | cons hR _ ih =>
    rcases List.mem_cons.mp hy with rfl | hlater
    · exact ⟨_, List.mem_cons_self, hR⟩
    · obtain ⟨x, hx, hxy⟩ := ih hlater
      exact ⟨x, List.mem_cons_of_mem _ hx, hxy⟩

/-- A datagram is read by a step of the worker. -/
theorem reads?_eq_some {s : Session} {label : Label} {datagram : Bytes} (h : reads? s label = some datagram) :
    ∃ env, label = .worker env ∧ env.received = .ok datagram := by
  cases label with
  | client action => cases h
  | worker env =>
    rw [reads?] at h
    split at h
    · cases hrecv : env.received with
      | ok received =>
        rw [hrecv] at h
        obtain rfl := Option.some.inj h
        exact ⟨env, rfl, hrecv⟩
      | error error =>
        rw [hrecv] at h
        cases h
    · cases h

section

variable {crates : CryptoCrates} {config : RelayConfig} {s s' : Session} {effects : List Effect}

theorem reports_append (a b : List Effect) : reports (a ++ b) = reports a ++ reports b := by
  simp [reports, List.filterMap_append]

/-- The receive arm makes one report. -/
theorem receive_reports (crates : CryptoCrates) (sequence : UInt16) (media : MediaState) (datagram : Bytes) :
    ∃ event, reports (receive crates sequence media (datagram.take receiveBufferLen)).effects = [event] ∧
      Reports crates media.key datagram event := by
  unfold receive
  split
  · rename_i packet hdecode
    have hspells := Packet.decode_eq_ok_iff.mp hdecode
    split
    · exact ⟨_, rfl, .audio hspells ‹_›⟩
    · exact ⟨_, rfl, .packet hspells ‹_›⟩
  · exact ⟨_, rfl, .rejected (Packet.decode_eq_err_iff.mp ‹_›)⟩
  · exact absurd ‹_› (Packet.decode_ne_panicked _)

theorem reports_of_sendsOnly (h : SendsOnly effects) : reports effects = [] := by
  rw [reports, List.filterMap_eq_nil_iff]
  intro event hmem
  have hsending := h event hmem
  cases event with
  | sent | ioError => rfl
  | _ => cases hsending

/-- **One step reports the datagram it reads**, and otherwise nothing. -/
theorem step_reports {label : Label} (h : step crates config s label = some (s', effects)) :
    List.Forall₂ (Reports crates s.media.key) (reads? s label).toList (reports effects) := by
  cases label with
  | client action =>
    rw [reports, (clientStep_events h).2.2.1]
    exact .nil
  | worker env =>
    have hnothing : s.worker ≠ .recv → reports effects = [] →
        List.Forall₂ (Reports crates s.media.key) (reads? s (.worker env)).toList (reports effects) := by
      intro hpc hnone
      rw [reads?, if_neg hpc, hnone]
      exact .nil
    by_cases hentry : s.worker = .entry
    · simp only [workerStep, step, hentry] at h
      obtain ⟨-, rfl⟩ := Prod.mk.inj (Option.some.inj h)
      exact hnothing (by rw [hentry]; decide) rfl
    by_cases hstop : s.worker = .stop
    · simp only [workerStep, step, hstop] at h
      obtain ⟨-, rfl⟩ := Prod.mk.inj (Option.some.inj h)
      exact hnothing (by rw [hstop]; decide) rfl
    rcases workerStep_sources hentry hstop h with ⟨datagram, hpc, hrecv, rfl⟩ | ⟨hdeaf, hsends⟩
    · obtain ⟨event, hevent, hreports⟩ := receive_reports crates s.sequence s.media datagram
      rw [reads?, if_pos hpc, hrecv, hevent]
      exact .cons hreports .nil
    · rw [reports_of_sendsOnly hsends, reads?]
      split
      · cases hrecv : env.received with
        | ok datagram => exact absurd hrecv (hdeaf datagram ‹_›)
        | error => exact .nil
      · exact .nil

/-- A packet that a step offers is spelled by the datagram it reads. -/
theorem step_received {label : Label} (h : step crates config s label = some (s', effects)) {packet : Packet}
    (hmem : .received packet ∈ effects.filterMap Effect.event?) :
    ∃ env datagram, label = .worker env ∧ reads? s label = some datagram ∧
      Spells (datagram.take receiveBufferLen) packet := by
  have hreport : .received packet ∈ reports effects := List.mem_filterMap.mpr ⟨_, hmem, rfl⟩
  obtain ⟨datagram, hread, hreports⟩ := mem_of_forall₂ (step_reports h) hreport
  have hreads : reads? s label = some datagram := Option.mem_toList.mp hread
  obtain ⟨env, hlabel, -⟩ := reads?_eq_some hreads
  cases hreports with
  | packet hspells => exact ⟨env, datagram, hlabel, hreads, hspells⟩

/-- **Every datagram is reported once.** In any run of a session, in any interleaving of client and worker, the events
of reception that the worker offers are the reports of the datagrams it reads, one for one and in order: what is
refused is refused with the first check that failed, what carries audio under the session's key is offered as audio,
and everything else as the packet it spells. -/
theorem every_datagram_reported {localAddr : SocketAddr} {random : UInt64} {labels : List Label}
    (hrun : run (step crates config) (Session.start crates config localAddr random) labels = some (s, effects)) :
    List.Forall₂ (Reports crates (mediaKey crates config))
      (observed (step crates config) reads? (Session.start crates config localAddr random) labels)
      (reports effects) := by
  have hend := run_observed reads? (R := fun s datagrams effects => s.media.key = mediaKey crates config ∧
    List.Forall₂ (Reports crates (mediaKey crates config)) datagrams (reports effects)) ?_ labels [] [] ⟨rfl, .nil⟩ hrun
  · exact hend.2
  · rintro s datagrams seen label s' es ⟨hkey, hseen⟩ hstep
    refine ⟨(step_does hstep).media_key.trans hkey, ?_⟩
    rw [reports_append]
    exact List.rel_append hseen (hkey ▸ step_reports hstep)

end

/-- A packet of another station. -/
def pong : Packet := .plain (PacketHeader.new .pong 111 7 0) []

/-- Two datagrams are read, with a turn of the worker's loop between them: one of a version to come, and a packet. -/
def readTwo : List Label :=
  List.replicate 7 tick ++ [.worker ⟨.ok (), 0, .ok (2 :: List.replicate 20 0)⟩] ++ List.replicate 5 tick ++
    [.worker ⟨.ok (), 0, .ok (pong.encode.toOption.getD [])⟩]

/-- The first is refused for its version, the second offered. -/
theorem every_datagram_reported_two : ∃ s effects,
    run (step tagCrates (station .aesGcmV2)) (Session.start tagCrates (station .aesGcmV2) stationAddr 0) readTwo =
      some (s, effects) ∧
    reports effects = [.receiveRejected (.unsupportedVersion 2), .received pong] ∧
    List.Forall₂ (Reports tagCrates (mediaKey tagCrates (station .aesGcmV2)))
      (observed (step tagCrates (station .aesGcmV2)) reads?
        (Session.start tagCrates (station .aesGcmV2) stationAddr 0) readTwo) (reports effects) := by
  have hview : (run (step tagCrates (station .aesGcmV2)) (Session.start tagCrates (station .aesGcmV2) stationAddr 0)
      readTwo).map (fun r => reports r.2) = some [.receiveRejected (.unsupportedVersion 2), .received pong] := by
    decide +kernel
  obtain ⟨⟨s, effects⟩, hrun, hreports⟩ := Option.map_eq_some_iff.mp hview
  exact ⟨s, effects, hrun, hreports, every_datagram_reported hrun⟩

end IncomUdon.Transport
