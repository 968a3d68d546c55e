/-
# IncomUdon.Network.InOrder — from one microphone to another station's speaker.

UDP may lose, repeat and reorder datagrams, and the application counters none of that: what is repeated is played
twice. This file is about a network that loses but neither repeats nor reorders what a session sends: what is read of
a sender is a sublist of what the sender sent. Then the whole way from the microphone to the speaker does neither:
every hand on it passes on a selection of what it was given. Unlike `IncomUdon.Network.Authentic` this asks nothing of
the cipher but its round trip.
-/
import Mathlib.Data.List.Flatten
import IncomUdon.Network.Authentic

namespace IncomUdon.Network

open IncomUdon.Lib
open IncomUdon.Protocol
open IncomUdon.Crypto
open IncomUdon.Transport
open IncomUdon.Desktop
open IncomUdon.Audio

/-! ## §1 — the flow of one sender -/

/-- The sender that a datagram names in its header. -/
def claims (senderId : UInt32) (datagram : Bytes) : Bool :=
  match Packet.decode (datagram.take receiveBufferLen) with
  | .ok packet => decide (packet.header.senderId = senderId)
  | _ => false

section

variable {crates : CryptoCrates}

/-- `decode_pcm` names the sender of the header. -/
theorem decodePcm_sender {packet : Packet} {key : Option (ByteArr 32)} {heard : UInt32 × Bytes}
    (h : decodePcm crates packet key = some heard) : packet.header.senderId = heard.1 := by
  cases packet with
  | plain header payload =>
    rw [decodePcm] at h
    split at h
    · exact (pcmFrame_eq_some.mp h).2.1.symm
    · cases h
  | secured header security payload authTag =>
    obtain ⟨senderId, frame⟩ := heard
    rcases decodePcm_eq_some h with ⟨_, _, hplain, -⟩ | ⟨_, _, _, _, _, _, -, heq, -, -, -, -, hsender⟩
    · cases hplain
    · obtain ⟨rfl, -⟩ := Packet.secured.inj heq
      exact hsender.symm

/-- What is heard is heard under the sender that the header names. -/
theorem claims_of_hear {key : Option (ByteArr 32)} {datagram : Bytes} {heard : UInt32 × Bytes}
    (h : hear crates key datagram = some heard) : claims heard.1 datagram = true := by
  unfold hear at h
  split at h
  · rename_i packet hdecode
    simp only [claims, hdecode, decide_eq_true_eq]
    exact decodePcm_sender h
  · cases h

end

section Flow

variable {ν : Type} [DecidableEq ν] {crates : CryptoCrates} {loaded : ν → Core.ProfileStore × String}
  {audio : ν → Bool} {inputs : List (ν × Input)} {world : ν → App} {log : List (ν × AppEffect)}

/-- The datagrams that station `n` reads in the name of `senderId`, each with the key it is read under. -/
def readFrom (crates : CryptoCrates) (loaded : ν → Core.ProfileStore × String) (audio : ν → Bool)
    (inputs : List (ν × Input)) (senderId : UInt32) (n : ν) : List (Option (ByteArr 32) × Bytes) :=
  (observed (appStep crates) (App.reads? crates) (start loaded audio n) (onlyAt n inputs)).filter fun read =>
    claims senderId read.2

/-- The datagrams that session `j` of station `m` sends. -/
def sentBy (log : List (ν × AppEffect)) (m : ν) (j : Nat) : List Bytes :=
  (relayed j (onlyAt m log)).filterMap Effect.datagram?

/-- Whoever reads a selection of what a session sends, under keys that can read it, hears a selection of what it
spells. -/
theorem heard_of_flow (haead : AeadLaws crates)
    (hrun : run (product (appStep crates)) (start loaded audio) inputs = some (world, log)) {m : ν} {j : Nat}
    {link : Link} (hlink : (world m).links[j]? = some link) {reads : List (Option (ByteArr 32) × Bytes)}
    (hable : ∀ read ∈ reads, Reads crates link.config read.1)
    (hflow : (reads.map Prod.snd).Sublist (sentBy log m j)) :
    (reads.filterMap fun read => hear crates read.1 read.2).Sublist
      (spelled crates (mediaKey crates link.config) (relayed j (onlyAt m log))) := by
  have hspeaks : run (appStep crates) (App.start (loaded m) (audio m)) (onlyAt m inputs) =
      some (world m, onlyAt m log) := run_product m inputs hrun
  obtain ⟨localAddr, random, labels, hsession, -⟩ := app_run_session hspeaks hlink
  have hsame : (reads.filterMap fun read => hear crates read.1 read.2) =
      (reads.map Prod.snd).filterMap (hear crates (mediaKey crates link.config)) := by
    rw [List.filterMap_map]
    refine List.filterMap_congr fun read hmem => ?_
    exact run_alike haead hsession (taken_modest hspeaks hlink) (hable read hmem) (Reads.own crates link.config) _
      (hflow.subset (List.mem_map.mpr ⟨read, hmem, rfl⟩))
  rw [hsame]
  exact hflow.filterMap _

/-- **What is told of a sender**, where the network only loses: a selection of what was said, in order, none twice. -/
theorem told_in_order (haead : AeadLaws crates)
    (hrun : run (product (appStep crates)) (start loaded audio) inputs = some (world, log)) {m n : ν} {j : Nat}
    {link : Link} (hlink : (world m).links[j]? = some link)
    (hable : ∀ read ∈ readFrom crates loaded audio inputs link.config.senderId n, Reads crates link.config read.1)
    (hflow : ((readFrom crates loaded audio inputs link.config.senderId n).map Prod.snd).Sublist (sentBy log m j)) :
    ((toldFrames (onlyAt n log)).filter fun heard => heard.1 = link.config.senderId).Sublist
      ((spoken (onlyAt m inputs)).frames.map fun frame => (link.config.senderId, frame)) := by
  have hspeaks : run (appStep crates) (App.start (loaded m) (audio m)) (onlyAt m inputs) =
      some (world m, onlyAt m log) := run_product m inputs hrun
  have hhears : run (appStep crates) (App.start (loaded n) (audio n)) (onlyAt n inputs) =
      some (world n, onlyAt n log) := run_product n inputs hrun
  have htold : (toldFrames (onlyAt n log)).Sublist
      (heardFrames crates (App.start (loaded n) (audio n)) (onlyAt n inputs)) := by
    rw [← run_app_offered hhears]
    exact (List.sublist_append_left _ _).trans (run_app_told hhears)
  refine (htold.filter _).trans ?_
  -- the datagrams in the name of this sender are enough
  have hclaims : ∀ (read : Option (ByteArr 32) × Bytes) (heard : UInt32 × Bytes),
      hear crates read.1 read.2 = some heard → decide (heard.1 = link.config.senderId) = true →
      claims link.config.senderId read.2 = true := by
    intro read heard hheard hsender
    rw [← of_decide_eq_true hsender]
    exact claims_of_hear hheard
  rw [heardFrames, filter_filterMap_filter hclaims]
  exact List.filter_sublist.trans
    ((heard_of_flow haead hrun hlink hable hflow).trans (spelled_spoken haead hspeaks hlink))

/-- **Voice in order.** Where the network between session `j` of station `m` and station `n` only loses, and `n` reads
what comes in the name of that session under keys that can read it: what `n` is told in that name is what the user of
`m` said while the button was held, in order, less what was lost. If `n` is told of no other sender, the same holds of
every sample its speaker gets. -/
theorem voice_in_order (haead : AeadLaws crates)
    (hrun : run (product (appStep crates)) (start loaded audio) inputs = some (world, log)) {m n : ν} {j : Nat}
    {link : Link} (hlink : (world m).links[j]? = some link)
    (hable : ∀ read ∈ readFrom crates loaded audio inputs link.config.senderId n, Reads crates link.config read.1)
    (hflow : ((readFrom crates loaded audio inputs link.config.senderId n).map Prod.snd).Sublist (sentBy log m j)) :
    ((toldFrames (onlyAt n log)).filter fun heard => heard.1 = link.config.senderId).Sublist
      ((spoken (onlyAt m inputs)).frames.map fun frame => (link.config.senderId, frame)) ∧
    ((∀ heard ∈ toldFrames (onlyAt n log), heard.1 = link.config.senderId) →
      (soundedSamples crates (start loaded audio n) (onlyAt n inputs)).Sublist
        ((spoken (onlyAt m inputs)).frames.flatMap frameSamples)) := by
  have htold := told_in_order haead hrun hlink hable hflow
  refine ⟨htold, fun honly => ?_⟩
  have hhears : run (appStep crates) (App.start (loaded n) (audio n)) (onlyAt n inputs) =
      some (world n, onlyAt n log) := run_product n inputs hrun
  rw [List.filter_eq_self.mpr (by simpa using honly)] at htold
  have hframes : (playedFrames (onlyAt n log)).Sublist (spoken (onlyAt m inputs)).frames := by
    have hall := (run_app_played hhears).trans (htold.map Prod.snd)
    rwa [List.map_map, show (Prod.snd ∘ fun frame => (link.config.senderId, frame)) = (id : Bytes → Bytes) from rfl,
      List.map_id] at hall
  exact ((List.sublist_append_left _ _).trans (run_app_sounds hhears)).trans (hframes.flatMap _)

end Flow

/-- The caller connects, presses, and says three frames. -/
def threeInputs : List Input :=
  [connects, .callback .pttPressed, .resume, .captured (List.replicate 320 1), .captured (List.replicate 320 2),
    .captured (List.replicate 320 3), .callback .tick, .resume, .resume, .resume] ++
    List.replicate 12 (workerTick 0)

/-- The datagrams of its last three packets. -/
def threeDatagrams : List Bytes :=
  let sent := ((run (appStep tagCrates) (App.start (pair false) true) threeInputs).map fun r =>
    (relayed 0 r.2).filterMap Effect.datagram?).getD []
  sent.drop (sent.length - 3)

/-- The other station reads the first and the third of them: the second is lost. -/
def lossyInputs : List Input :=
  [connects] ++ List.replicate 7 (workerTick 0) ++
    [.worker 0 ⟨.ok (), 0, .ok (threeDatagrams.getD 0 [])⟩] ++ List.replicate 5 (workerTick 0) ++
    [.worker 0 ⟨.ok (), 0, .ok (threeDatagrams.getD 2 [])⟩, .callback .tick] ++ List.replicate 5 .resume ++ [.played]

/-- The caller's session, and then the other station's. -/
def lossyPair : List (Bool × Input) := threeInputs.map (fun i => (false, i)) ++ lossyInputs.map fun i => (true, i)

/-- Of the caller's three frames the first and the third are told, in this order. -/
theorem voice_in_order_pair : ∃ world log link,
    run (product (appStep tagCrates)) (start pair fun _ => true) lossyPair = some (world, log) ∧
    (world false).links[0]? = some link ∧
    toldFrames (onlyAt true log) = [(7, List.replicate 320 1), (7, List.replicate 320 3)] ∧
    (spoken (onlyAt false lossyPair)).frames = [List.replicate 320 1, List.replicate 320 2, List.replicate 320 3] ∧
    ((toldFrames (onlyAt true log)).filter fun heard => heard.1 = link.config.senderId).Sublist
      ((spoken (onlyAt false lossyPair)).frames.map fun frame => (link.config.senderId, frame)) ∧
    (soundedSamples tagCrates (start pair (fun _ => true) true) (onlyAt true lossyPair)).Sublist
      ((spoken (onlyAt false lossyPair)).frames.flatMap frameSamples) := by
  have hview : (run (product (appStep tagCrates)) (start pair fun _ => true) lossyPair).map
      (fun r => (toldFrames (onlyAt true r.2), (r.1 false).links[0]?.map fun link => (link.config.senderId,
        (readFrom tagCrates pair (fun _ => true) lossyPair link.config.senderId true).all fun read =>
          decide (read.1 = mediaKey tagCrates link.config),
        ((readFrom tagCrates pair (fun _ => true) lossyPair link.config.senderId true).map Prod.snd).isSublist
          (sentBy r.2 false 0)))) =
      some ([(7, List.replicate 320 1), (7, List.replicate 320 3)], some (7, true, true)) := by decide +kernel
  obtain ⟨⟨world, log⟩, hrun, hsees⟩ := Option.map_eq_some_iff.mp hview
  obtain ⟨htold, hsession⟩ := Prod.mk.inj hsees
  obtain ⟨link, hlink, hflow⟩ := Option.map_eq_some_iff.mp hsession
  obtain ⟨hsender, hflow⟩ := Prod.mk.inj hflow
  obtain ⟨hkeys, hflow⟩ := Prod.mk.inj hflow
  have hable : ∀ read ∈ readFrom tagCrates pair (fun _ => true) lossyPair link.config.senderId true,
      Reads tagCrates link.config read.1 :=
    fun read hmem _ => of_decide_eq_true (List.all_eq_true.mp hkeys read hmem)
  obtain ⟨horder, hsounds⟩ := voice_in_order tagCrates_aead hrun hlink hable (List.isSublist_iff_sublist.mp hflow)
  refine ⟨world, log, link, hrun, hlink, htold, by decide +kernel, horder, hsounds ?_⟩
  intro heard hmem
  rw [show toldFrames (onlyAt true log) = _ from htold] at hmem
  rw [hsender]
  rcases List.mem_pair.mp hmem with rfl | rfl <;> rfl

end IncomUdon.Network
