/-
# IncomUdon.Network.Authentic — who can be heard, among any number of stations.

Every station runs the application, with a store, a user and a network of its own, and the stations step in any
interleaving. Nothing is assumed of what arrives: it may be lost, repeated, reordered, made up, or come from another
channel. §1 is the family of stations and what is assumed of the cipher there: a datagram that opens under a key was
sealed under it, by a station. §2 traces, session by session, every frame that a worker offers to a call of the cipher
under the key of that session, and §3 the call to the user who held the button.
-/
import IncomUdon.Desktop.Identity
import IncomUdon.Desktop.Listening

namespace IncomUdon.Network

open IncomUdon.Lib
open IncomUdon.Protocol
open IncomUdon.Crypto
open IncomUdon.Transport
open IncomUdon.Desktop

/-! ## §1 — stations -/

section Stations

variable {ν : Type}

/-- The stations at the start, each with what it loaded. -/
def start (loaded : ν → Core.ProfileStore × String) (audio : ν → Bool) : ν → App :=
  fun n => App.start (loaded n) (audio n)

/-- Some session of some station has made this call of the cipher. -/
def Sealed (log : List (ν × AppEffect)) (call : EncryptCall) : Prop :=
  ∃ m i, (m, .relay i (.encrypt call)) ∈ log

/-- **What AES-GCM promises** as long as only the stations use their keys: a datagram that opens under one was sealed
under it, with the nonce and the associated data it carries. -/
def OpensOnlySealed (crates : CryptoCrates) (world : ν → App) (log : List (ν × AppEffect)) (input : ν × Input) :
    Prop :=
  ∀ key datagram packet nonce aad encrypted plaintext,
    (world input.1).reads? crates input.2 = some (some key, datagram) →
    Packet.decode (datagram.take receiveBufferLen) = .ok packet →
    sealedInput packet = some (nonce, aad, encrypted) →
    decryptAesGcmV2 crates key nonce encrypted aad = .ok plaintext → Sealed log ⟨key, nonce, plaintext, aad⟩

/-- The step reads no plain audio, which needs no key. -/
def ReadsNoPlainAudio (crates : CryptoCrates) (world : ν → App) (input : ν × Input) : Prop :=
  ∀ key datagram, (world input.1).reads? crates input.2 = some (key, datagram) →
    ¬ PlainAudio (datagram.take receiveBufferLen)

/-- Both conditions, computed. -/
def opensChecked (crates : CryptoCrates) (state : (ν → App) × List (ν × AppEffect)) (input : ν × Input) : Bool :=
  match (state.1 input.1).reads? crates input.2 with
  | none => true
  | some (key, datagram) =>
    match Packet.decode (datagram.take receiveBufferLen), key with
    | .ok (.plain header payload), _ => !(decide (header.packetType = .audio) && payload.length == 322)
    | .ok packet, some key =>
      match sealedInput packet with
      | none => true
      | some (nonce, aad, encrypted) =>
        match decryptAesGcmV2 crates key nonce encrypted aad with
        | .ok plaintext => state.2.any fun entry =>
            match entry.2 with
            | .relay _ (.encrypt call) => decide (call = ⟨key, nonce, plaintext, aad⟩)
            | _ => false
        | .error _ => true
    | _, _ => true

theorem conditions_of_checked {crates : CryptoCrates} {state : (ν → App) × List (ν × AppEffect)} {input : ν × Input}
    (h : opensChecked crates state input = true) :
    OpensOnlySealed crates state.1 state.2 input ∧ ReadsNoPlainAudio crates state.1 input := by
  refine ⟨?_, ?_⟩
  · intro key datagram packet nonce aad encrypted plaintext hreads hdecode hinput hopen
    obtain ⟨header, security, payload, authTag, rfl, -⟩ := sealedInput_secured hinput
    simp only [opensChecked, hreads, hdecode, hinput, hopen, List.any_eq_true] at h
    obtain ⟨⟨m, effect⟩, hmem, hcall⟩ := h
    split at hcall
    · rename_i i call heq
      obtain rfl : effect = _ := heq
      obtain rfl := of_decide_eq_true hcall
      exact ⟨m, i, hmem⟩
    · cases hcall
  · intro key datagram hreads hplain
    obtain ⟨header, payload, hdecode, haudio, hlen⟩ := (plainAudio_iff _).mp hplain
    simp [opensChecked, hreads, hdecode, haudio, hlen] at h

end Stations

/-! ## §2 — what is offered was sealed -/

section Tracing

variable {crates : CryptoCrates} {app app' : App} {input : Input} {seen effects : List AppEffect} {i : Nat}

/-- A session reads under its own key. -/
theorem reads_of_readsAt {link : Link} (hlink : app.links[i]? = some link) {datagram : Bytes}
    (h : readsAt i app input = some datagram) :
    app.reads? crates input = some (mediaKey crates link.config, datagram) := by
  cases input with
  | worker j env =>
    rw [readsAt, Option.ite_none_right_eq_some, hlink, Option.bind_some] at h
    obtain ⟨rfl, hreads⟩ := h
    rw [App.reads?, hlink, Option.bind_some, hreads, Option.map_some]
  | callback | resume | edit | captured | played => cases h

/-- One step offers what the datagram it reads spells, session by session. -/
theorem step_offered_at (hkeys : KeepsKeys crates app) {link : Link} (hlink : app.links[i]? = some link)
    (h : appStep crates app input = some (app', effects)) :
    (relayed i effects).filterMap Effect.offered? =
      (readsAt i app input).toList.filterMap (hear crates (mediaKey crates link.config)) := by
  by_cases hworker : ∃ j env, input = .worker j env
  · obtain ⟨j, env, rfl⟩ := hworker
    obtain ⟨links, -, stepped, session, es, hstepped, hstep, -, rfl⟩ := App.drive_driven h
    rw [relayed_relay, readsAt]
    by_cases hji : j = i
    · subst hji
      obtain rfl := Option.some.inj (hstepped.symm.trans hlink)
      rw [if_pos rfl, if_pos rfl, hlink, Option.bind_some, step_offered hstep, hkeys j stepped hstepped]
    · rw [if_neg hji, if_neg hji]
      rfl
  · have hinput : ∀ j env, input ≠ .worker j env := fun j env heq => hworker ⟨j, env, heq⟩
    have hnone := List.filterMap_eq_nil_iff.mp (appStep_offers_nothing hinput h)
    have hreads : readsAt i app input = none := by
      cases input with
      | worker j env => exact absurd rfl (hinput j env)
      | _ => rfl
    rw [hreads, Option.toList_none, List.filterMap_nil, List.filterMap_eq_nil_iff]
    intro e he
    obtain ⟨effect, hmem, hrelay⟩ := List.mem_filterMap.mp he
    cases effect with
    | playback => cases hrelay
    | relay j e' =>
      simp only [AppEffect.relay?, Option.ite_none_right_eq_some, Option.some.injEq] at hrelay
      obtain ⟨-, rfl⟩ := hrelay
      exact hnone _ hmem

/-- Sessions stay. -/
theorem links_grow (h : appStep crates app input = some (app', effects)) : app.links.length ≤ app'.links.length := by
  cases appStep_does h with
  | keeps hmoves | submits hmoves => exact Nat.le_of_eq hmoves.length.symm
  | opens _ _ _ hlinks =>
    rw [hlinks, List.length_append]
    exact Nat.le_add_right _ _

/-- A session that is there behind a step was there before it, or is new and has done nothing. -/
theorem step_link (hunopened : ∀ j, app.links.length ≤ j → relayed j seen = [])
    (h : appStep crates app input = some (app', effects)) {link : Link} (hlink : app'.links[i]? = some link) :
    (∃ old, app.links[i]? = some old ∧ old.config = link.config) ∨
      app.links[i]? = none ∧ relayed i seen = [] ∧ effects = [] ∧
        ∃ localAddr random, link.session = Session.start crates link.config localAddr random := by
  cases appStep_does h with
  | keeps hmoves | submits hmoves =>
    exact Or.inl (hmoves.config hlink)
  | opens _ _ hopen hlinks _ hnone =>
    rw [hlinks] at hlink
    rcases Nat.lt_or_ge i app.links.length with hlt | hge
    · rw [List.getElem?_append_left hlt] at hlink
      exact Or.inl ⟨link, hlink, rfl⟩
    · right
      obtain rfl : i = app.links.length := by
        have hi := (List.getElem?_eq_some_iff.mp hlink).1
        rw [List.length_append, List.length_singleton] at hi
        omega
      rw [List.getElem?_concat_length, Option.some.injEq] at hlink
      subst hlink
      exact ⟨List.getElem?_eq_none hge, hunopened _ hge, hnone, (App.openLink_spec hopen).1⟩

variable {ν : Type} {world : ν → App} {log : List (ν × AppEffect)}

/-- What was heard goes back to a call of the cipher under this key. -/
def GoesBack (log : List (ν × AppEffect)) (key : ByteArr 32) (heard : UInt32 × Bytes) : Prop :=
  ∃ call : EncryptCall, call.key = key ∧ Sealed log call ∧ window call.aad 8 4 = be32 heard.1 ∧
    heard.2 = call.plaintext.drop 2

/-- The log only grows. -/
theorem GoesBack.mono {key : ByteArr 32} {heard : UInt32 × Bytes} (h : GoesBack log key heard)
    (more : List (ν × AppEffect)) : GoesBack (log ++ more) key heard := by
  obtain ⟨call, hkey, ⟨m, j, hmem⟩, haad, hframe⟩ := h
  exact ⟨call, hkey, ⟨m, j, List.mem_append_left _ hmem⟩, haad, hframe⟩

/-- **A datagram that spells a frame** was sealed, under the key it is read under. -/
theorem goesBack_of_hear {n : ν} {key : Option (ByteArr 32)} {datagram : Bytes} {heard : UInt32 × Bytes}
    (hopens : OpensOnlySealed crates world log (n, input)) (hsealed : ReadsNoPlainAudio crates world (n, input))
    (hreads : (world n).reads? crates input = some (key, datagram)) (hhear : hear crates key datagram = some heard) :
    ∃ k, key = some k ∧ GoesBack log k heard := by
  obtain ⟨senderId, frame⟩ := heard
  unfold hear at hhear
  split at hhear
  · rename_i packet hdecode
    obtain ⟨k, rfl, header, security, payload, authTag, aad, plaintext, hsecured, hflag, haad, hopen, -, hframe, -,
      hwindow⟩ := authentic_of_decodePcm (hsealed key datagram hreads) hdecode hhear
    obtain rfl := Outcome.ok.inj (hdecode.symm.trans hsecured)
    have haudio : header.packetType = .audio := by
      by_contra hnot
      rw [decodePcm_of_not_audio crates (p := .secured header security payload authTag) hnot] at hhear
      cases hhear
    have hinput : sealedInput (.secured header security payload authTag) =
        some (security.nonce, header.encode ++ security.encode.val, payload ++ authTag.val) :=
      if_pos ⟨haudio, hflag⟩
    have haad' : aad = header.encode ++ security.encode.val := by
      rw [Packet.aad, if_pos hflag] at haad
      exact (Option.some.inj haad).symm
    subst haad'
    exact ⟨k, rfl, _, rfl, hopens _ _ _ _ _ _ _ hreads hdecode hinput hopen, hwindow, hframe⟩
  · cases hhear

end Tracing

section Runs

variable {ν : Type} [DecidableEq ν] {crates : CryptoCrates} {loaded : ν → Core.ProfileStore × String}
  {audio : ν → Bool} {inputs : List (ν × Input)} {world : ν → App} {log : List (ν × AppEffect)}

/-- What holds so far of all stations: each is a run of its own, and what a session was offered was sealed under the
key of that session. -/
structure NetSoFar (crates : CryptoCrates) (world : ν → App) (inputs : List (ν × Input))
    (log : List (ν × AppEffect)) : Prop where
  sessions : ∀ n, SessionsSoFar crates (world n) (onlyAt n inputs) (onlyAt n log)
  goesBack : ∀ (n : ν) (i : Nat) (link : Link), (world n).links[i]? = some link →
    ∀ heard ∈ (relayed i (onlyAt n log)).filterMap Effect.offered?,
      ∃ key, mediaKey crates link.config = some key ∧ GoesBack log key heard

theorem NetSoFar.step {world' : ν → App} {input : ν × Input} {more : List (ν × AppEffect)}
    (h : NetSoFar crates world inputs log) (hopens : OpensOnlySealed crates world log input)
    (hsealed : ReadsNoPlainAudio crates world input)
    (hstep : product (appStep crates) world input = some (world', more)) :
    NetSoFar crates world' (inputs ++ [input]) (log ++ more) := by
  obtain ⟨m, input⟩ := input
  obtain ⟨app, effects, hown, rfl, rfl⟩ := product_eq_some hstep
  refine ⟨?_, ?_⟩
  · intro n
    rw [onlyAt_append, onlyAt_append, onlyAt_map]
    by_cases hn : m = n
    · subst hn
      rw [if_pos rfl, Function.update_self, onlyAt_singleton, if_pos rfl]
      exact (h.sessions m).step hown
    · rw [if_neg hn, Function.update_of_ne (Ne.symm hn), onlyAt_singleton, if_neg hn, List.append_nil, List.append_nil]
      exact h.sessions n
  · intro n i link hlink heard hmem
    rw [onlyAt_append, onlyAt_map] at hmem
    by_cases hn : m = n
    · subst hn
      rw [Function.update_self] at hlink
      rw [if_pos rfl, relayed_append, List.filterMap_append] at hmem
      rcases step_link (h.sessions m).unopened hown hlink with ⟨old, hold, hconfig⟩ | ⟨-, hseen, rfl, -⟩
      · rw [← hconfig]
        rcases List.mem_append.mp hmem with hpast | hnew
        · obtain ⟨key, hkey, hback⟩ := h.goesBack m i old hold heard hpast
          exact ⟨key, hkey, hback.mono _⟩
        · -- the session reads the datagram that spells the frame
          rw [step_offered_at (h.sessions m).keepsKeys hold hown] at hnew
          obtain ⟨datagram, hreads, hhear⟩ := List.mem_filterMap.mp hnew
          obtain ⟨key, hkey, hback⟩ :=
            goesBack_of_hear hopens hsealed (reads_of_readsAt hold (Option.mem_toList.mp hreads)) hhear
          exact ⟨key, hkey, hback.mono _⟩
      · rw [hseen] at hmem
        cases hmem
    · rw [Function.update_of_ne (Ne.symm hn)] at hlink
      rw [if_neg hn, List.append_nil] at hmem
      obtain ⟨key, hkey, hback⟩ := h.goesBack n i link hlink heard hmem
      exact ⟨key, hkey, hback.mono _⟩

/-- The history rule for the stations. -/
theorem net_run
    (halong : Along (traced (product (appStep crates)))
      (fun state input => OpensOnlySealed crates state.1 state.2 input ∧ ReadsNoPlainAudio crates state.1 input)
      (start loaded audio, []) inputs)
    (hrun : run (product (appStep crates)) (start loaded audio) inputs = some (world, log)) :
    NetSoFar crates world inputs log := by
  refine run_history_traced (R := NetSoFar crates) (P := fun world log input =>
    OpensOnlySealed crates world log input ∧ ReadsNoPlainAudio crates world input) ?_ ?_ halong hrun
  · intro world inputs log input world' more h hP hstep
    exact h.step hP.1 hP.2 hstep
  · exact ⟨fun n => app_run_sessions rfl, fun n i link _ heard hmem => nomatch hmem⟩

/-! ## §3 — from the cipher to the user -/

/-- Station `m` has a session with this key and this sender, and its user said the frame. -/
def Uttered (crates : CryptoCrates) (world : ν → App) (inputs : List (ν × Input)) (key : ByteArr 32)
    (heard : UInt32 × Bytes) (m : ν) : Prop :=
  ∃ (j : Nat) (link : Link), (world m).links[j]? = some link ∧ mediaKey crates link.config = some key ∧
    link.config.senderId = heard.1 ∧ heard.2 ∈ (spoken (onlyAt m inputs)).frames

/-- **A call of the cipher seals what the user of its station said**, in the name of its session. -/
theorem uttered_of_sealed (hrun : run (product (appStep crates)) (start loaded audio) inputs = some (world, log))
    {call : EncryptCall} (hsealed : Sealed log call) {senderId : UInt32}
    (hsender : window call.aad 8 4 = be32 senderId) :
    ∃ m, Uttered crates world inputs call.key (senderId, call.plaintext.drop 2) m := by
  obtain ⟨m, j, hmem⟩ := hsealed
  have hown : run (appStep crates) (App.start (loaded m) (audio m)) (onlyAt m inputs) =
      some (world m, onlyAt m log) := run_product m inputs hrun
  have hcalled : .encrypt call ∈ relayed j (onlyAt m log) :=
    List.mem_filterMap.mpr ⟨_, mem_onlyAt.mpr hmem, by simp [AppEffect.relay?]⟩
  have hlt : j < (world m).links.length := by
    by_contra hge
    rw [(app_run_sessions hown).unopened j (Nat.le_of_not_lt hge)] at hcalled
    cases hcalled
  have hlink : (world m).links[j]? = some (world m).links[j] := List.getElem?_eq_getElem hlt
  obtain ⟨localAddr, random, labels, hsession, -⟩ := app_run_session hown hlink
  obtain ⟨hkey, frame, sequence, media, htaken, -, hcall⟩ := run_sealed hsession hcalled
  refine ⟨m, j, _, hlink, hkey, ?_, ?_⟩
  · -- the sender in the associated data is that of the session
    have haad := window_aad_sender (pcmHeader (world m).links[j].config sequence) (pcmSecurity media).encode.val
    have hsame : call.aad = (pcmHeader (world m).links[j].config sequence).encode ++ (pcmSecurity media).encode.val :=
      congrArg EncryptCall.aad hcall
    rw [hsame] at hsender
    exact be32_injective (haad.symm.trans hsender)
  · have hplain : call.plaintext = be16 media.audioSequence ++ frame := congrArg EncryptCall.plaintext hcall
    have hframe : call.plaintext.drop 2 = frame := by
      rw [hplain]
      exact List.drop_left' (be16_length _)
    rw [hframe]
    exact (taken_spoken hown hlink).subset htaken

/-- What a station is told, one of its sessions tells. -/
theorem told_by_session {effects : List AppEffect} {heard : UInt32 × Bytes} (h : heard ∈ toldFrames effects) :
    ∃ i, heard ∈ (relayed i effects).filterMap Effect.told? := by
  obtain ⟨effect, hmem, htold⟩ := List.mem_filterMap.mp h
  cases effect with
  | playback => cases htold
  | relay i effect =>
    exact ⟨i, List.mem_filterMap.mpr ⟨effect, List.mem_filterMap.mpr ⟨_, hmem, if_pos rfl⟩, htold⟩⟩

/-- **Who is heard has spoken.** Any number of stations run the application, in any interleaving and with any network
between them that has no key of theirs, and no plain audio is read. Then every frame that a session of a station tells
was said into the microphone of some station while its talk button was held, and that station has a session with the
sender it is told under, and with the key of the session that tells it. Every frame that a station plays is one that a
session of it told. -/
theorem voice_authentic
    (halong : Along (traced (product (appStep crates)))
      (fun state input => OpensOnlySealed crates state.1 state.2 input ∧ ReadsNoPlainAudio crates state.1 input)
      (start loaded audio, []) inputs)
    (hrun : run (product (appStep crates)) (start loaded audio) inputs = some (world, log)) (n : ν) :
    (∀ (i : Nat) (link : Link), (world n).links[i]? = some link →
      ∀ heard ∈ (relayed i (onlyAt n log)).filterMap Effect.told?,
        ∃ key m, mediaKey crates link.config = some key ∧ Uttered crates world inputs key heard m) ∧
    ∀ frame ok, (n, .playback frame ok) ∈ log →
      ∃ (i : Nat) (link : Link) (senderId : UInt32) (key : ByteArr 32) (m : ν),
        (world n).links[i]? = some link ∧ (senderId, frame) ∈ (relayed i (onlyAt n log)).filterMap Effect.told? ∧
          mediaKey crates link.config = some key ∧ Uttered crates world inputs key (senderId, frame) m := by
  have hown : run (appStep crates) (App.start (loaded n) (audio n)) (onlyAt n inputs) =
      some (world n, onlyAt n log) := run_product n inputs hrun
  have htold : ∀ (i : Nat) (link : Link), (world n).links[i]? = some link →
      ∀ heard ∈ (relayed i (onlyAt n log)).filterMap Effect.told?,
        ∃ key m, mediaKey crates link.config = some key ∧ Uttered crates world inputs key heard m := by
    rintro i link hlink ⟨senderId, frame⟩ hmem
    obtain ⟨localAddr, random, labels, hsession, -⟩ := app_run_session hown hlink
    have hoffered : (senderId, frame) ∈ (relayed i (onlyAt n log)).filterMap Effect.offered? :=
      (run_told hsession).subset (List.mem_append_left _ hmem)
    obtain ⟨key, hkey, call, rfl, hsealed, hsender, hframe⟩ := (net_run halong hrun).goesBack n i link hlink _ hoffered
    obtain rfl : frame = call.plaintext.drop 2 := hframe
    obtain ⟨m, huttered⟩ := uttered_of_sealed hrun hsealed hsender
    exact ⟨call.key, m, hkey, huttered⟩
  refine ⟨htold, ?_⟩
  intro frame ok hmem
  have hplayed : frame ∈ playedFrames (onlyAt n log) := List.mem_filterMap.mpr ⟨_, mem_onlyAt.mpr hmem, rfl⟩
  obtain ⟨⟨senderId, _⟩, hheard, rfl⟩ := List.mem_map.mp ((run_app_played hown).subset hplayed)
  obtain ⟨i, hsession⟩ := told_by_session hheard
  have hlt : i < (world n).links.length := by
    by_contra hge
    rw [(app_run_sessions hown).unopened i (Nat.le_of_not_lt hge)] at hsession
    cases hsession
  have hlink : (world n).links[i]? = some (world n).links[i] := List.getElem?_eq_getElem hlt
  obtain ⟨key, m, hkey, huttered⟩ := htold i _ hlink _ hsession
  exact ⟨i, _, senderId, key, m, hlink, hsession, hkey, huttered⟩

end Runs

/-- A station on the channel of `pcmStore`, with a sender id of its own. -/
def callerStore : Core.ProfileStore :=
  { pcmStore with
    profiles := [{ Core.TransceiverProfile.default with codec := .pcm, bitrateBps := none, senderId := 7 }] }

/-- Two stations: a caller and one that listens. -/
def pair : Bool → Core.ProfileStore × String
  | false => (callerStore, "Profile restored")
  | true => (pcmStore, "Profile restored")

/-- The caller connects, presses, says one frame, and its worker sends it. -/
def callInputs : List Input :=
  [connects, .callback .pttPressed, .resume, .captured (List.replicate 320 1), .callback .tick, .resume] ++
    List.replicate 10 (workerTick 0)

/-- What its worker sends last. -/
def callDatagram : Bytes :=
  (((run (appStep tagCrates) (App.start (pair false) true) callInputs).map fun r =>
    (relayed 0 r.2).filterMap Effect.datagram?).getD []).getLastD []

/-- The other one connects, reads that, and plays it. -/
def answerInputs : List Input :=
  [connects] ++ List.replicate 7 (workerTick 0) ++ [.worker 0 ⟨.ok (), 0, .ok callDatagram⟩, .callback .tick] ++
    List.replicate 4 .resume ++ [.played]

/-- The call, and then the answer. -/
def pairInputs : List (Bool × Input) := callInputs.map (fun i => (false, i)) ++ answerInputs.map fun i => (true, i)

/-- The frame that the session of the second station tells, and that is played there, was said at the first. -/
theorem voice_authentic_pair : ∃ world log link,
    run (product (appStep tagCrates)) (start pair fun _ => true) pairInputs = some (world, log) ∧
    (world true).links[0]? = some link ∧
    (relayed 0 (onlyAt true log)).filterMap Effect.told? = [(7, List.replicate 320 1)] ∧
    (∃ key m, mediaKey tagCrates link.config = some key ∧
      Uttered tagCrates world pairInputs key (7, List.replicate 320 1) m) ∧
    (true, .playback (List.replicate 320 1) true) ∈ log ∧
    ∃ senderId key m, Uttered tagCrates world pairInputs key (senderId, List.replicate 320 1) m := by
  have hview : (run (product (appStep tagCrates)) (start pair fun _ => true) pairInputs).map
      (fun r => ((relayed 0 (onlyAt true r.2)).filterMap Effect.told?,
        decide ((true, .playback (List.replicate 320 1) true) ∈ r.2), (r.1 true).links.length)) =
      some ([(7, List.replicate 320 1)], true, 1) := by decide +kernel
  obtain ⟨⟨world, log⟩, hrun, hview⟩ := Option.map_eq_some_iff.mp hview
  obtain ⟨htold, hview⟩ := Prod.mk.inj hview
  obtain ⟨hplayed, hlength⟩ := Prod.mk.inj hview
  have halong := along_of_checked (fun s i => @conditions_of_checked Bool tagCrates s i) pairInputs
    (start pair fun _ => true, []) (show checked (traced (product (appStep tagCrates))) _ _ _ = true by decide +kernel)
  have hlink : (world true).links[0]? = some _ :=
    List.getElem?_eq_getElem (show 0 < (world true).links.length by rw [hlength]; decide)
  obtain ⟨hheard, hsounds⟩ := voice_authentic halong hrun true
  have hmem : (7, List.replicate 320 1) ∈ (relayed 0 (onlyAt true log)).filterMap Effect.told? := by
    rw [show (relayed 0 (onlyAt true log)).filterMap Effect.told? = _ from htold]
    exact List.mem_singleton_self _
  obtain ⟨-, -, senderId, key, m, -, -, -, huttered⟩ := hsounds _ _ (of_decide_eq_true hplayed)
  exact ⟨world, log, _, hrun, hlink, htold, hheard 0 _ hlink _ hmem, of_decide_eq_true hplayed, senderId, key, m,
    huttered⟩

end IncomUdon.Network
