/-
# IncomUdon.Network.Lossless — nothing is lost where nothing is refused.

The other half of `IncomUdon.Network.InOrder`. §1 follows one session of the application from the datagrams it reads to
what it tells, under the condition that its event channel has room whenever a frame comes in. §2 puts the session that
sends in front: then every frame that its command queue accepted and that can be sent is told to the listener, or waits
in one of the two queues, and the three are in order.
-/
import IncomUdon.Network.InOrder
import IncomUdon.Network.Overhearing

namespace IncomUdon.Network

open IncomUdon.Lib
open IncomUdon.Protocol
open IncomUdon.Crypto
open IncomUdon.Transport
open IncomUdon.Desktop

/-! ## §1 — one session that listens -/

section Listening

variable {crates : CryptoCrates} {app app' : App} {input : Input} {seen effects : List AppEffect} {i : Nat}

/-- When session `i` hears a frame, its event channel has room for it. -/
def RoomAt (crates : CryptoCrates) (i : Nat) (app : App) (input : Input) : Prop :=
  ∀ env link, input = .worker i env → app.links[i]? = some link →
    HearsWithRoom crates link.session (.worker env)

/-- One step of a session with room loses nothing. -/
theorem moves_heard {link : Link} (hroom : RoomAt crates i app input)
    (hmoves : Moves crates input app.links app'.links effects) (hlink : app'.links[i]? = some link) :
    ∃ old, app.links[i]? = some old ∧ old.config = link.config ∧
      old.session.heard ++ (relayed i effects).filterMap Effect.offered? =
        (relayed i effects).filterMap Effect.told? ++ link.session.heard := by
  rcases hmoves.session hlink with ⟨hsame, hnone⟩ | ⟨old, label, session, hinput, hold, hstep, rfl⟩
  · refine ⟨link, hsame, rfl, ?_⟩
    rw [hnone]
    exact List.append_nil _
  · have hhears : HearsWithRoom crates old.session label := by
      cases label with
      | client => exact fun _ _ h => (nomatch h)
      | worker env => exact hroom env old (hinput env rfl) hold
    exact ⟨old, hold, rfl, step_heard hhears hstep⟩

variable {loaded : Core.ProfileStore × String} {audio : Bool} {inputs : List Input}

/-- **Session by session**, what is offered is what the datagrams read spell. -/
theorem run_offered_at (hrun : run (appStep crates) (App.start loaded audio) inputs = some (app, effects))
    {link : Link} (hlink : app.links[i]? = some link) :
    (relayed i effects).filterMap Effect.offered? =
      (observed (appStep crates) (readsAt i) (App.start loaded audio) inputs).filterMap
        (hear crates (mediaKey crates link.config)) := by
  have hend := run_observed (readsAt i) (R := fun app reads effects =>
    (∃ inputs, SessionsSoFar crates app inputs effects) ∧ (app.links[i]? = none → reads = []) ∧
      ∀ link, app.links[i]? = some link → (relayed i effects).filterMap Effect.offered? =
        reads.filterMap (hear crates (mediaKey crates link.config))) ?_ inputs [] []
    ⟨⟨[], app_run_sessions rfl⟩, fun _ => rfl, fun _ _ => rfl⟩ hrun
  · exact hend.2.2 link hlink
  · rintro app reads seen input app' es ⟨⟨past, hsessions⟩, hnone, hsome⟩ hstep
    have hreads : app.links[i]? = none → readsAt i app input = none := by
      intro hclosed
      cases input with
      | worker j env => simp [readsAt, hclosed]
      | _ => rfl
    refine ⟨⟨_, hsessions.step hstep⟩, fun hclosed => ?_, fun link hlink => ?_⟩
    · -- a session that is not there yet was not there before
      have hbefore : app.links[i]? = none :=
        List.getElem?_eq_none_iff.mpr ((links_grow hstep).trans (List.getElem?_eq_none_iff.mp hclosed))
      rw [hnone hbefore, hreads hbefore]
      rfl
    · rw [relayed_append, List.filterMap_append, List.filterMap_append]
      rcases step_link hsessions.unopened hstep hlink with ⟨old, hold, hconfig⟩ | ⟨hclosed, hseen, rfl, -⟩
      · rw [hsome old hold, step_offered_at hsessions.keepsKeys hold hstep, hconfig]
      · rw [hseen, hnone hclosed, hreads hclosed]
        rfl

/-- **Session by session**, while there is room what is offered is told or waits. -/
theorem run_heard_at (hrun : run (appStep crates) (App.start loaded audio) inputs = some (app, effects))
    (halong : Along (appStep crates) (RoomAt crates i) (App.start loaded audio) inputs) {link : Link}
    (hlink : app.links[i]? = some link) :
    (relayed i effects).filterMap Effect.offered? =
      (relayed i effects).filterMap Effect.told? ++ link.session.heard := by
  have hend := run_history_along (R := fun app inputs effects => SessionsSoFar crates app inputs effects ∧
    ∀ link, app.links[i]? = some link → (relayed i effects).filterMap Effect.offered? =
      (relayed i effects).filterMap Effect.told? ++ link.session.heard) ?_ inputs [] [] _ _ effects
    ⟨app_run_sessions rfl, ?_⟩ halong hrun
  · exact hend.2 link hlink
  · rintro app past seen input app' es ⟨hsessions, hsome⟩ hroom hstep
    refine ⟨hsessions.step hstep, fun link hlink => ?_⟩
    rw [relayed_append, List.filterMap_append, List.filterMap_append]
    cases appStep_does hstep with
    | keeps hmoves | submits hmoves =>
      obtain ⟨old, hold, -, hkeeps⟩ := moves_heard hroom hmoves hlink
      rw [hsome old hold, List.append_assoc, hkeeps, List.append_assoc]
    | opens _ _ hopen hlinks _ hnone =>
      subst hnone
      rcases Nat.lt_or_ge i app.links.length with hlt | hge
      · rw [hlinks, List.getElem?_append_left hlt] at hlink
        simpa [relayed] using hsome link hlink
      · have hfresh := step_link hsessions.unopened hstep hlink
        rw [List.getElem?_eq_none hge] at hfresh
        rcases hfresh with ⟨old, hold, -⟩ | ⟨-, hseen, -, localAddr, random, hsession⟩
        · cases hold
        · rw [hseen, hsession]
          rfl
  · intro link hlink
    rw [(App.start_sessions loaded audio).1] at hlink
    cases hlink

end Listening

/-! ## §2 — from one session to another -/

/-- A datagram of audio in the name of `senderId`. -/
def voiceOf (senderId : UInt32) (datagram : Bytes) : Bool :=
  match Packet.decode (datagram.take receiveBufferLen) with
  | .ok packet => packet.header.packetType = .audio ∧ packet.header.senderId = senderId
  | _ => false

/-- Only such a datagram is heard under that name. -/
theorem voiceOf_of_hear {crates : CryptoCrates} {key : Option (ByteArr 32)} {datagram : Bytes} {heard : UInt32 × Bytes}
    (h : hear crates key datagram = some heard) : voiceOf heard.1 datagram = true := by
  unfold hear at h
  split at h
  · rename_i packet hdecode
    have haudio : packet.header.packetType = .audio := by
      by_contra hne
      rw [decodePcm_of_not_audio crates hne key] at h
      cases h
    simp only [voiceOf, hdecode, decide_eq_true_eq]
    exact ⟨haudio, decodePcm_sender h⟩
  · cases h

section Flow

variable {ν : Type} [DecidableEq ν] {crates : CryptoCrates} {loaded : ν → Core.ProfileStore × String}
  {audio : ν → Bool} {inputs : List (ν × Input)} {world : ν → App} {log : List (ν × AppEffect)}

/-- The datagrams that session `i` of station `n` reads. -/
def readBy (crates : CryptoCrates) (loaded : ν → Core.ProfileStore × String) (audio : ν → Bool)
    (inputs : List (ν × Input)) (n : ν) (i : Nat) : List Bytes :=
  observed (appStep crates) (readsAt i) (start loaded audio n) (onlyAt n inputs)

/-- What is told or waits to be told, in the name of `senderId`, at session `i` of station `n`. -/
def heardFrom (senderId : UInt32) (effects : List Effect) (session : Session) : List (UInt32 × Bytes) :=
  (effects.filterMap Effect.told? ++ session.heard).filter fun heard => heard.1 = senderId

/-- The frames of the commands that wait. -/
def waitingFrames (session : Session) : List Bytes := session.commands.queue.filterMap RelayCommand.frame?

/-- **Nothing is lost where nothing is refused.** Session `j` of station `m` sends, session `i` of station `n` can read
it and has room whenever it hears a frame, and of the audio in the name of `j` the network delivers to `i` each
datagram once and in order. Then the frames that the command queue of `j` accepted, less those that cannot be sent, are
in order: those that `n` was told, those that wait in the event channel of `i`, and those that wait in the queue. -/
theorem voice_complete (haead : AeadLaws crates)
    (hrun : run (product (appStep crates)) (start loaded audio) inputs = some (world, log)) {m n : ν} {j i : Nat}
    {link link' : Link} (hlink : (world m).links[j]? = some link) (hlink' : (world n).links[i]? = some link')
    (hreads : Reads crates link.config (mediaKey crates link'.config))
    (hroom : Along (appStep crates) (RoomAt crates i) (start loaded audio n) (onlyAt n inputs))
    (hnetwork : (readBy crates loaded audio inputs n i).filter (voiceOf link.config.senderId) =
      (sentBy log m j).filter (voiceOf link.config.senderId)) :
    ((acceptedFrames (relayed j (onlyAt m log))).filter (sendable crates link.config)).map
        (fun frame => (link.config.senderId, frame)) =
      heardFrom link.config.senderId (relayed i (onlyAt n log)) link'.session ++
        ((waitingFrames link.session).filter (sendable crates link.config)).map
          fun frame => (link.config.senderId, frame) := by
  have hspeaks : run (appStep crates) (App.start (loaded m) (audio m)) (onlyAt m inputs) =
      some (world m, onlyAt m log) := run_product m inputs hrun
  have hhears : run (appStep crates) (App.start (loaded n) (audio n)) (onlyAt n inputs) =
      some (world n, onlyAt n log) := run_product n inputs hrun
  obtain ⟨localAddr, random, labels, hsession, -⟩ := app_run_session hspeaks hlink
  -- what was accepted was taken or waits
  have hfifo : acceptedFrames (relayed j (onlyAt m log)) =
      takenFrames (relayed j (onlyAt m log)) ++ waitingFrames link.session := by
    have hcommands : [] ++ (relayed j (onlyAt m log)).filterMap Effect.accepted? =
        (relayed j (onlyAt m log)).filterMap Effect.took? ++ link.session.commands.queue := run_fifo hsession
    rw [List.nil_append] at hcommands
    rw [acceptedFrames, hcommands, List.filterMap_append]
    rfl
  -- what was taken is what the datagrams spell, to the listener too
  have hspelled : spelled crates (mediaKey crates link'.config) (relayed j (onlyAt m log)) =
      voiced crates link.config (relayed j (onlyAt m log)) :=
    run_spells haead hreads hsession (taken_modest hspeaks hlink)
  have hvoice : ∀ (datagram : Bytes) (heard : UInt32 × Bytes),
      hear crates (mediaKey crates link'.config) datagram = some heard →
      decide (heard.1 = link.config.senderId) = true → voiceOf link.config.senderId datagram = true := by
    intro datagram heard hheard hsender
    rw [← of_decide_eq_true hsender]
    exact voiceOf_of_hear hheard
  have hheard : heardFrom link.config.senderId (relayed i (onlyAt n log)) link'.session =
      voiced crates link.config (relayed j (onlyAt m log)) :=
    calc heardFrom link.config.senderId (relayed i (onlyAt n log)) link'.session
        = (((readBy crates loaded audio inputs n i).filter (voiceOf link.config.senderId)).filterMap
            (hear crates (mediaKey crates link'.config))).filter fun heard => heard.1 = link.config.senderId := by
          rw [heardFrom, ← run_heard_at hhears hroom hlink', run_offered_at hhears hlink',
            filter_filterMap_filter hvoice]
          rfl
      _ = (spelled crates (mediaKey crates link'.config) (relayed j (onlyAt m log))).filter
            fun heard => heard.1 = link.config.senderId := by
          rw [hnetwork, ← filter_filterMap_filter hvoice]
          rfl
      _ = voiced crates link.config (relayed j (onlyAt m log)) := by
          rw [hspelled, List.filter_eq_self]
          intro heard hmem
          obtain ⟨frame, -, rfl⟩ := List.mem_map.mp hmem
          exact decide_eq_true rfl
  rw [hheard, hfifo, List.filter_append, List.map_append]
  rfl

end Flow

/-- `RoomAt`, computed. -/
def roomChecked (i : Nat) (app : App) (input : Input) : Bool :=
  match input with
  | .worker j _ => j ≠ i || (app.links[i]?).all fun link =>
      decide (link.session.events.queue.length < link.session.events.capacity)
  | _ => true

theorem roomAt_of_checked {crates : CryptoCrates} {i : Nat} {app : App} {input : Input}
    (h : roomChecked i app input = true) : RoomAt crates i app input := by
  rintro env link rfl hlink env' heard - -
  simpa [roomChecked, hlink] using h

/-- What the other station's session is opened with. -/
def listenerConfig : RelayConfig := RelayConfig.new (.v4 (ByteArr.replicate 4 127) 50000) 0 0 .aesGcmV2

/-- The caller's one frame arrives, and nothing waits anywhere. -/
theorem voice_complete_pair : ∃ world log link link',
    run (product (appStep tagCrates)) (start pair fun _ => true) pairInputs = some (world, log) ∧
    (world false).links[0]? = some link ∧ (world true).links[0]? = some link' ∧
    heardFrom 7 (relayed 0 (onlyAt true log)) link'.session = [(7, List.replicate 320 1)] := by
  have hview : (run (product (appStep tagCrates)) (start pair fun _ => true) pairInputs).map
      (fun r => ((r.1 false).links[0]?.map Link.config, (r.1 true).links[0]?.map Link.config)) =
      some (some callerConfig, some listenerConfig) := by decide +kernel
  have hframes : (run (product (appStep tagCrates)) (start pair fun _ => true) pairInputs).map
      (fun r => ((r.1 false).links.map fun link => waitingFrames link.session,
        acceptedFrames (relayed 0 (onlyAt false r.2)), (sentBy r.2 false 0).filter (voiceOf 7))) =
      some ([[]], [List.replicate 320 1],
        (readBy tagCrates pair (fun _ => true) pairInputs true 0).filter (voiceOf 7)) := by decide +kernel
  have hroom : Along (appStep tagCrates) (RoomAt tagCrates 0) (start pair (fun _ => true) true)
      (onlyAt true pairInputs) :=
    along_of_checked (fun _ _ => roomAt_of_checked) _ _
      (show checked (appStep tagCrates) (roomChecked 0) _ _ = true by decide +kernel)
  obtain ⟨⟨world, log⟩, hrun, hviews⟩ := Option.map_eq_some_iff.mp hview
  simp only [Prod.mk.injEq, Option.map_eq_some_iff] at hviews
  obtain ⟨⟨link, hlink, hconfig⟩, link', hlink', hconfig'⟩ := hviews
  rw [hrun] at hframes
  simp only [Option.map_some, Option.some.injEq, Prod.mk.injEq] at hframes
  obtain ⟨hwaiting, haccepted, hsent⟩ := hframes
  have hnone : waitingFrames link.session = [] :=
    List.mem_singleton.mp (hwaiting ▸ List.mem_map.mpr ⟨link, List.mem_of_getElem? hlink, rfl⟩)
  have hcomplete := voice_complete tagCrates_aead hrun hlink hlink' (by rw [hconfig, hconfig']; exact fun _ => rfl)
    hroom (by rw [hconfig]; exact hsent.symm)
  rw [hconfig, hnone, haccepted, List.filter_nil, List.map_nil, List.append_nil] at hcomplete
  refine ⟨world, log, link, link', hrun, hlink, hlink', hcomplete.symm.trans ?_⟩
  decide +kernel

end IncomUdon.Network
