/-
# IncomUdon.Transport.Graceful — what a disconnect does to the commands that still wait.

`disconnect` says it twice: it clears `running`, which the worker reads at the head of its loop and behind its inner
loop, and it sends `Disconnect` behind the commands that wait. A worker that is at one of its receives takes them
first. A worker that is anywhere else reads the flag before it takes anything, and leaves. §1 says what is wanted,
§2 shows that a receive serves the queue, §3 that the flag overtakes it everywhere else.
-/
import IncomUdon.Transport.Stream

namespace IncomUdon.Transport

open IncomUdon.Lib
open IncomUdon.Protocol
open IncomUdon.Crypto

/-! ## §1 — what is wanted -/

/-- What is shown next, a call of the cipher aside, is a packet handed over or an error reported. -/
def Answered (after : List Effect) : Prop :=
  ∃ e rest, (after = e :: rest ∨ ∃ call, after = .encrypt call :: e :: rest) ∧
    ((∃ origin packet, e = .handed origin packet) ∨ ∃ message, e = .event (.ioError message))

/-- Every command is answered as it is taken. -/
def AnswersAtOnce (effects : List Effect) : Prop :=
  ∀ before command after, effects = before ++ .took command :: after → command ≠ .disconnect → Answered after

/-- **A disconnect that loses nothing**: called in this state, behind these effects, it lets the worker send Leave only
after every command accepted so far was taken and answered. -/
def LosesNothing (crates : CryptoCrates) (config : RelayConfig) (s : Session) (seen : List Effect) : Prop :=
  ∀ labels s' effects, run (step crates config) s (.client .disconnect :: labels) = some (s', effects) →
    s'.worker = .leave →
    seen.filterMap Effect.accepted? <+: (seen ++ effects).filterMap Effect.took? ∧ AnswersAtOnce (seen ++ effects)

/-- The queue is empty, or the worker is at a receive, or there is none any more. -/
def Served (s : Session) : Prop :=
  s.commands.queue = [] ∨ s.worker = .recvTimeout ∨ s.worker = .drain ∨ s.workerGone

instance (s : Session) : Decidable (Served s) := inferInstanceAs (Decidable (_ ∨ _))

theorem Answered.append {after : List Effect} (h : Answered after) (more : List Effect) : Answered (after ++ more) := by
  obtain ⟨e, rest, rfl | ⟨call, rfl⟩, hanswer⟩ := h
  · exact ⟨e, rest ++ more, Or.inl rfl, hanswer⟩
  · exact ⟨e, rest ++ more, Or.inr ⟨call, rfl⟩, hanswer⟩

theorem AnswersAtOnce.append {a b : List Effect} (ha : AnswersAtOnce a) (hb : AnswersAtOnce b) :
    AnswersAtOnce (a ++ b) := by
  intro before command after hsplit hcommand
  rcases List.append_eq_append_iff.mp hsplit with ⟨middle, rfl, hmiddle⟩ | ⟨middle, rfl, hmiddle⟩
  · exact hb middle command after hmiddle hcommand
  · cases middle with
    | nil => exact hb [] command after hmiddle.symm hcommand
    | cons first rest =>
      obtain ⟨rfl, rfl⟩ := List.cons.inj hmiddle
      exact (ha before command rest rfl hcommand).append b

section

variable {crates : CryptoCrates} {config : RelayConfig} {s s' : Session} {seen effects : List Effect}

/-- Effects that take nothing. -/
theorem answersAtOnce_of_none (h : effects.filterMap Effect.took? = []) : AnswersAtOnce effects := by
  rintro before command after rfl
  have hnone := List.filterMap_eq_nil_iff.mp h (.took command) (by simp)
  cases hnone

theorem sendPacket_answered (origin : Origin) (packet : Packet) (sent : Except IoError Unit) :
    Answered (sendPacket origin packet sent) := by
  obtain ⟨rest, hrest, -⟩ := sendPacket_effects origin packet sent
  exact ⟨_, rest, Or.inl hrest, Or.inl ⟨origin, packet, rfl⟩⟩

/-- **Processing a command answers it**, unless the worker panics. -/
theorem process_answered {command : RelayCommand} {sent : Except IoError Unit} {turn : Turn}
    (h : process crates config s command sent = some turn) (hpanic : turn.panicked = false) :
    Answered turn.effects := by
  cases command with
  | send packet =>
    obtain rfl := Option.some.inj h
    exact sendPacket_answered .client packet sent
  | sendControl packetType payload =>
    obtain rfl := Option.some.inj h
    exact sendPacket_answered .control _ sent
  | sendPcm frame =>
    obtain rfl := Option.some.inj h
    have hsends := sendPcm_sends crates config s.sequence s.media frame sent
    generalize sendPcm crates config s.sequence s.media frame sent = turn at hsends hpanic
    cases hsends with
    | wrongLength | noKey => exact ⟨_, [], Or.inl rfl, Or.inr ⟨_, rfl⟩⟩
    | plain => exact sendPacket_answered .pcm _ sent
    | «sealed» =>
      obtain ⟨rest, hrest, -⟩ :=
        sendPacket_effects .pcm (.secured (pcmHeader config s.sequence) (pcmSecurity s.media) _ _) sent
      exact ⟨_, rest, Or.inr ⟨_, by rw [hrest]⟩, Or.inl ⟨.pcm, _, rfl⟩⟩
    | shortCiphertext => cases hpanic
    | encryptionFailed => exact ⟨_, [], Or.inr ⟨_, rfl⟩, Or.inr ⟨_, rfl⟩⟩
  | disconnect => cases h

/-- One step answers what it takes. -/
theorem step_answers {label : Label} (h : step crates config s label = some (s', effects)) :
    s'.worker = .panicked ∨ AnswersAtOnce effects := by
  cases label with
  | client action =>
    obtain ⟨-, -, htook, -⟩ := clientStep_turn h
    exact Or.inr (answersAtOnce_of_none htook)
  | worker env =>
    obtain ⟨-, -, hdoes⟩ := workerStep_turn h
    cases hdoes with
    | goes _ _ _ hevents =>
      refine Or.inr (answersAtOnce_of_none (List.filterMap_eq_nil_iff.mpr ?_))
      intro e he
      obtain ⟨event, rfl⟩ := hevents e he
      rfl
    | @takes command turn _ _ hturn hworker _ heffects =>
      cases hpanic : turn.panicked with
      | true => exact Or.inl (by rw [hworker, hpanic]; rfl)
      | false =>
        refine Or.inr ?_
        intro before command' after hsplit _
        have htook := process_outward hturn
        rw [heffects] at hsplit
        cases before with
        | nil =>
          obtain ⟨-, rfl⟩ := List.cons.inj hsplit
          exact process_answered hturn hpanic
        | cons first rest =>
          -- nothing is taken behind the first effect
          obtain ⟨-, hrest⟩ := List.cons.inj hsplit
          have hout := htook (.took command') (by rw [hrest]; simp)
          cases hout
    | ends _ _ heffects =>
      refine Or.inr ?_
      intro before command after hsplit hcommand
      rw [heffects] at hsplit
      cases before with
      | nil =>
        obtain ⟨hlast, -⟩ := List.cons.inj hsplit
        exact absurd (Effect.took.inj hlast).symm hcommand
      | cons first rest => simp at hsplit
    | owns _ _ _ heffects =>
      refine Or.inr (answersAtOnce_of_none ?_)
      rw [heffects]
      exact outward_view took_of_outward (sendPacket_outward .control _ env.sent)

/-- A worker that is gone stays where it is. -/
theorem step_gone {label : Label} (hgone : s.workerGone) (h : step crates config s label = some (s', effects)) :
    s'.worker = s.worker := by
  cases label with
  | client action => exact (clientStep_turn h).1
  | worker env => exact absurd hgone (not_workerGone h)

/-- So far every command was answered as it was taken, or the worker has panicked. -/
def AnswersSoFar (s : Session) (seen : List Effect) : Prop := s.worker = .panicked ∨ AnswersAtOnce seen

theorem AnswersSoFar.step {label : Label} (hinv : AnswersSoFar s seen)
    (h : step crates config s label = some (s', effects)) : AnswersSoFar s' (seen ++ effects) := by
  rcases hinv with hpanicked | hseen
  · exact Or.inl ((step_gone (Or.inr hpanicked) h).trans hpanicked)
  · rcases step_answers h with hpanicked | hnew
    · exact Or.inl hpanicked
    · exact Or.inr (hseen.append hnew)

/-! ## §2 — a receive serves the queue -/

/-- The commands `waiting` were all taken, or the worker is at a receive with the rest of them in front of its queue. -/
def Drains (waiting : List RelayCommand) (s : Session) (effects : List Effect) : Prop :=
  waiting <+: effects.filterMap Effect.took? ∨ s.worker = .panicked ∨
    ((s.worker = .recvTimeout ∨ s.worker = .drain) ∧ ∃ rest more,
      waiting = effects.filterMap Effect.took? ++ rest ∧ s.commands.queue = rest ++ more)

theorem Drains.client {waiting : List RelayCommand} (h : Drains waiting s seen) {action : ClientAction}
    (hstep : clientStep s action = some (s', effects)) : Drains waiting s' (seen ++ effects) := by
  obtain ⟨hworker, hqueue, htook, -⟩ := clientStep_turn hstep
  have hseen : (seen ++ effects).filterMap Effect.took? = seen.filterMap Effect.took? := by
    rw [List.filterMap_append, htook, List.append_nil]
  rw [Drains, hseen, hworker]
  rcases h with hall | hpanicked | ⟨hpc, rest, more, hwaiting, hfront⟩
  · exact Or.inl hall
  · exact Or.inr (Or.inl hpanicked)
  · refine Or.inr (Or.inr ⟨hpc, rest, more ++ effects.filterMap Effect.accepted?, hwaiting, ?_⟩)
    rw [hqueue, hfront, List.append_assoc]

/-- **The worker's steps** take the commands one by one, and no shutdown gets between. -/
theorem Drains.worker {waiting : List RelayCommand} (hwaiting : .disconnect ∉ waiting) (h : Drains waiting s seen)
    {env : Env} (hstep : workerStep crates config s env = some (s', effects)) :
    Drains waiting s' (seen ++ effects) := by
  have hgrows : seen.filterMap Effect.took? <+: (seen ++ effects).filterMap Effect.took? := by
    rw [List.filterMap_append]
    exact List.prefix_append _ _
  rcases h with hall | hpanicked | ⟨hpc, rest, more, hsplit, hqueue⟩
  · exact Or.inl (hall.trans hgrows)
  · exact absurd (Or.inr hpanicked) (not_workerGone hstep)
  -- with nothing left in front, all of them were taken
  have hdone : rest = [] → Drains waiting s' (seen ++ effects) := by
    rintro rfl
    rw [List.append_nil] at hsplit
    exact Or.inl (hsplit ▸ hgrows)
  obtain ⟨-, -, hdoes⟩ := workerStep_turn hstep
  cases hdoes with
  | goes hgoes =>
    have hempty : s.commands.queue = [] := by
      generalize s'.worker = pc, s'.running = running at hgoes
      cases hgoes with
      | timesOut _ hempty | isClosed _ hempty | drained _ hempty | drainsClosed _ hempty => exact hempty
      | connected hother | runs hother | isStopped hother | goesOn hother | givesUp hother | notDue hother
      | received hother | dies hother | returns hother => simp [hother] at hpc
    rw [hempty] at hqueue
    exact hdone (List.append_eq_nil_iff.mp hqueue.symm).1
  | @takes command turn _ hfront hturn hworker _ heffects =>
    cases rest with
    | nil => exact hdone rfl
    | cons first rest =>
      rw [hqueue, List.cons_append] at hfront
      obtain ⟨rfl, hbehind⟩ := List.cons.inj hfront
      have htook : effects.filterMap Effect.took? = [first] := by
        rw [heffects]
        show first :: turn.effects.filterMap Effect.took? = _
        rw [outward_view took_of_outward (process_outward hturn)]
      cases hpanic : turn.panicked with
      | true => exact Or.inr (Or.inl (by rw [hworker, hpanic]; rfl))
      | false =>
        refine Or.inr (Or.inr ⟨Or.inr (by rw [hworker, hpanic]; rfl), rest, more, ?_, hbehind.symm⟩)
        rw [hsplit, List.filterMap_append, htook, List.append_assoc]
        rfl
  | ends hfront =>
    cases rest with
    | nil => exact hdone rfl
    | cons first rest =>
      rw [hqueue, List.cons_append] at hfront
      obtain ⟨rfl, -⟩ := List.cons.inj hfront
      exact absurd (by rw [hsplit]; simp) hwaiting
  | owns hplace =>
    generalize hother : s.worker = pc, s'.worker = pc' at hplace
    rw [hother] at hpc
    cases hplace <;> simp at hpc

/-- **A worker at a receive** takes what waits before it leaves. -/
theorem run_drains {labels : List Label} (hwaiting : .disconnect ∉ s.commands.queue)
    (hpc : s.worker = .recvTimeout ∨ s.worker = .drain)
    (hrun : run (step crates config) s labels = some (s', effects)) (hleave : s'.worker = .leave) :
    s.commands.queue <+: effects.filterMap Effect.took? := by
  have hdrains : Drains s.commands.queue s' effects := by
    refine run_history (R := fun t _ seen => Drains s.commands.queue t seen) ?_ ?_ hrun
    · intro t _ seen label t' es hinv hstep
      cases label with
      | client action => exact hinv.client hstep
      | worker env => exact hinv.worker hwaiting hstep
    · exact Or.inr (Or.inr ⟨hpc, s.commands.queue, [], rfl, (List.append_nil _).symm⟩)
  rcases hdrains with hall | hpanicked | ⟨hother, -⟩
  · exact hall
  · rw [hleave] at hpanicked
    cases hpanicked
  · simp [hleave] at hother

/-! ## §3 — everywhere else the flag overtakes it -/

/-- The worker can leave without taking a command. -/
def Deserts (crates : CryptoCrates) (config : RelayConfig) (s : Session) : Prop :=
  ∃ labels s' effects, run (step crates config) s labels = some (s', effects) ∧ s'.worker = .leave ∧
    effects.filterMap Effect.took? = []

/-- One more step in front. -/
theorem Deserts.cons (label : Label) (hstep : step crates config s label = some (s', effects))
    (htook : effects.filterMap Effect.took? = []) (h : Deserts crates config s') : Deserts crates config s := by
  obtain ⟨labels, t, es, hrun, hleave, hnone⟩ := h
  refine ⟨label :: labels, t, effects ++ es, run_cons_eq_some.mpr ⟨s', effects, es, hstep, hrun, rfl⟩, hleave, ?_⟩
  rw [List.filterMap_append, htook, hnone]
  rfl

theorem deserts_head (hstopped : s.running = false) (hpc : s.worker = .head ∨ s.worker = .recheck) :
    Deserts crates config s := by
  have hstep : step crates config s tick = some ({ s with worker := .leave }, []) := by
    rcases hpc with hpc | hpc
    · simp [step, tick, workerStep, hpc, hstopped]
    · simp [step, tick, workerStep, hpc, hstopped]
  exact .cons tick hstep rfl ⟨[], _, [], rfl, rfl, rfl⟩

theorem deserts_recv (hstopped : s.running = false) (hpc : s.worker = .recv) : Deserts crates config s := by
  have hstep : step crates config s tick = some ({ s with worker := .head }, []) := by
    simp [step, tick, workerStep, hpc]
  exact .cons tick hstep rfl (deserts_head hstopped (Or.inl rfl))

/-- A control packet of the worker's own takes nothing. -/
theorem sendControl_took (config : RelayConfig) (s : Session) (packetType : PacketType) :
    (sendControl config s.sequence s.media packetType [] (.ok ())).effects.filterMap Effect.took? = [] := by
  show (sendPacket .control (controlPacket config s.sequence packetType []) (.ok ())).filterMap Effect.took? = []
  exact outward_view took_of_outward (sendPacket_outward .control _ _)

theorem deserts_keepalive (hstopped : s.running = false) (hpc : s.worker = .keepalive) :
    Deserts crates config s := by
  by_cases hdue : config.keepaliveInterval ≤ 0
  · have hstep : step crates config s tick = some (s.finish .recv
        (sendControl config s.sequence s.media .keepalive [] (.ok ())),
        (sendControl config s.sequence s.media .keepalive [] (.ok ())).effects) := by
      simp only [step, tick, workerStep, hpc, if_pos hdue]
    exact .cons tick hstep (sendControl_took config s .keepalive) (deserts_recv hstopped rfl)
  · have hstep : step crates config s tick = some ({ s with worker := .recv }, []) := by
      simp only [step, tick, workerStep, hpc, if_neg hdue]
    exact .cons tick hstep rfl (deserts_recv hstopped rfl)

theorem deserts_join (hstopped : s.running = false) (hpc : s.worker = .join) : Deserts crates config s := by
  have hstep : step crates config s tick = some (s.finish .head
      (sendControl config s.sequence s.media .join [] (.ok ())),
      (sendControl config s.sequence s.media .join [] (.ok ())).effects) := by
    simp only [step, tick, workerStep, hpc]
  exact .cons tick hstep (sendControl_took config s .join) (deserts_head hstopped (Or.inl rfl))

theorem deserts_entry (hstopped : s.running = false) (hpc : s.worker = .entry) : Deserts crates config s := by
  have hstep : step crates config s tick = some (s.finish .join (s.offer (.connected s.localAddr)),
      (s.offer (.connected s.localAddr)).effects) := by
    simp only [step, tick, workerStep, hpc]
  exact .cons tick hstep rfl (deserts_join hstopped rfl)

/-- **From everywhere but its receives** the worker leaves with the queue as it is, once the flag is clear. -/
theorem deserts_of_stopped (hstopped : s.running = false) (hgone : ¬ s.workerGone)
    (hreceive : ¬ (s.worker = .recvTimeout ∨ s.worker = .drain)) (hstop : s.worker ≠ .stop) :
    Deserts crates config s := by
  cases hpc : s.worker with
  | entry => exact deserts_entry hstopped hpc
  | join => exact deserts_join hstopped hpc
  | head => exact deserts_head hstopped (Or.inl hpc)
  | recheck => exact deserts_head hstopped (Or.inr hpc)
  | keepalive => exact deserts_keepalive hstopped hpc
  | recv => exact deserts_recv hstopped hpc
  | leave => exact ⟨[], s, [], rfl, hpc, rfl⟩
  | recvTimeout => exact absurd (Or.inl hpc) hreceive
  | drain => exact absurd (Or.inr hpc) hreceive
  | stop => exact absurd hpc hstop
  | returned => exact absurd (Or.inl hpc) hgone
  | panicked => exact absurd (Or.inr hpc) hgone

/-- The first step of a `disconnect`, where the flag is set. -/
theorem disconnect_step (hidle : s.client = .idle) (hrunning : s.running = true) :
    step crates config s (.client .disconnect) =
      some ({ s with running := false, client := .posting }, []) := by
  simp only [step, clientStep, hidle, if_pos hrunning]

/-- A worker that is gone never comes to its Leave. -/
theorem run_gone {labels : List Label} (hgone : s.workerGone)
    (hrun : run (step crates config) s labels = some (s', effects)) : s'.worker = s.worker := by
  refine run_history (R := fun t _ _ => t.worker = s.worker) ?_ rfl hrun
  intro t _ _ label t' es hsame hstep
  have hgone' : t.workerGone := by
    unfold Session.workerGone
    rw [hsame]
    exact hgone
  exact (step_gone hgone' hstep).trans hsame

/-- **A graceful disconnect.** Let a session have run to any state in which the client may call `disconnect`. The
call loses no command accepted before it (every one of them is taken and answered before the worker sends Leave, in
every run from there), exactly when the queue is empty, or the worker is at one of its two receives, or it is gone. -/
theorem graceful_disconnect_iff {localAddr : SocketAddr} {random : UInt64} {labels : List Label}
    (hrun : run (step crates config) (Session.start crates config localAddr random) labels = some (s, seen))
    (hidle : s.client = .idle) : LosesNothing crates config s seen ↔ Served s := by
  have hinv := run_shutdown hrun
  have hfifo : seen.filterMap Effect.accepted? = seen.filterMap Effect.took? ++ s.commands.queue := run_fifo hrun
  constructor
  · intro hkeeps
    by_contra hnot
    simp only [Served, not_or] at hnot
    obtain ⟨hwaits, htimeout, hdrain, hgone⟩ := hnot
    have hrunning : s.running = true := by
      by_contra hclear
      exact hgone (hinv.joined (Bool.eq_false_iff.mpr hclear) hidle)
    -- the worker leaves on the flag, and takes nothing on its way
    obtain ⟨rest, t, es, hout, hleave, hnone⟩ : Deserts crates config { s with running := false, client := .posting } :=
      deserts_of_stopped rfl hgone (by simp [htimeout, hdrain]) (hinv.early hrunning).2.1
    obtain ⟨hall, -⟩ := hkeeps rest t _
      (run_cons_eq_some.mpr ⟨_, _, _, disconnect_step hidle hrunning, hout, rfl⟩) hleave
    have hlength := hall.length_le
    rw [hfifo, List.nil_append, List.filterMap_append, hnone, List.append_nil, List.length_append] at hlength
    exact hwaits (List.length_eq_zero_iff.mp (by omega))
  · intro hserved labels' s' es hrun' hleave
    have hanswers : AnswersSoFar s' (seen ++ es) := by
      have hsofar : AnswersSoFar s seen :=
        run_history (R := fun t _ seen => AnswersSoFar t seen) (fun _ _ _ _ _ _ h hstep => h.step hstep)
          (Or.inr (answersAtOnce_of_none rfl)) hrun
      exact run_history_from (R := fun t _ seen => AnswersSoFar t seen) (fun _ _ _ _ _ _ h hstep => h.step hstep) []
        hsofar hrun'
    refine ⟨?_, hanswers.resolve_left (by simp [hleave])⟩
    rw [hfifo, List.filterMap_append]
    have hreceive : (s.worker = .recvTimeout ∨ s.worker = .drain) → s.commands.queue <+: es.filterMap Effect.took? := by
      intro hpc
      have hrunning : s.running = true := by
        by_contra hclear
        have hgone := hinv.joined (Bool.eq_false_iff.mpr hclear) hidle
        rcases hpc with hpc | hpc <;> simp [Session.workerGone, hpc] at hgone
      have hwaiting : .disconnect ∉ s.commands.queue := by
        intro hmem
        rw [hinv.posted hmem] at hrunning
        cases hrunning
      obtain ⟨s₁, es₁, es₂, hstep, hrest, rfl⟩ := run_cons_eq_some.mp hrun'
      rw [disconnect_step hidle hrunning] at hstep
      obtain ⟨rfl, rfl⟩ := Prod.mk.inj (Option.some.inj hstep)
      exact run_drains (s := { s with running := false, client := .posting }) hwaiting hpc hrest hleave
    rcases hserved with hempty | htimeout | hdrain | hgone
    · rw [hempty, List.append_nil]
      exact List.prefix_append _ _
    · exact List.prefix_append_right_inj _ |>.mpr (hreceive (Or.inl htimeout))
    · exact List.prefix_append_right_inj _ |>.mpr (hreceive (Or.inr hdrain))
    · rw [run_gone hgone hrun'] at hleave
      simp [Session.workerGone, hleave] at hgone

end

/-- A session that has sent its Join and then accepts a `PttOff`; its worker is at the head of the loop, or one step
further. -/
def pttOffWaits (furtherSteps : Nat) : List Label :=
  [tick, tick, .client (.sendControl .pttOff [])] ++ List.replicate furtherSteps tick

/-- **At its receive the worker serves the queue**: the `PttOff` is taken before Leave, whatever comes. -/
theorem graceful_disconnect_receiving : ∃ s seen,
    run (step tagCrates (station .none)) (Session.start tagCrates (station .none) stationAddr 0) (pttOffWaits 1) =
      some (s, seen) ∧
    s.commands.queue = [.sendControl .pttOff []] ∧ LosesNothing tagCrates (station .none) s seen := by
  have hview : (run (step tagCrates (station .none)) (Session.start tagCrates (station .none) stationAddr 0)
      (pttOffWaits 1)).map (fun r => (r.1.client, r.1.commands.queue, decide (Served r.1))) =
      some (.idle, [.sendControl .pttOff []], true) := by decide +kernel
  obtain ⟨⟨s, seen⟩, hrun, hview⟩ := Option.map_eq_some_iff.mp hview
  obtain ⟨hidle, hview⟩ := Prod.mk.inj hview
  obtain ⟨hqueue, hserved⟩ := Prod.mk.inj hview
  exact ⟨s, seen, hrun, hqueue, (graceful_disconnect_iff hrun hidle).mpr (of_decide_eq_true hserved)⟩

/-- **At the head of its loop it does not.** The client's `disconnect` comes right behind an accepted `PttOff`; the
worker reads the flag, sends Leave, and never takes the `PttOff`. -/
theorem pttOff_lost : ∃ s seen s' effects,
    run (step tagCrates (station .none)) (Session.start tagCrates (station .none) stationAddr 0) (pttOffWaits 0) =
      some (s, seen) ∧
    seen.filterMap Effect.accepted? = [.sendControl .pttOff []] ∧
    run (step tagCrates (station .none)) s
        [.client .disconnect, .client .postDisconnect, tick, tick, tick, .client .joinWorker] = some (s', effects) ∧
    (seen ++ effects).filterMap Effect.handed? = [(.control, controlPacket (station .none) 0 .join []),
      (.control, controlPacket (station .none) 1 .leave [])] ∧
    s'.worker = .returned ∧ ¬ LosesNothing tagCrates (station .none) s seen := by
  have hview : ((run (step tagCrates (station .none)) (Session.start tagCrates (station .none) stationAddr 0)
      (pttOffWaits 0)).bind fun r => (run (step tagCrates (station .none)) r.1
        [.client .disconnect, .client .postDisconnect, tick, tick, tick, .client .joinWorker]).bind fun q =>
      (run (step tagCrates (station .none)) r.1 [.client .disconnect, .client .postDisconnect, tick]).map fun p =>
        (r.2.filterMap Effect.accepted?, (r.2 ++ q.2).filterMap Effect.handed?, q.1.worker, p.1.worker,
          (r.2 ++ p.2).filterMap Effect.took?)) =
      some ([.sendControl .pttOff []], [(.control, controlPacket (station .none) 0 .join []),
        (.control, controlPacket (station .none) 1 .leave [])], .returned, .leave, []) := by decide +kernel
  obtain ⟨⟨s, seen⟩, hrun, hview⟩ := Option.bind_eq_some_iff.mp hview
  obtain ⟨⟨s', effects⟩, hrest, hview⟩ := Option.bind_eq_some_iff.mp hview
  obtain ⟨⟨t, es⟩, hleaving, hview⟩ := Option.map_eq_some_iff.mp hview
  simp only [Prod.mk.injEq] at hview
  obtain ⟨haccepted, hhanded, hreturned, hleave, htook⟩ := hview
  refine ⟨s, seen, s', effects, hrun, haccepted, hrest, hhanded, hreturned, ?_⟩
  intro hkeeps
  obtain ⟨hall, -⟩ := hkeeps _ t es hleaving hleave
  rw [haccepted, htook] at hall
  exact absurd (List.prefix_nil.mp hall) (List.cons_ne_nil _ _)

end IncomUdon.Transport
