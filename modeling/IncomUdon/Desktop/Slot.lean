/-
# IncomUdon.Desktop.Slot — one session at a time, and threads that do not die.

`SharedRelaySession` holds at most one session. A new one is opened in an empty slot only, and the slot is emptied by
`take`, behind which the thread of the window waits for the worker. So no two workers ever run at once, and none is
left when the application ends (`one_worker_at_a_time`). The worker of the session in the slot has not stopped, so
`Stopped` is never told and the timer never closes a session (`stopped_never_told`). Neither the thread of the window
nor a worker panics (`no_thread_panics`).
-/
import IncomUdon.Desktop.PushToTalk
import IncomUdon.Desktop.Sessions
import IncomUdon.Desktop.Turns
import IncomUdon.Transport.Lifecycle

namespace IncomUdon.Desktop

open IncomUdon.Lib
open IncomUdon.Core
open IncomUdon.Protocol
open IncomUdon.Crypto
open IncomUdon.Transport

/-! ## §1 — one session -/

section

variable {crates : CryptoCrates} {config : RelayConfig} {s s' : Session} {effects : List Effect}

/-- A call that does not close a session leaves it as open as it was. -/
theorem clientStep_stays {action : ClientAction} (haction : closesSession action = false)
    (h : clientStep s action = some (s', effects)) : s'.client = s.client ∧ s'.running = s.running := by
  cases clientStep_does h with
  | @submits _ command =>
    rw [(s.submit_spec command).1]
    exact ⟨rfl, rfl⟩
  | takes | finds => exact ⟨rfl, rfl⟩
  | stops | stopped | posts | joins | releases => cases haction

/-- A client that has dropped its session takes no step. -/
theorem clientStep_of_gone (hgone : s.client = .gone) (action : ClientAction) : clientStep s action = none := by
  unfold clientStep
  rw [hgone]

/-- **The drop of a session waits for its worker.** -/
theorem run_released {localAddr : SocketAddr} {random : UInt64} {labels : List Label}
    (hrun : run (step crates config) (Session.start crates config localAddr random) labels = some (s, effects)) :
    s.client = .gone → s.workerGone := by
  have hboth : Shutdown s effects ∧ (s.client = .gone → s.workerGone) := by
    refine run_history (R := fun s _ seen => Shutdown s seen ∧ (s.client = .gone → s.workerGone)) ?_
      ⟨@run_shutdown crates config _ _ localAddr random [] rfl, fun h => nomatch h⟩ hrun
    rintro s labels seen label s' es ⟨hshut, hreleased⟩ hstep
    cases label with
    | worker env =>
      refine ⟨hshut.worker hstep, fun hgone => ?_⟩
      rw [(workerStep_turn hstep).1] at hgone
      exact absurd (hreleased hgone) (not_workerGone hstep)
    | client action =>
      refine ⟨hshut.client hstep, fun hgone => ?_⟩
      cases clientStep_does hstep with
      | @submits _ command hidle =>
        rw [(s.submit_spec command).1, hidle] at hgone
        cases hgone
      | takes hidle | finds hidle | stopped hidle =>
        rw [show s.client = .gone from hgone] at hidle
        cases hidle
      | stops | posts | joins => cases hgone
      | releases hidle hstopped => exact hshut.joined hstopped hidle
  exact hboth.2

/-- The worker of a session that is not being closed has not stopped, and its client was not told that it has. -/
theorem run_open {localAddr : SocketAddr} {random : UInt64} {labels : List Label}
    (hrun : run (step crates config) (Session.start crates config localAddr random) labels = some (s, effects))
    (hrunning : s.running = true) : .stopped ∉ effects.filterMap Effect.next? ++ s.events.queue := by
  have hreturned := ((run_shutdown hrun).early hrunning).2.2
  have hinv := run_events hrun
  intro hmem
  by_cases hentry : s.worker = .entry
  · obtain ⟨-, -, htold, hempty⟩ := hinv.fresh hentry
    rw [htold, hempty] at hmem
    cases hmem
  · obtain ⟨middle, kept, hinner, -, htold, hkept⟩ := hinv.opened hentry
    rw [farewell, if_neg hreturned, List.append_nil] at hkept
    rw [htold] at hmem
    rcases List.mem_cons.mp hmem with hfirst | hlater
    · cases hfirst
    · cases hinner _ (hkept.subset hlater)

end

/-! ## §2 — the slot -/

/-- Nobody has begun to close the session. -/
def Link.Open (link : Link) : Prop := link.session.client = .idle ∧ link.session.running = true

section Driving

variable {crates : CryptoCrates} {links links' : List Link} {i : Nat} {label : Label} {effects : List AppEffect}

theorem Driven.length (h : Driven crates links i label links' effects) : links'.length = links.length := by
  obtain ⟨_, _, _, _, _, rfl, _⟩ := h
  exact List.length_set

/-- A session behind the step is one that did not move, or the one that took it. -/
theorem Driven.cases (h : Driven crates links i label links' effects) {j : Nat} {link' : Link}
    (hlink' : links'[j]? = some link') :
    (j ≠ i ∧ links[j]? = some link') ∨ (j = i ∧ ∃ link es, links[i]? = some link ∧ link'.config = link.config ∧
      step crates link.config link.session label = some (link'.session, es) ∧ effects = es.map (.relay i)) := by
  obtain ⟨link, session, es, hlink, hstep, rfl, rfl⟩ := h
  by_cases hij : j = i
  · subst hij
    rw [List.getElem?_set_self (List.getElem?_eq_some_iff.mp hlink).1, Option.some.injEq] at hlink'
    subst hlink'
    exact Or.inr ⟨rfl, link, es, hlink, rfl, hstep, rfl⟩
  · rw [List.getElem?_set_ne (Ne.symm hij)] at hlink'
    exact Or.inl ⟨hij, hlink'⟩

/-- A session that its client has dropped stays dropped. -/
theorem Driven.gone (h : Driven crates links i label links' effects) {j : Nat} {link' : Link}
    (hlink' : links'[j]? = some link') (hgone : ∀ link : Link, links[j]? = some link → link.session.client = .gone) :
    link'.session.client = .gone := by
  rcases h.cases hlink' with ⟨-, hlink⟩ | ⟨rfl, link, es, hlink, -, hstep, -⟩
  · exact hgone _ hlink
  · cases label with
    | client action =>
      rw [step, clientStep_of_gone (hgone link hlink)] at hstep
      cases hstep
    | worker env =>
      rw [(workerStep_turn hstep).1]
      exact hgone link hlink

/-- An open session stays open, unless it is driven to close. -/
theorem Driven.open (h : Driven crates links i label links' effects) {j : Nat} {link' : Link}
    (hshut : ∀ (i : Nat) (link : Link), links[i]? = some link → ∃ seen, Shutdown link.session seen)
    (hlabel : ∀ action, label = .client action → closesSession action = false)
    (hlink' : links'[j]? = some link') (hopen : ∀ link : Link, links[j]? = some link → link.Open) : link'.Open := by
  rcases h.cases hlink' with ⟨-, hlink⟩ | ⟨rfl, link, es, hlink, -, hstep, -⟩
  · exact hopen _ hlink
  · obtain ⟨hclient, hrunning⟩ := hopen link hlink
    cases label with
    | client action =>
      obtain ⟨hsame, hflag⟩ := clientStep_stays (hlabel action rfl) hstep
      exact ⟨hsame.trans hclient, hflag.trans hrunning⟩
    | worker env =>
      obtain ⟨seen, hshut⟩ := hshut j link hlink
      exact ⟨(workerStep_turn hstep).1.trans hclient, (hshut.running hstep).trans hrunning⟩

end Driving

/-- The active profile exists. -/
def InRange (store : ProfileStore) : Prop := store.activeProfile < store.profiles.length

theorem inRange_iff {store : ProfileStore} : InRange store ↔ ∃ profile, store.active = .ok profile := by
  unfold InRange ProfileStore.active index
  constructor
  · intro hlt
    rw [List.getElem?_eq_getElem hlt]
    exact ⟨_, rfl⟩
  · rintro ⟨profile, hactive⟩
    by_contra hge
    rw [List.getElem?_eq_none (Nat.le_of_not_lt hge)] at hactive
    cases hactive

/-- **No operation loses the active profile**, whether it is accepted, refused, or refused too late. -/
theorem InRange.perform {store : ProfileStore} (h : InRange store) (op : StoreOp) :
    InRange (store.perform op).2 ∧ (store.perform op).1 ≠ .panicked := by
  cases op with
  | replaceActive profile =>
    simp only [ProfileStore.perform, ProfileStore.replaceActive]
    split
    · exact ⟨h, by simp⟩
    · rw [if_pos (show store.activeProfile < store.profiles.length from h)]
      refine ⟨?_, Outcome.ofExcept_ne_panicked _⟩
      rw [InRange, List.length_set]
      exact h
  | replaceRelay relay =>
    simp only [ProfileStore.perform, ProfileStore.replaceRelay]
    split
    · exact ⟨h, by simp⟩
    · exact ⟨h, Outcome.ofExcept_ne_panicked _⟩

theorem InRange.not_panics {app : App} (h : InRange app.store) : ¬ app.Panics := by
  rintro (hnone | ⟨op, hpanicked⟩)
  · obtain ⟨profile, hactive⟩ := inRange_iff.mp h
    exact hnone profile hactive
  · exact (h.perform op).2 hpanicked

/-- The thread of the window is closing a session. -/
def App.Closes (app : App) (i : Nat) : Prop := ∃ reason, app.pc = .closing i reason

/-- Where the thread is while it closes nothing, has not ended, and was not told `Stopped`. -/
def UiPc.ordinary : UiPc → Bool
  | .idle | .requesting | .streaming _ | .polling false => true
  | _ => false

/-- What holds in every state: the session in the slot is open, and every other one is being closed or was dropped. -/
structure SlotInv (app : App) : Prop where
  inRange : InRange app.store
  inSlot : ∀ i, app.session = some i → i < app.links.length
  opened : ∀ i link, app.session = some i → app.links[i]? = some link → link.Open
  others : ∀ i link, app.links[i]? = some link → app.session ≠ some i → ¬ app.Closes i → link.session.client = .gone
  /-- Away from the ordinary places the slot is empty, and `Stopped` was not the reason. -/
  place : app.pc.ordinary = true ∨
    app.session = none ∧
      (app.pc = .ended ∨ ∃ i reason, app.pc = .closing i reason ∧ reason ≠ .stopped ∧ i < app.links.length)

section Steps

variable {crates : CryptoCrates} {app app' : App} {input : Input} {effects : List AppEffect}

/-- An ordinary place is none of closing. -/
theorem not_closing_of_ordinary (h : app.pc.ordinary = true) (i : Nat) : ¬ app.Closes i := by
  rintro ⟨reason, hpc⟩
  rw [hpc] at h
  cases h

/-- Every session was dropped, but for the one in the slot. -/
theorem SlotInv.dropped (hinv : SlotInv app) (hpc : app.pc.ordinary = true) {i : Nat} {link : Link}
    (hlink : app.links[i]? = some link) (hslot : app.session ≠ some i) : link.session.client = .gone :=
  hinv.others i link hlink hslot (not_closing_of_ordinary hpc i)

variable (crates) in
/-- With the slot as it was and at most one session driven, not to close: the thread stays where it is, or goes from
one ordinary place to another. -/
theorem SlotInv.keeps (hinv : SlotInv app) (hstore : InRange app'.store) (hslot : app'.session = app.session)
    (hpc : app'.pc = app.pc ∨ app.pc.ordinary = true ∧ app'.pc.ordinary = true)
    (hshut : ∀ (i : Nat) (link : Link), app.links[i]? = some link → ∃ seen, Shutdown link.session seen)
    (hlinks : app'.links = app.links ∨ ∃ i label effects, Driven crates app.links i label app'.links effects ∧
      ∀ action, label = .client action → closesSession action = false) : SlotInv app' := by
  have hclosing : ∀ i, ¬ app'.Closes i → ¬ app.Closes i := by
    rcases hpc with hsame | ⟨hpc, -⟩
    · simp [App.Closes, hsame]
    · exact fun i _ => not_closing_of_ordinary hpc i
  have hlength : app'.links.length = app.links.length := by
    rcases hlinks with hsame | ⟨i, label, effects, hdriven, -⟩
    · rw [hsame]
    · exact hdriven.length
  have hplace : app'.pc.ordinary = true ∨ app'.session = none ∧ (app'.pc = .ended ∨
      ∃ i reason, app'.pc = .closing i reason ∧ reason ≠ .stopped ∧ i < app'.links.length) := by
    rcases hpc with hsame | ⟨-, hpc'⟩
    · rw [hsame, hslot, hlength]
      exact hinv.place
    · exact Or.inl hpc'
  rcases hlinks with hsame | ⟨i, label, effects, hdriven, hlabel⟩
  · refine ⟨hstore, ?_, ?_, ?_, hplace⟩
    · rw [hslot, hsame]
      exact hinv.inSlot
    · rw [hslot, hsame]
      exact hinv.opened
    · rw [hslot, hsame]
      exact fun j link hlink hother hpc' => hinv.others j link hlink hother (hclosing j hpc')
  · refine ⟨hstore, ?_, ?_, ?_, hplace⟩
    · rw [hslot, hlength]
      exact hinv.inSlot
    · rw [hslot]
      exact fun j link' hj hlink' => hdriven.open hshut hlabel hlink' fun link hlink => hinv.opened j link hj hlink
    · rw [hslot]
      exact fun j link' hlink' hother hpc' =>
        hdriven.gone hlink' fun link hlink => hinv.others j link hlink hother (hclosing j hpc')

/-- The session in the slot is taken out of it, to be closed. -/
theorem SlotInv.takes (hinv : SlotInv app) (hpc : app.pc.ordinary = true) {i : Nat} {reason : Closing}
    (hreason : reason ≠ .stopped) (hslot : app.session = some i) :
    SlotInv { app with session := none, pc := .closing i reason } where
  inRange := hinv.inRange
  inSlot := fun _ h => nomatch h
  opened := fun _ _ h => nomatch h
  others := by
    intro j link hlink _ hclosing
    apply hinv.dropped hpc hlink
    rw [hslot]
    rintro ⟨⟩
    exact hclosing ⟨reason, rfl⟩
  place := Or.inr ⟨rfl, Or.inr ⟨i, reason, rfl, hreason, hinv.inSlot i hslot⟩⟩

/-- A session is opened in an empty slot. -/
theorem SlotInv.opens (hinv : SlotInv app) (hpc : app.pc.ordinary = true) (hslot : app.session = none) {link : Link}
    (hopen : link.Open) (window : AppWindow) :
    SlotInv { app with window, links := app.links ++ [link], session := some app.links.length } where
  inRange := hinv.inRange
  inSlot := by
    rintro i hi
    obtain rfl := Option.some.inj hi
    simp
  opened := by
    rintro i link' hi hlink'
    obtain rfl := Option.some.inj hi
    obtain rfl := Option.some.inj (List.getElem?_concat_length.symm.trans hlink')
    exact hopen
  others := by
    intro i link' hlink' hother _
    have hlt := (List.getElem?_eq_some_iff.mp hlink').1
    have hne : i ≠ app.links.length := fun heq => hother (by rw [heq])
    rw [List.length_append, List.length_singleton] at hlt
    rw [List.getElem?_append_left (by omega)] at hlink'
    exact hinv.dropped hpc hlink' (by simp [hslot])
  place := Or.inl hpc

/-- Any other place of the thread is behind its callbacks or in closing a session, with an empty slot. -/
theorem SlotInv.away (hinv : SlotInv app) {pc : UiPc} (hpc : app.pc = pc) (haway : pc.ordinary = false) :
    app.session = none ∧
      (pc = .ended ∨ ∃ i reason, pc = .closing i reason ∧ reason ≠ .stopped ∧ i < app.links.length) := by
  subst hpc
  exact hinv.place.resolve_left (by simp [haway])

/-- While a session is being closed, the slot is empty. -/
theorem SlotInv.closing (hinv : SlotInv app) {i : Nat} {reason : Closing} (hpc : app.pc = .closing i reason) :
    app.session = none ∧ reason ≠ .stopped ∧ i < app.links.length := by
  obtain ⟨hslot, hended | ⟨j, reason', hpc', hreason⟩⟩ := hinv.away hpc rfl
  · cases hended
  · obtain ⟨rfl, rfl⟩ := UiPc.closing.inj hpc'
    exact ⟨hslot, hreason⟩

/-- One step of closing a session. -/
theorem SlotInv.closes (hinv : SlotInv app) {i : Nat} {reason : Closing} (hpc : app.pc = .closing i reason)
    {label : Label} {links : List Link} (hdriven : Driven crates app.links i label links effects) :
    SlotInv { app with links } where
  inRange := hinv.inRange
  inSlot := by
    intro j hj
    rw [(hinv.closing hpc).1] at hj
    cases hj
  opened := by
    intro j link hj
    rw [(hinv.closing hpc).1] at hj
    cases hj
  others := by
    intro j link' hlink' hother hclosing
    rcases hdriven.cases hlink' with ⟨-, hlink⟩ | ⟨rfl, -⟩
    · exact hinv.others j link' hlink hother hclosing
    · exact absurd ⟨reason, hpc⟩ hclosing
  place := by
    rw [show ({ app with links } : App).links.length = app.links.length from hdriven.length]
    exact hinv.place

/-- The session that was closed is dropped. -/
theorem SlotInv.closed (hinv : SlotInv app) {i : Nat} {reason : Closing} (hpc : app.pc = .closing i reason)
    {link : Link} (hlink : app.links[i]? = some link) (hgone : link.session.client = .gone) (window : AppWindow)
    {pc : UiPc} (hpc' : pc = .idle ∨ pc = .ended) : SlotInv { app with window, pc } where
  inRange := hinv.inRange
  inSlot := hinv.inSlot
  opened := hinv.opened
  others := by
    intro j link' hlink' hother _
    by_cases hij : j = i
    · subst hij
      rw [hlink, Option.some.injEq] at hlink'
      rwa [← hlink']
    · apply hinv.others j link' hlink' hother
      rintro ⟨reason', hclosing⟩
      rw [hpc] at hclosing
      exact hij (UiPc.closing.inj hclosing).1.symm
  place := by
    rcases hpc' with rfl | rfl
    · exact Or.inl rfl
    · exact Or.inr ⟨(hinv.closing hpc).1, Or.inl rfl⟩

end Steps

/-! ## §3 — what the application is told -/

section Told

variable {crates : CryptoCrates} {app app' : App} {input : Input} {inputs : List Input}
  {seen effects : List AppEffect}

/-- Only `try_next_event` returns an event, and the event was waiting. -/
theorem Driven.told {links links' : List Link} {i : Nat} {label : Label}
    (h : Driven crates links i label links' effects) {j : Nat} {event : RelayEvent}
    (hmem : .relay j (.nextEvent (some event)) ∈ effects) :
    j = i ∧ label = .client .tryNextEvent ∧
      ∃ link, links[i]? = some link ∧ event ∈ link.session.events.queue := by
  obtain ⟨link, session, es, hlink, hstep, -, rfl⟩ := h
  obtain ⟨e, he, heq⟩ := List.mem_map.mp hmem
  obtain ⟨rfl, rfl⟩ := AppEffect.relay.inj heq
  have hnext : event ∈ es.filterMap Effect.next? := List.mem_filterMap.mpr ⟨_, he, rfl⟩
  cases label with
  | worker env =>
    rw [workerStep_view next_of_outward (fun _ => rfl) hstep] at hnext
    cases hnext
  | client action =>
    have hqueue := (clientStep_events hstep).1
    refine ⟨rfl, ?_, link, hlink, ?_⟩
    · cases clientStep_does hstep with
      | @submits _ command =>
        obtain ⟨ok, hes⟩ := link.session.submit_effects command
        rw [hes] at hnext
        cases hnext
      | posts =>
        obtain ⟨ok, hes⟩ := link.session.submit_effects .disconnect
        rw [hes] at hnext
        cases hnext
      | takes | finds => rfl
      | stops | stopped | joins | releases => cases hnext
    · rw [hqueue]
      exact List.mem_append_left _ hnext

/-- What session `i` told the application is an answer of that session. -/
theorem mem_of_told {i : Nat} {event : RelayEvent} (h : event ∈ (relayed i effects).filterMap Effect.next?) :
    .relay i (.nextEvent (some event)) ∈ effects := by
  obtain ⟨e, he, hnext⟩ := List.mem_filterMap.mp h
  obtain ⟨effect, heffect, hrelay⟩ := List.mem_filterMap.mp he
  obtain rfl : e = .nextEvent (some event) := by
    cases e with
    | nextEvent next =>
      obtain rfl : next = some event := hnext
      rfl
    | _ => cases hnext
  cases effect with
  | playback => cases hrelay
  | relay j e' =>
    simp only [AppEffect.relay?, Option.ite_none_right_eq_some, Option.some.injEq] at hrelay
    obtain ⟨rfl, rfl⟩ := hrelay
    exact heffect

/-- The event that `try_next_event` returned. -/
theorem mem_of_nextEvent {event : RelayEvent} (h : App.nextEvent effects = some event) :
    ∃ i, .relay i (.nextEvent (some event)) ∈ effects := by
  obtain ⟨effect, hmem, heq⟩ := List.exists_of_findSome?_eq_some h
  cases effect with
  | playback => cases heq
  | relay i e =>
    cases e with
    | nextEvent next =>
      obtain rfl : next = some event := heq
      exact ⟨i, hmem⟩
    | _ => cases heq

/-- **The application asks the session in the slot only**, and in the loop of the timer. -/
theorem AppTurn.told (h : AppTurn crates app input app' effects) {i : Nat} {event : RelayEvent}
    (hmem : .relay i (.nextEvent (some event)) ∈ effects) :
    app.session = some i ∧ ∃ link, app.links[i]? = some link ∧ event ∈ link.session.events.queue := by
  cases h with
  | shows | discards | asksNobody | releasesNobody | saves | opens | takes | takesNothing | ticks | closed | streamed
  | wastes | pollsNothing | captures | sounds => cases hmem
  | configures _ _ _ hdriven | asks _ _ hdriven | releases _ _ hdriven | streams _ _ _ _ hdriven
  | works hdriven => exact nomatch (hdriven.told hmem).2.1
  | closes _ haction hdriven =>
    obtain rfl := Label.client.inj (hdriven.told hmem).2.1
    cases haction
  | polled _ hslot hdriven | stops _ hslot hdriven | hears _ hslot hdriven | mutes _ hslot hdriven =>
    obtain ⟨rfl, -, hqueued⟩ := hdriven.told hmem
    exact ⟨hslot, hqueued⟩
  | plays _ hslot hdriven =>
    have hrelayed := (List.mem_append.mp hmem).resolve_right (by simp)
    obtain ⟨rfl, -, hqueued⟩ := hdriven.told hrelayed
    exact ⟨hslot, hqueued⟩
  | panics _ _ hlinks =>
    rcases hlinks with ⟨-, rfl⟩ | ⟨j, hslot, hdriven⟩
    · cases hmem
    · obtain ⟨rfl, -, hqueued⟩ := hdriven.told hmem
      exact ⟨hslot, hqueued⟩

/-- Every session went through a shutdown of its own, if through any. -/
theorem SessionsSoFar.shutdown (h : SessionsSoFar crates app inputs seen) (i : Nat) (link : Link)
    (hlink : app.links[i]? = some link) : ∃ effects, Shutdown link.session effects := by
  obtain ⟨localAddr, random, labels, hrun, -⟩ := h.runs i link hlink
  exact ⟨_, run_shutdown hrun⟩

/-- **What the application is told is never `Stopped`.** -/
theorem SlotInv.untold (hinv : SlotInv app) (hsessions : SessionsSoFar crates app inputs seen)
    (h : AppTurn crates app input app' effects) {i : Nat} {event : RelayEvent}
    (hmem : .relay i (.nextEvent (some event)) ∈ effects) : event ≠ .stopped := by
  obtain ⟨hslot, link, hlink, hqueued⟩ := h.told hmem
  obtain ⟨localAddr, random, labels, hrun, -⟩ := hsessions.runs i link hlink
  rintro rfl
  exact run_open hrun (hinv.opened i link hslot hlink).2 (List.mem_append_right _ hqueued)

/-- Any other event leaves `stopped` as it was. -/
theorem applyRelayEvent_goes {event : RelayEvent} (h : event ≠ .stopped) (window : AppWindow) :
    (applyRelayEvent window event).2 = false := by
  cases event with
  | stopped => exact absurd rfl h
  | _ => rfl

/-- A call that closes nothing. -/
theorem plain_call {action : ClientAction} (haction : closesSession action = false) :
    ∀ action', Label.client action = .client action' → closesSession action' = false := by
  rintro _ ⟨⟩
  exact haction

theorem SlotInv.step (hinv : SlotInv app) (hsessions : SessionsSoFar crates app inputs seen)
    (h : AppTurn crates app input app' effects) : SlotInv app' := by
  have hshut := hsessions.shutdown
  -- the thread was idle, or in one of its loops
  have hordinary : ∀ {pc : UiPc}, app.pc = pc → pc.ordinary = true → app.pc.ordinary = true := by
    rintro pc rfl hpc
    exact hpc
  have hloops : ∀ stopped, app.pc = .polling stopped → stopped = false := by
    intro stopped hpc
    cases stopped with
    | false => rfl
    | true => simpa using (hinv.away hpc rfl).2
  have huntold := fun (i : Nat) (event : RelayEvent) => @SlotInv.untold crates app app' input inputs seen effects hinv
    hsessions h i event
  cases h with
  | shows | discards | releasesNobody => exact hinv.keeps crates hinv.inRange rfl (Or.inl rfl) hshut (Or.inl rfl)
  | captures | sounds => exact hinv.keeps crates hinv.inRange rfl (Or.inl rfl) hshut (Or.inl rfl)
  | saves => exact hinv.keeps crates (hinv.inRange.perform _).1 rfl (Or.inl rfl) hshut (Or.inl rfl)
  | configures hidle _ _ hdriven =>
    refine hinv.keeps crates hinv.inRange rfl (Or.inr ⟨hordinary hidle rfl, ?_⟩) hshut
      (Or.inr ⟨_, _, _, hdriven, plain_call rfl⟩)
    show UiPc.ordinary (if _ then _ else _) = true
    split
    · rfl
    · exact hordinary hidle rfl
  | asksNobody hpc => exact hinv.keeps crates hinv.inRange rfl (Or.inr ⟨hordinary hpc rfl, rfl⟩) hshut (Or.inl rfl)
  | asks hpc _ hdriven =>
    exact hinv.keeps crates hinv.inRange rfl (Or.inr ⟨hordinary hpc rfl, rfl⟩) hshut
      (Or.inr ⟨_, _, _, hdriven, plain_call rfl⟩)
  | releases _ _ hdriven =>
    exact hinv.keeps crates hinv.inRange rfl (Or.inl rfl) hshut (Or.inr ⟨_, _, _, hdriven, plain_call rfl⟩)
  | opens hidle hslot hlink =>
    refine hinv.opens (hordinary hidle rfl) hslot ?_ _
    obtain ⟨localAddr, random, hfresh⟩ := (App.openLink_spec hlink).1
    rw [Link.Open, hfresh]
    exact ⟨rfl, rfl⟩
  | takes hidle _ hreason hslot => exact hinv.takes (hordinary hidle rfl) hreason hslot
  | takesNothing hidle _ hslot hpc =>
    rcases hpc with rfl | rfl
    · exact hinv.keeps crates hinv.inRange rfl (Or.inr ⟨hordinary hidle rfl, rfl⟩) hshut (Or.inl rfl)
    · exact ⟨hinv.inRange, hinv.inSlot, hinv.opened,
        fun i link hlink hother _ => hinv.dropped (hordinary hidle rfl) hlink hother, Or.inr ⟨hslot, Or.inl rfl⟩⟩
  | ticks hidle =>
    refine hinv.keeps crates hinv.inRange rfl (Or.inr ⟨hordinary hidle rfl, ?_⟩) hshut (Or.inl rfl)
    show UiPc.ordinary (if _ then _ else _) = true
    split <;> rfl
  | closes hpc _ hdriven => exact hinv.closes hpc hdriven
  | closed hpc hlink hgone hpc' => exact hinv.closed hpc hlink hgone _ hpc'
  | streamed hpc | wastes hpc =>
    exact hinv.keeps crates hinv.inRange rfl (Or.inr ⟨hordinary hpc rfl, rfl⟩) hshut (Or.inl rfl)
  | streams hpc _ _ _ hdriven =>
    exact hinv.keeps crates hinv.inRange rfl (Or.inr ⟨hordinary hpc rfl, rfl⟩) hshut
      (Or.inr ⟨_, _, _, hdriven, plain_call rfl⟩)
  | pollsNothing hpc =>
    obtain rfl := hloops _ hpc
    exact hinv.keeps crates hinv.inRange rfl (Or.inr ⟨hordinary hpc rfl, rfl⟩) hshut (Or.inl rfl)
  | polled hpc _ hdriven =>
    exact hinv.keeps crates hinv.inRange rfl (Or.inr ⟨hordinary hpc rfl, rfl⟩) hshut
      (Or.inr ⟨_, _, _, hdriven, plain_call rfl⟩)
  | stops hpc => exact nomatch hloops _ hpc
  | hears hpc _ hdriven hnext =>
    obtain rfl := hloops _ hpc
    obtain ⟨j, hmem⟩ := mem_of_nextEvent hnext
    refine hinv.keeps crates hinv.inRange rfl (Or.inr ⟨hordinary hpc rfl, ?_⟩) hshut
      (Or.inr ⟨_, _, _, hdriven, plain_call rfl⟩)
    rw [applyRelayEvent_goes (huntold j _ hmem)]
    rfl
  | mutes _ _ hdriven | plays _ _ hdriven =>
    exact hinv.keeps crates hinv.inRange rfl (Or.inl rfl) hshut (Or.inr ⟨_, _, _, hdriven, plain_call rfl⟩)
  | works hdriven =>
    exact hinv.keeps crates hinv.inRange rfl (Or.inl rfl) hshut (Or.inr ⟨_, _, _, hdriven, fun _ heq => nomatch heq⟩)
  | panics hpanics => exact absurd hpanics hinv.inRange.not_panics

end Told

/-! ## §4 — runs -/

section Runs

variable {crates : CryptoCrates} {storage : StorageCrates} {defaultPath : Except ProfileStorageError Path}
  {pathExists : Path → Bool} {audio : Bool} {inputs : List Input} {app : App} {effects : List AppEffect}

/-- The application starts with an empty slot and a store whose active profile exists. -/
theorem SlotInv.start (storage : StorageCrates) (defaultPath : Except ProfileStorageError Path)
    (pathExists : Path → Bool) (audio : Bool) :
    SlotInv (App.start (loadProfileStore storage defaultPath pathExists) audio) := by
  have hvalid := (loadProfileStore_initial storage defaultPath pathExists).valid
  generalize loadProfileStore storage defaultPath pathExists = loaded at hvalid
  obtain ⟨hlinks, hslot⟩ := App.start_sessions loaded audio
  have hactive : loaded.1.active = .ok _ := hvalid.active_ok
  refine ⟨?_, ?_, ?_, ?_, Or.inl ?_⟩
  · simp only [App.start, hactive]
    exact hvalid.active_lt
  · simp [hslot]
  · simp [hslot]
  · simp [hlinks]
  · simp only [App.start, hactive]
    rfl

/-- So far every session is a run of its own, the slot is in order, and nobody was told `Stopped`. -/
structure SlotSoFar (crates : CryptoCrates) (app : App) (inputs : List Input) (effects : List AppEffect) : Prop where
  sessions : SessionsSoFar crates app inputs effects
  slot : SlotInv app
  untold : ∀ i event, .relay i (.nextEvent (some event)) ∈ effects → event ≠ .stopped

theorem SlotSoFar.step {app' : App} {input : Input} {seen : List AppEffect} (hinv : SlotSoFar crates app inputs seen)
    (hstep : appStep crates app input = some (app', effects)) :
    SlotSoFar crates app' (inputs ++ [input]) (seen ++ effects) := by
  have hturn := appStep_turn hstep
  refine ⟨hinv.sessions.step hstep, hinv.slot.step hinv.sessions hturn, ?_⟩
  intro i event hmem
  rcases List.mem_append.mp hmem with hold | hnew
  · exact hinv.untold i event hold
  · exact hinv.slot.untold hinv.sessions hturn hnew

theorem app_run_slot
    (hrun : run (appStep crates) (App.start (loadProfileStore storage defaultPath pathExists) audio) inputs =
      some (app, effects)) : SlotSoFar crates app inputs effects := by
  exact run_history (R := SlotSoFar crates) (fun _ _ _ _ _ _ hinv hstep => hinv.step hstep)
    ⟨app_run_sessions rfl, .start _ _ _ _, by simp⟩ hrun

/-- **One worker at a time.** In any run of the application, whatever is connected, disconnected, saved, received and
however the threads interleave: a worker that is not gone belongs to the session in the slot, or the slot is empty and
the thread of the window is closing that session. So no two workers run at once, and behind a disconnect and at the
end of the application none does. -/
theorem one_worker_at_a_time
    (hrun : run (appStep crates) (App.start (loadProfileStore storage defaultPath pathExists) audio) inputs =
      some (app, effects)) :
    (∀ (i : Nat) (link : Link), app.links[i]? = some link → ¬ link.session.workerGone →
      app.session = some i ∨ app.session = none ∧ app.Closes i) ∧
    (∀ (i j : Nat) (link link' : Link), app.links[i]? = some link → app.links[j]? = some link' →
      ¬ link.session.workerGone → ¬ link'.session.workerGone → i = j) ∧
    (app.session = none ∧ app.pc = .idle ∨ app.pc = .ended →
      ∀ (i : Nat) (link : Link), app.links[i]? = some link → link.session.workerGone) := by
  have hinv := app_run_slot hrun
  have hplace : ∀ (i : Nat) (link : Link), app.links[i]? = some link → ¬ link.session.workerGone →
      app.session = some i ∨ app.session = none ∧ app.Closes i := by
    intro i link hlink hlive
    obtain ⟨localAddr, random, labels, hsession, -⟩ := hinv.sessions.runs i link hlink
    by_contra hneither
    obtain ⟨hslot, hclosing⟩ := not_or.mp hneither
    refine hlive (run_released hsession (hinv.slot.others i link hlink hslot ?_))
    rintro ⟨reason, hpc⟩
    exact hclosing ⟨(hinv.slot.closing hpc).1, reason, hpc⟩
  refine ⟨hplace, ?_, ?_⟩
  · intro i j link link' hi hj hlive hlive'
    rcases hplace i link hi hlive with hslot | ⟨hslot, reason, hpc⟩
    · rcases hplace j link' hj hlive' with hslot' | ⟨hslot', -⟩
      · exact Option.some.inj (hslot.symm.trans hslot')
      · rw [hslot] at hslot'
        cases hslot'
    · rcases hplace j link' hj hlive' with hslot' | ⟨-, reason', hpc'⟩
      · rw [hslot] at hslot'
        cases hslot'
      · rw [hpc] at hpc'
        exact (UiPc.closing.inj hpc').1
  · intro hrest i link hlink
    by_contra hlive
    rcases hplace i link hlink hlive with hslot | ⟨-, reason, hpc⟩
    · rcases hrest with ⟨hnone, -⟩ | hended
      · rw [hslot] at hnone
        cases hnone
      · -- the slot of an application that has ended is empty
        rw [(hinv.slot.away hended rfl).1] at hslot
        cases hslot
    · rcases hrest with ⟨-, hidle⟩ | hended
      · rw [hpc] at hidle
        cases hidle
      · rw [hpc] at hended
        cases hended

/-- A store that loads from any file. -/
def pcmStorage : StorageCrates := ⟨fun _ => .ok [], fun _ => .ok pcmStore⟩

/-- Connect, disconnect, and connect again. -/
def reconnectInputs : List Input :=
  [connects, .callback .disconnectRelay, .resume, .resume] ++ List.replicate 5 (workerTick 0) ++
    [.resume, .resume, .resume, connects]

theorem reconnect_run : ∃ app effects,
    run (appStep tagCrates) (App.start (loadProfileStore pcmStorage (.ok []) fun _ => true) true) reconnectInputs =
      some (app, effects) ∧ app.links.length = 2 ∧ app.session = some 1 := by
  have hview : (run (appStep tagCrates) (App.start (loadProfileStore pcmStorage (.ok []) fun _ => true) true)
      reconnectInputs).map (fun r => (r.1.links.length, r.1.session)) = some (2, some 1) := by
    decide +kernel
  obtain ⟨⟨app, effects⟩, hrun, hsees⟩ := Option.map_eq_some_iff.mp hview
  obtain ⟨hlength, hslot⟩ : app.links.length = 2 ∧ app.session = some 1 := Prod.mk.inj hsees
  exact ⟨app, effects, hrun, hlength, hslot⟩

/-- Of two sessions, one behind the other, the first has no worker. -/
theorem one_worker_at_a_time_reconnect : ∃ app effects link,
    run (appStep tagCrates) (App.start (loadProfileStore pcmStorage (.ok []) fun _ => true) true) reconnectInputs =
      some (app, effects) ∧ app.session = some 1 ∧ app.links[0]? = some link ∧ link.session.workerGone := by
  obtain ⟨app, effects, hrun, hlength, hslot⟩ := reconnect_run
  have hlink : app.links[0]? = some (app.links.get ⟨0, by omega⟩) := List.getElem?_eq_getElem _
  refine ⟨app, effects, _, hrun, hslot, hlink, ?_⟩
  by_contra hlive
  rcases (one_worker_at_a_time hrun).1 0 _ hlink hlive with hzero | ⟨hnone, -⟩
  · rw [hslot] at hzero
    cases hzero
  · rw [hslot] at hnone
    cases hnone

/-- **`Stopped` is never told.** A worker offers it behind a disconnect only, and a session that is being closed is
no longer asked. So the timer's branch for it is never taken: a session ends by a disconnect or with the
application, and in no other way. -/
theorem stopped_never_told
    (hrun : run (appStep crates) (App.start (loadProfileStore storage defaultPath pathExists) audio) inputs =
      some (app, effects)) :
    (∀ i, .stopped ∉ (relayed i effects).filterMap Effect.next?) ∧ app.pc ≠ .polling true ∧
      (∀ i, app.pc ≠ .closing i .stopped) := by
  have hinv := app_run_slot hrun
  refine ⟨?_, ?_, ?_⟩
  · exact fun i hmem => hinv.untold i .stopped (mem_of_told hmem) rfl
  · intro hpc
    simpa using (hinv.slot.away hpc rfl).2
  · intro i hpc
    exact (hinv.slot.closing hpc).2.1 rfl

/-- The worker of the first session has returned, and the application was not told. -/
theorem stopped_never_told_reconnect : ∃ app effects,
    run (appStep tagCrates) (App.start (loadProfileStore pcmStorage (.ok []) fun _ => true) true) reconnectInputs =
      some (app, effects) ∧ .stopped ∉ (relayed 0 effects).filterMap Effect.next? := by
  obtain ⟨app, effects, hrun, -, -⟩ := reconnect_run
  exact ⟨app, effects, hrun, (stopped_never_told hrun).1 0⟩

/-- **No thread panics**: neither the one of the window, whatever is loaded, edited and saved, nor a worker. -/
theorem no_thread_panics (haead : AeadLaws crates)
    (hrun : run (appStep crates) (App.start (loadProfileStore storage defaultPath pathExists) audio) inputs =
      some (app, effects)) :
    app.pc ≠ .panicked ∧ (∃ profile, app.store.active = .ok profile) ∧
      ∀ (i : Nat) (link : Link), app.links[i]? = some link → link.session.worker ≠ .panicked := by
  have hinv := app_run_slot hrun
  refine ⟨?_, inRange_iff.mp hinv.slot.inRange, ?_⟩
  · intro hpc
    simpa using (hinv.slot.away hpc rfl).2
  · intro i link hlink
    obtain ⟨localAddr, random, labels, hsession, -⟩ := hinv.sessions.runs i link hlink
    exact run_not_panicked haead hsession

theorem no_thread_panics_reconnect : ∃ app effects,
    run (appStep tagCrates) (App.start (loadProfileStore pcmStorage (.ok []) fun _ => true) true) reconnectInputs =
      some (app, effects) ∧ app.pc ≠ .panicked := by
  obtain ⟨app, effects, hrun, -, -⟩ := reconnect_run
  exact ⟨app, effects, hrun, (no_thread_panics tagCrates_aead hrun).1⟩

end Runs

end IncomUdon.Desktop
