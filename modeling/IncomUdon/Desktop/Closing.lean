/-
# IncomUdon.Desktop.Closing — closing a session comes to an end.

The thread of the window runs `disconnect` and the drop of a session itself, and waits in `join` for the worker. So
whether the window comes back depends on another thread and on what the network answers to it. §1 is one step of the
thread and the steps of the worker as the application sees them, §2 puts them behind each other: wherever the thread
stands, a bounded number of steps of both finishes the closing.
-/
import IncomUdon.Desktop.Slot

namespace IncomUdon.Desktop

open IncomUdon.Lib
open IncomUdon.Core
open IncomUdon.Protocol
open IncomUdon.Crypto
open IncomUdon.Transport

/-! ## §1 — steps -/

section Closing

variable {crates : CryptoCrates} {app : App} {i : Nat} {reason : Closing} {link : Link} {session : Session}
  {es : List Effect}

/-- The call behind which the thread is while it closes a session. -/
def closeAction (s : Session) : Option ClientAction :=
  match s.client with
  | .idle => some (if s.running then .disconnect else .release)
  | .posting => some .postDisconnect
  | .joining => some .joinWorker
  | .gone => none

/-- The application with session `i` elsewhere. -/
def App.setSession (app : App) (i : Nat) (link : Link) (session : Session) : App :=
  { app with links := app.links.set i { link with session } }

theorem App.setSession_link (hlink : app.links[i]? = some link) (session : Session) :
    (app.setSession i link session).links[i]? = some { link with session } :=
  List.getElem?_set_self (List.getElem?_eq_some_iff.mp hlink).1

theorem App.setSession_self (hlink : app.links[i]? = some link) : app.setSession i link link.session = app := by
  obtain ⟨hlt, rfl⟩ := List.getElem?_eq_some_iff.mp hlink
  show { app with links := app.links.set i (app.links.get ⟨i, hlt⟩) } = app
  rw [List.get_eq_getElem, List.set_getElem_self]

theorem App.setSession_setSession (app : App) (i : Nat) (link : Link) (session session' : Session) :
    (app.setSession i link session).setSession i { link with session } session' =
      app.setSession i link session' := by
  simp [App.setSession]

variable (crates) in
/-- **One step of the thread in a closing** is the call behind which it stands. -/
theorem resume_closing (hpc : app.pc = .closing i reason) (hlink : app.links[i]? = some link)
    {action : ClientAction} (haction : closeAction link.session = some action)
    (hstep : clientStep link.session action = some (session, es)) :
    appStep crates app .resume = some (app.setSession i link session, es.map (.relay i)) := by
  have hdrive : app.drive crates i (.client action) = some (app.setSession i link session, es.map (.relay i)) := by
    simp only [App.drive, hlink, step, hstep]
    rfl
  have hclose : app.close crates i reason = app.drive crates i (.client action) := by
    rw [closeAction] at haction
    simp only [App.close, hlink]
    cases hclient : link.session.client with
    | idle | posting | joining =>
      rw [hclient] at haction
      rw [← Option.some.inj haction]
    | gone =>
      rw [hclient] at haction
      cases haction
  simp only [appStep, App.resume, hpc]
  exact hclose.trans hdrive

variable (crates) in
/-- The steps of one worker, seen from the application. -/
theorem run_workers (i : Nat) (envs : List Env) :
    ∀ (app : App) (link : Link) (session : Session) (es : List Effect), app.links[i]? = some link →
      run (step crates link.config) link.session (envs.map Label.worker) = some (session, es) →
      run (appStep crates) app (envs.map (Input.worker i)) =
        some (app.setSession i link session, es.map (.relay i)) := by
  induction envs with
  | nil =>
    intro app link session es hlink hrun
    obtain ⟨rfl, rfl⟩ := Prod.mk.inj (Option.some.inj hrun)
    rw [App.setSession_self hlink]
    rfl
  | cons env envs ih =>
    intro app link session es hlink hrun
    obtain ⟨s₁, es₁, es₂, hstep, hrest, rfl⟩ := run_cons_eq_some.mp hrun
    have hfirst : appStep crates app (.worker i env) = some (app.setSession i link s₁, es₁.map (.relay i)) := by
      simp only [appStep, App.drive, hlink, hstep]
      rfl
    have hlater := ih (app.setSession i link s₁) { link with session := s₁ } session es₂
      (App.setSession_link hlink s₁) hrest
    rw [App.setSession_setSession] at hlater
    rw [List.map_cons, run_cons_eq_some]
    refine ⟨_, _, _, hfirst, hlater, ?_⟩
    rw [List.map_append]

/-- `a` steps of the thread, some of the worker, and `b` steps of the thread finish the closing. -/
def Finishes (crates : CryptoCrates) (i : Nat) (envs : List Env) (app : App) (a b : Nat) : Prop :=
  ∃ k app' effects, k ≤ maxPatience ∧
    run (appStep crates) app
      (List.replicate a .resume ++ (envs.take k).map (.worker i) ++ List.replicate b .resume) = some (app', effects) ∧
    app'.session = app.session ∧ (app'.pc = .idle ∨ app'.pc = .ended)

theorem Finishes.cons {envs : List Env} {app' : App} {effects : List AppEffect} {a b : Nat}
    (hstep : appStep crates app .resume = some (app', effects)) (hsession : app'.session = app.session)
    (h : Finishes crates i envs app' a b) : Finishes crates i envs app (a + 1) b := by
  obtain ⟨k, app'', effects', hk, hrun, hslot, hpc⟩ := h
  refine ⟨k, app'', effects ++ effects', hk, ?_, hslot.trans hsession, hpc⟩
  rw [List.replicate_succ, List.cons_append, List.cons_append]
  exact run_cons_eq_some.mpr ⟨_, _, _, hstep, hrun, rfl⟩

variable (crates) in
/-- The session was dropped: the thread is back. -/
theorem resume_gone (hpc : app.pc = .closing i reason) (hlink : app.links[i]? = some link)
    (hgone : link.session.client = .gone) :
    ∃ app', appStep crates app .resume = some (app', []) ∧ app'.session = app.session ∧
      (app'.pc = .idle ∨ app'.pc = .ended) := by
  refine ⟨app.closed reason, ?_, (app.closed_fields reason).2.1, ?_⟩
  · simp only [appStep, App.resume, hpc, App.close, hlink, hgone]
  · cases reason with
    | disconnect | stopped => exact Or.inl rfl
    | exit => exact Or.inr rfl

/-- Behind `disconnect`, two more steps drop the session. -/
theorem resume_stopped (hpc : app.pc = .closing i reason) (hlink : app.links[i]? = some link)
    (hidle : link.session.client = .idle) (hstopped : link.session.running = false) :
    ∃ app' effects, run (appStep crates) app [.resume, .resume] = some (app', effects) ∧
      app'.session = app.session ∧ (app'.pc = .idle ∨ app'.pc = .ended) := by
  have hfirst : appStep crates app .resume =
      some (app.setSession i link { link.session with client := .gone }, [].map (.relay i)) := by
    refine @resume_closing crates app i reason link _ _ hpc hlink .release ?_ ?_
    · simp [closeAction, hidle, hstopped]
    · simp [clientStep, hidle, hstopped]
  obtain ⟨app', hsecond, hslot, hpc'⟩ := @resume_gone crates (app.setSession i link _) i reason _ hpc
    (App.setSession_link hlink { link.session with client := .gone }) rfl
  exact ⟨app', _, run_cons_eq_some.mpr ⟨_, _, _, hfirst, run_cons_eq_some.mpr ⟨_, _, _, hsecond, rfl, rfl⟩, rfl⟩,
    hslot, hpc'⟩

end Closing

/-! ## §2 — the whole way -/

section Finishing

variable {crates : CryptoCrates} {storage : StorageCrates} {defaultPath : Except ProfileStorageError Path}
  {pathExists : Path → Bool} {audio : Bool} {inputs : List Input} {app : App} {effects : List AppEffect}

/-- From the `join` of `disconnect` on: the worker returns, and then the thread. -/
theorem joining_finishes (haead : AeadLaws crates)
    (hrun : run (appStep crates) (App.start (loadProfileStore storage defaultPath pathExists) audio) inputs =
      some (app, effects))
    {i : Nat} {reason : Closing} (hpc : app.pc = .closing i reason) {link : Link} (hlink : app.links[i]? = some link)
    (hjoining : link.session.client = .joining) (envs : List Env) (hlong : envs.length = maxPatience) :
    Finishes crates i envs app 0 3 := by
  obtain ⟨localAddr, random, labels, hsession, -⟩ := app_run_session hrun hlink
  obtain ⟨k, t, es, hk, hworker, hreturned, hstopped, htjoining⟩ :=
    joining_worker_returns haead hsession hjoining envs hlong
  -- the worker's steps, the way out of `join`, and the drop
  have hworkers := run_workers crates i (envs.take k) app link t es hlink hworker
  have hjoin : appStep crates (app.setSession i link t) .resume =
      some (app.setSession i link { t with client := .idle }, [Effect.disconnected].map (.relay i)) := by
    have hstep := @resume_closing crates (app.setSession i link t) i reason _ { t with client := .idle } _ hpc
      (App.setSession_link hlink t) .joinWorker (by simp [closeAction, htjoining])
      (clientStep_joinWorker htjoining (Or.inl hreturned))
    rwa [App.setSession_setSession] at hstep
  obtain ⟨app', es', hdrop, hslot, hpc'⟩ := @resume_stopped crates (app.setSession i link { t with client := .idle }) i
    reason _ hpc (App.setSession_link hlink _) rfl hstopped
  have hall : run (appStep crates) app ((envs.take k).map (.worker i) ++ [.resume, .resume, .resume]) =
      some (app', _) :=
    run_append hworkers (run_cons_eq_some.mpr ⟨_, _, _, hjoin, hdrop, rfl⟩)
  exact ⟨k, app', _, hk, hall, hslot, hpc'⟩

/-- The thread steps where it is closing a session. -/
theorem resume_call {i : Nat} {reason : Closing} (hpc : app.pc = .closing i reason) {link : Link}
    (hlink : app.links[i]? = some link) {action : ClientAction} (haction : closeAction link.session = some action)
    {session : Session} {es : List Effect} (hstep : clientStep link.session action = some (session, es))
    (hrun : run (appStep crates) (App.start (loadProfileStore storage defaultPath pathExists) audio) inputs =
      some (app, effects)) :
    ∃ link', appStep crates app .resume = some (app.setSession i link session, es.map (.relay i)) ∧
      run (appStep crates) (App.start (loadProfileStore storage defaultPath pathExists) audio) (inputs ++ [.resume]) =
        some (app.setSession i link session, effects ++ es.map (.relay i)) ∧
      (app.setSession i link session).links[i]? = some link' ∧ link'.session = session := by
  have hresume := resume_closing crates hpc hlink haction hstep
  exact ⟨_, hresume, run_concat hrun hresume, App.setSession_link hlink session, rfl⟩

/-- **Closing a session comes to an end.** Wherever a run of the application has got to in closing a session: at most
two steps of the thread get it to the `join` or past it, within 69 steps of its own the worker returns, whatever the
network answers, and three more steps of the thread finish. Then the slot is empty, and the thread is back or has
ended. -/
theorem closing_finishes (haead : AeadLaws crates)
    (hrun : run (appStep crates) (App.start (loadProfileStore storage defaultPath pathExists) audio) inputs =
      some (app, effects))
    {i : Nat} {reason : Closing} (hpc : app.pc = .closing i reason) (envs : List Env)
    (hlong : envs.length = maxPatience) :
    ∃ a k b app' effects', a ≤ 2 ∧ k ≤ maxPatience ∧ b ≤ 3 ∧
      run (appStep crates) app
        (List.replicate a .resume ++ (envs.take k).map (.worker i) ++ List.replicate b .resume) =
          some (app', effects') ∧
      app'.session = none ∧ (app'.pc = .idle ∨ app'.pc = .ended) := by
  have hinv := app_run_slot hrun
  obtain ⟨hslot, -, hlt⟩ := hinv.slot.closing hpc
  suffices h : ∃ a b, a ≤ 2 ∧ b ≤ 3 ∧ Finishes crates i envs app a b by
    obtain ⟨a, b, ha, hb, k, app', es, hk, hfinish, hsession, hpc'⟩ := h
    exact ⟨a, k, b, app', es, ha, hk, hb, hfinish, hsession.trans hslot, hpc'⟩
  have hlink : app.links[i]? = some (app.links.get ⟨i, hlt⟩) := List.getElem?_eq_getElem hlt
  generalize app.links.get ⟨i, hlt⟩ = link at hlink
  -- behind the `swap` there is one step to the `join`
  have hposting : ∀ {app : App} {inputs : List Input} {effects : List AppEffect} {link : Link},
      run (appStep crates) (App.start (loadProfileStore storage defaultPath pathExists) audio) inputs =
        some (app, effects) → app.pc = .closing i reason → app.links[i]? = some link →
      link.session.client = .posting → Finishes crates i envs app 1 3 := by
    intro app inputs effects link hrun hpc hlink hclient
    have haction : closeAction link.session = some .postDisconnect := by simp [closeAction, hclient]
    have hstep : clientStep link.session .postDisconnect = some
        ({ (link.session.submit .disconnect).1 with client := .joining }, (link.session.submit .disconnect).2) := by
      simp only [clientStep, hclient]
    obtain ⟨link', hresume, hrun', hlink', hsession⟩ := resume_call hpc hlink haction hstep hrun
    exact Finishes.cons hresume rfl
      (joining_finishes haead hrun' hpc hlink' (by rw [hsession]) envs hlong)
  cases hclient : link.session.client with
  | idle =>
    cases hrunning : link.session.running with
    | true =>
      have haction : closeAction link.session = some .disconnect := by simp [closeAction, hclient, hrunning]
      have hstep : clientStep link.session .disconnect =
          some ({ link.session with running := false, client := .posting }, []) := by
        simp only [clientStep, hclient, hrunning, if_true]
      obtain ⟨link', hresume, hrun', hlink', hsession⟩ := resume_call hpc hlink haction hstep hrun
      exact ⟨2, 3, le_refl _, le_refl _, Finishes.cons hresume rfl
        (hposting hrun' hpc hlink' (by rw [hsession]))⟩
    | false =>
      obtain ⟨app', es, hdrop, hsession, hpc'⟩ := resume_stopped hpc hlink hclient hrunning
      exact ⟨0, 2, by omega, by omega, 0, app', es, Nat.zero_le _, hdrop, hsession, hpc'⟩
  | posting => exact ⟨1, 3, by omega, by omega, hposting hrun hpc hlink hclient⟩
  | joining => exact ⟨0, 3, by omega, by omega, joining_finishes haead hrun hpc hlink hclient envs hlong⟩
  | gone =>
    obtain ⟨app', hresume, hsession, hpc'⟩ := resume_gone crates hpc hlink hclient
    exact ⟨0, 1, by omega, by omega, 0, app', _, Nat.zero_le _,
      run_cons_eq_some.mpr ⟨_, _, _, hresume, rfl, rfl⟩, hsession, hpc'⟩

/-- The user closes the window while a session is open, and the network is silent. -/
theorem closing_finishes_quit : ∃ app effects a k b app' effects',
    run (appStep tagCrates) (App.start (loadProfileStore pcmStorage (.ok []) fun _ => true) true)
      [connects, .callback .quit] = some (app, effects) ∧ a ≤ 2 ∧ k ≤ maxPatience ∧ b ≤ 3 ∧
    run (appStep tagCrates) app (List.replicate a .resume ++
      ((List.replicate maxPatience ⟨.ok (), 0, .error ⟨.timedOut, "timed out"⟩⟩).take k).map (.worker 0) ++
        List.replicate b .resume) = some (app', effects') ∧
    (app'.pc = .idle ∨ app'.pc = .ended) := by
  have hview : (run (appStep tagCrates) (App.start (loadProfileStore pcmStorage (.ok []) fun _ => true) true)
      [connects, .callback .quit]).map (fun r => r.1.pc) = some (.closing 0 .exit) := by decide +kernel
  obtain ⟨⟨app, effects⟩, hrun, hpc⟩ := Option.map_eq_some_iff.mp hview
  obtain ⟨a, k, b, app', effects', ha, hk, hb, hrun', -, hpc'⟩ := closing_finishes tagCrates_aead hrun hpc
    (List.replicate maxPatience ⟨.ok (), 0, .error ⟨.timedOut, "timed out"⟩⟩) List.length_replicate
  exact ⟨app, effects, a, k, b, app', effects', hrun, ha, hk, hb, hrun', hpc'⟩

end Finishing

end IncomUdon.Desktop
