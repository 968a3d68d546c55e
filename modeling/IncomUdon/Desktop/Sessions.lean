/-
# IncomUdon.Desktop.Sessions — every session of the application is a session of the transport.

The application opens sessions, drives them and drops them, in any interleaving with their workers. Seen from one
session, a run of the application is a run of that session (`app_run_session`), so what `IncomUdon.Transport` shows
of a session holds of each of them. What is played comes from the event channel of a session and was therefore
received by its worker: without plain audio on the network, it was authentic (`playback_authentic`).
-/
import IncomUdon.Desktop.Steps
import IncomUdon.Transport.Voice

namespace IncomUdon.Desktop

open IncomUdon.Lib
open IncomUdon.Protocol
open IncomUdon.Crypto
open IncomUdon.Transport

/-- The datagram that session `i` reads. -/
def readsAt (i : Nat) (app : App) : Input → Option Bytes
  | .worker j env => if j = i then (app.links[i]?).bind fun link => reads? link.session (.worker env) else none
  | _ => none

/-- Session `i` got to where it is by a run of its own, with these effects, in which its worker stepped on the inputs
of the application only. -/
def SessionRun (crates : CryptoCrates) (i : Nat) (link : Link) (inputs : List Input) (effects : List Effect) : Prop :=
  ∃ localAddr random labels,
    run (step crates link.config) (Session.start crates link.config localAddr random) labels =
      some (link.session, effects) ∧
    ∀ env, Label.worker env ∈ labels → Input.worker i env ∈ inputs

/-- So far every session is a run of its own, a session that was not opened has no effects, and what was played had
been offered by the worker of a session. -/
structure SessionsSoFar (crates : CryptoCrates) (app : App) (inputs : List Input) (effects : List AppEffect) :
    Prop where
  runs : ∀ i link, app.links[i]? = some link → SessionRun crates i link inputs (relayed i effects)
  unopened : ∀ i, app.links.length ≤ i → relayed i effects = []
  heard : ∀ frame ok, .playback frame ok ∈ effects → ∃ i senderId, i < app.links.length ∧
    Effect.event (.pcmReceived senderId frame) ∈ relayed i effects

section Steps

variable {crates : CryptoCrates} {app app' : App} {inputs : List Input} {input : Input}
  {seen effects : List AppEffect}

theorem SessionRun.mono {i : Nat} {link : Link} {es : List Effect} (h : SessionRun crates i link inputs es)
    (input : Input) : SessionRun crates i link (inputs ++ [input]) es := by
  obtain ⟨localAddr, random, labels, hrun, hinputs⟩ := h
  exact ⟨localAddr, random, labels, hrun, fun env henv => List.mem_append_left _ (hinputs env henv)⟩

/-- A step of the session itself. -/
theorem SessionRun.step {i : Nat} {link : Link} {label : Label} {session : Session} {es es' : List Effect}
    (h : SessionRun crates i link inputs es) (hinput : ∀ env, label = .worker env → input = .worker i env)
    (hstep : step crates link.config link.session label = some (session, es')) :
    SessionRun crates i { link with session } (inputs ++ [input]) (es ++ es') := by
  obtain ⟨localAddr, random, labels, hrun, hinputs⟩ := h
  refine ⟨localAddr, random, labels ++ [label], run_concat hrun hstep, ?_⟩
  intro env henv
  rcases List.mem_append.mp henv with hold | hnew
  · exact List.mem_append_left _ (hinputs env hold)
  · rw [hinput env (List.mem_singleton.mp hnew).symm]
    exact List.mem_append_right _ (List.mem_singleton_self _)

/-- Moving sessions keeps each of them a run. -/
theorem SessionsSoFar.runs_of_moves (h : SessionsSoFar crates app inputs seen)
    (hmoves : Moves crates input app.links app'.links effects) :
    ∀ i link, app'.links[i]? = some link →
      SessionRun crates i link (inputs ++ [input]) (relayed i (seen ++ effects)) := by
  intro j link' hlink'
  rw [relayed_append]
  rcases hmoves.session hlink' with ⟨hsame, hnone⟩ | ⟨link, label, session, hinput, hlink, hstep, rfl⟩
  · rw [hnone, List.append_nil]
    exact (h.runs j link' hsame).mono input
  · exact (h.runs j link hlink).step hinput hstep

theorem Moves.length (h : Moves crates input app.links app'.links effects) : app'.links.length = app.links.length := by
  cases h with
  | still hlinks => rw [hlinks]
  | steps _ _ _ hlinks => rw [hlinks, List.length_set]

/-- A session that was not opened does not move. -/
theorem Moves.unopened (h : Moves crates input app.links app'.links effects) {j : Nat} (hj : app.links.length ≤ j) :
    relayed j effects = [] := by
  cases h with
  | still _ hrelayed => exact hrelayed j
  | @steps i _ _ _ _ _ hlink _ _ hrelayed =>
    have hi : i < app.links.length := (List.getElem?_eq_some_iff.mp hlink).1
    rw [hrelayed, if_neg (Nat.ne_of_lt (Nat.lt_of_lt_of_le hi hj))]

/-- What was heard stays heard. -/
theorem SessionsSoFar.heard_append (h : SessionsSoFar crates app inputs seen)
    (hlength : app.links.length ≤ app'.links.length) {frame : Bytes} {ok : Bool} (hmem : .playback frame ok ∈ seen) :
    ∃ i senderId, i < app'.links.length ∧
      Effect.event (.pcmReceived senderId frame) ∈ relayed i (seen ++ effects) := by
  obtain ⟨i, senderId, hi, hevent⟩ := h.heard frame ok hmem
  refine ⟨i, senderId, Nat.lt_of_lt_of_le hi hlength, ?_⟩
  rw [relayed_append]
  exact List.mem_append_left _ hevent

/-- A step that moves sessions and plays what was waiting. -/
theorem SessionsSoFar.moves (h : SessionsSoFar crates app inputs seen)
    (hmoves : Moves crates input app.links app'.links effects) (hheard : app.Heard effects) :
    SessionsSoFar crates app' (inputs ++ [input]) (seen ++ effects) := by
  refine ⟨h.runs_of_moves hmoves, ?_, ?_⟩
  · intro i hi
    rw [hmoves.length] at hi
    rw [relayed_append, h.unopened i hi, hmoves.unopened hi, List.append_nil]
  · intro frame ok hmem
    rcases List.mem_append.mp hmem with hold | hnew
    · exact h.heard_append (Nat.le_of_eq hmoves.length.symm) hold
    · -- what waited in the channel of a session had been offered in its run
      obtain ⟨i, link, senderId, hlink, hqueued⟩ := hheard frame ok hnew
      obtain ⟨localAddr, random, labels, hrun, -⟩ := h.runs i link hlink
      refine ⟨i, senderId, ?_, ?_⟩
      · rw [hmoves.length]
        exact (List.getElem?_eq_some_iff.mp hlink).1
      · rw [relayed_append]
        exact List.mem_append_left _ (run_queued hrun _ hqueued)

/-- A step that opens a session, which starts its run. -/
theorem SessionsSoFar.opens (h : SessionsSoFar crates app inputs seen) {link : Link}
    (hfresh : ∃ localAddr random, link.session = Session.start crates link.config localAddr random)
    (hlinks : app'.links = app.links ++ [link]) : SessionsSoFar crates app' (inputs ++ [input]) seen := by
  have hlength : app'.links.length = app.links.length + 1 := by
    rw [hlinks, List.length_append, List.length_singleton]
  refine ⟨?_, ?_, ?_⟩
  · intro i link' hlink'
    rw [hlinks] at hlink'
    rcases Nat.lt_or_ge i app.links.length with hold | hnew
    · rw [List.getElem?_append_left hold] at hlink'
      exact (h.runs i link' hlink').mono input
    · obtain rfl : i = app.links.length := by
        have hi := (List.getElem?_eq_some_iff.mp hlink').1
        rw [List.length_append, List.length_singleton] at hi
        omega
      rw [List.getElem?_concat_length, Option.some.injEq] at hlink'
      subst hlink'
      obtain ⟨localAddr, random, hsession⟩ := hfresh
      refine ⟨localAddr, random, [], ?_, fun env henv => (nomatch henv)⟩
      rw [h.unopened _ (Nat.le_refl _), hsession]
      rfl
  · intro i hi
    exact h.unopened i (by omega)
  · intro frame ok hmem
    obtain ⟨i, senderId, hi, hevent⟩ := h.heard frame ok hmem
    exact ⟨i, senderId, by omega, hevent⟩

/-- **One step of the application** keeps every session a run of the transport. -/
theorem SessionsSoFar.step (h : SessionsSoFar crates app inputs seen)
    (hstep : appStep crates app input = some (app', effects)) :
    SessionsSoFar crates app' (inputs ++ [input]) (seen ++ effects) := by
  cases appStep_does hstep with
  | keeps hmoves hheard => exact h.moves hmoves hheard
  | opens _ _ hlink hlinks _ hnone =>
    rw [hnone, List.append_nil]
    exact h.opens (App.openLink_spec hlink).1 hlinks
  | submits hmoves heffects =>
    apply h.moves hmoves
    intro frame ok hmem
    rw [heffects] at hmem
    cases List.mem_singleton.mp hmem

end Steps

theorem app_run_sessions {crates : CryptoCrates} {loaded : Core.ProfileStore × String} {audio : Bool}
    {inputs : List Input} {app : App} {effects : List AppEffect}
    (hrun : run (appStep crates) (App.start loaded audio) inputs = some (app, effects)) :
    SessionsSoFar crates app inputs effects := by
  refine run_history (R := SessionsSoFar crates) (fun _ _ _ _ _ _ h hstep => h.step hstep) ⟨?_, ?_, ?_⟩ hrun
  · intro i link hlink
    rw [(App.start_sessions loaded audio).1] at hlink
    cases hlink
  · exact fun _ _ => rfl
  · exact fun _ _ hmem => (nomatch hmem)

/-- **Every session of a run of the application is a run of the transport.** -/
theorem app_run_session {crates : CryptoCrates} {loaded : Core.ProfileStore × String} {audio : Bool}
    {inputs : List Input} {app : App} {effects : List AppEffect}
    (hrun : run (appStep crates) (App.start loaded audio) inputs = some (app, effects)) {i : Nat} {link : Link}
    (hlink : app.links[i]? = some link) : SessionRun crates i link inputs (relayed i effects) :=
  (app_run_sessions hrun).runs i link hlink

/-- **What is played was authentic**, in a run of the application in which no worker reads plain audio: some session
received it in a datagram that its media key opens, with the sender in the associated data. -/
theorem playback_authentic {crates : CryptoCrates} {loaded : Core.ProfileStore × String} {audio : Bool}
    {inputs : List Input} {app : App} {effects : List AppEffect}
    (hrun : run (appStep crates) (App.start loaded audio) inputs = some (app, effects))
    (hsealed : ∀ i env datagram, Input.worker i env ∈ inputs → env.received = .ok datagram →
      ¬ PlainAudio (datagram.take receiveBufferLen))
    {frame : Bytes} {ok : Bool} (hplayed : .playback frame ok ∈ effects) :
    ∃ i link key senderId env datagram, app.links[i]? = some link ∧ mediaKey crates link.config = some key ∧
      Input.worker i env ∈ inputs ∧ env.received = .ok datagram ∧
      Authentic crates key (datagram.take receiveBufferLen) senderId frame := by
  have hsessions := app_run_sessions hrun
  obtain ⟨i, senderId, hi, hevent⟩ := hsessions.heard frame ok hplayed
  have hlink : app.links[i]? = some app.links[i] := List.getElem?_eq_getElem hi
  obtain ⟨localAddr, random, labels, hsession, hinputs⟩ := hsessions.runs i _ hlink
  have halong : Along (step crates app.links[i].config) HearsNoPlainAudio
      (Session.start crates app.links[i].config localAddr random) labels := by
    apply along_of_forall
    intro label hlabel s env datagram heq _ hrecv
    exact hsealed i env datagram (hinputs env (heq ▸ hlabel)) hrecv
  obtain ⟨-, hdelivered⟩ := run_deliveredAuthentic hsession halong
  obtain ⟨key, env, datagram, hkey, hlabel, hrecv, hauth⟩ := hdelivered senderId frame hevent
  exact ⟨i, _, key, senderId, env, datagram, hlink, hkey, hinputs env hlabel, hrecv, hauth⟩

end IncomUdon.Desktop
