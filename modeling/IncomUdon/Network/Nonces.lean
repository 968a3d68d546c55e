/-
# IncomUdon.Network.Nonces — when a nonce is used twice under one key.

AES-GCM must not be given one pair of key and nonce twice, and here a key belongs to a channel: all stations on it,
and all sessions that a station opens on it one after the other, seal under the same one. What keeps their nonces
apart is the value that `random()` gives each session to count from. §1 is the list of these values, §2 what one
session uses of the circle of `2^64` counters, and §3 the condition on the values under which no pair comes twice,
whatever the interleaving.
-/
import IncomUdon.Network.Overhearing
import IncomUdon.Transport.Nonce

namespace IncomUdon.Network

open IncomUdon.Lib
open IncomUdon.Protocol
open IncomUdon.Crypto
open IncomUdon.Transport
open IncomUdon.Desktop

/-! ## §1 — the draws -/

/-- The value that `random()` gives to the session that a step opens. -/
def draws? (crates : CryptoCrates) (app : App) : Input → Option UInt64
  | .callback (.connectRelay resolved opening) =>
    match app.session, app.openLink crates resolved opening with
    | none, .ok _ => some opening.random
    | _, _ => none
  | _ => none

/-- The values drawn in a run, session by session. -/
def drawn (crates : CryptoCrates) (app : App) (inputs : List Input) : List UInt64 :=
  observed (appStep crates) (draws? crates) app inputs

section Draws

variable {crates : CryptoCrates} {app app' : App} {input : Input} {seen effects : List AppEffect}

/-- A session starts to count at the value it drew. -/
theorem openLink_nonce {resolved : Except IoError (List SocketAddr)} {opening : Opening} {link : Link}
    (h : app.openLink crates resolved opening = .ok link) : link.session.media.nonce = opening.random := by
  obtain ⟨relay, -, h⟩ := (Outcome.bind_eq_ok _ _).mp h
  obtain ⟨relayAddr, -, h⟩ := (Outcome.bind_eq_ok _ _).mp h
  obtain ⟨profile, -, h⟩ := (Outcome.bind_eq_ok _ _).mp h
  obtain ⟨session, hconnect, h⟩ := (Outcome.bind_eq_ok _ _).mp h
  obtain rfl := Outcome.ok.inj h
  have hsession := mapError_eq_ok.mp (Outcome.ofExcept_eq_ok.mp hconnect)
  obtain ⟨_, -, hsession⟩ := except_bind_eq_ok.mp hsession
  obtain ⟨_, -, hsession⟩ := except_bind_eq_ok.mp hsession
  obtain ⟨_, -, hsession⟩ := except_bind_eq_ok.mp hsession
  obtain ⟨localAddr, -, hsession⟩ := except_bind_eq_ok.mp hsession
  obtain ⟨_, -, hsession⟩ := except_bind_eq_ok.mp hsession
  rw [← Except.ok.inj hsession]
  rfl

/-- A step that draws opens a session that counts from there. -/
theorem opens_of_draws {r : UInt64} (hdraws : draws? crates app input = some r)
    (hstep : appStep crates app input = some (app', effects)) :
    ∃ link, app'.links = app.links ++ [link] ∧ link.session.media.nonce = r ∧ effects = [] := by
  unfold draws? at hdraws
  split at hdraws
  · rename_i resolved opening
    split at hdraws
    · rename_i link hslot hlink
      obtain rfl := Option.some.inj hdraws
      simp only [appStep, App.callback, App.connectRelay, hslot, hlink] at hstep
      split at hstep
      · obtain ⟨rfl, rfl⟩ := Prod.mk.inj (Option.some.inj hstep)
        exact ⟨link, rfl, openLink_nonce hlink, rfl⟩
      · cases hstep
    · cases hdraws
  · cases hdraws

/-- Every session stands where its draw and its calls of the cipher have brought it. -/
def DrawnSoFar (app : App) (draws : List UInt64) (effects : List AppEffect) : Prop :=
  draws.length = app.links.length ∧ ∀ (i : Nat) (link : Link) (r : UInt64), app.links[i]? = some link →
    draws[i]? = some r → link.session.media.nonce = r + UInt64.ofNat (calls (relayed i effects)).length

/-- A step that draws nothing. -/
theorem DrawnSoFar.moves {draws : List UInt64} (h : DrawnSoFar app draws seen)
    (hmoves : Moves crates input app.links app'.links effects) : DrawnSoFar app' draws (seen ++ effects) := by
  refine ⟨h.1.trans hmoves.length.symm, ?_⟩
  intro j link' r hlink' hr
  rw [relayed_append, calls_append, List.length_append]
  rcases hmoves.session hlink' with ⟨hsame, hnone⟩ | ⟨link, label, session, -, hlink, hstep, rfl⟩
  · rw [hnone]
    exact h.2 j link' r hsame hr
  · -- at most one call, and the nonce advances with it
    have hbefore := h.2 j link r hlink hr
    rcases step_calls hstep with ⟨hnone, hkept⟩ | ⟨call, -, hone, hnext⟩
    · rw [calls, calls, hnone, List.length_nil, Nat.add_zero, hkept]
      exact hbefore
    · rw [calls, calls, hone, List.length_singleton, UInt64.ofNat_add, hnext, hbefore, UInt64.add_assoc]
      rfl

/-- A step that draws. -/
theorem DrawnSoFar.opens {draws : List UInt64} (h : DrawnSoFar app draws seen)
    (hunopened : ∀ i, app.links.length ≤ i → relayed i seen = []) {link : Link}
    (hlinks : app'.links = app.links ++ [link]) :
    DrawnSoFar app' (draws ++ [link.session.media.nonce]) (seen ++ []) := by
  rw [List.append_nil]
  refine ⟨by rw [hlinks, List.length_append, List.length_append, h.1]; rfl, ?_⟩
  intro i link' r hlink' hr
  rw [hlinks] at hlink'
  rcases Nat.lt_or_ge i app.links.length with hold | hnew
  · rw [List.getElem?_append_left hold] at hlink'
    rw [List.getElem?_append_left (h.1 ▸ hold)] at hr
    exact h.2 i link' r hlink' hr
  · obtain rfl : i = app.links.length := by
      have hi := (List.getElem?_eq_some_iff.mp hlink').1
      rw [List.length_append, List.length_singleton] at hi
      omega
    rw [List.getElem?_concat_length, Option.some.injEq] at hlink'
    rw [← h.1, List.getElem?_concat_length, Option.some.injEq] at hr
    rw [hunopened _ hnew, ← hr, ← hlink']
    exact (UInt64.add_zero _).symm

/-- A step that opens a session draws. -/
theorem draws_of_opens {resolved : Except IoError (List SocketAddr)} {opening : Opening} {link : Link}
    (hslot : app.session = none) (hlink : app.openLink crates resolved opening = .ok link) :
    draws? crates app (.callback (.connectRelay resolved opening)) = some opening.random := by
  simp only [draws?, hslot, hlink]

theorem DrawnSoFar.step {draws : List UInt64} (h : DrawnSoFar app draws seen)
    (hunopened : ∀ i, app.links.length ≤ i → relayed i seen = [])
    (hstep : appStep crates app input = some (app', effects)) :
    DrawnSoFar app' (draws ++ (draws? crates app input).toList) (seen ++ effects) := by
  cases hdraws : draws? crates app input with
  | some r =>
    obtain ⟨link, hlinks, rfl, rfl⟩ := opens_of_draws hdraws hstep
    exact h.opens hunopened hlinks
  | none =>
    rw [Option.toList_none, List.append_nil]
    cases appStep_does hstep with
    | keeps hmoves | submits hmoves => exact h.moves hmoves
    | opens hinput hslot hlink =>
      rw [hinput, draws_of_opens hslot hlink] at hdraws
      cases hdraws

theorem run_drawn {loaded : Core.ProfileStore × String} {audio : Bool} {inputs : List Input}
    (hrun : run (appStep crates) (App.start loaded audio) inputs = some (app, effects)) :
    DrawnSoFar app (drawn crates (App.start loaded audio) inputs) effects := by
  have hend := run_observed (draws? crates) (R := fun app draws effects =>
    (∃ inputs, SessionsSoFar crates app inputs effects) ∧ DrawnSoFar app draws effects) ?_ inputs [] []
    ⟨⟨[], app_run_sessions rfl⟩, ?_⟩ hrun
  · exact hend.2
  · rintro app draws seen input app' es ⟨⟨past, hsessions⟩, hdrawn⟩ hstep
    exact ⟨⟨_, hsessions.step hstep⟩, hdrawn.step hsessions.unopened hstep⟩
  · refine ⟨by rw [(App.start_sessions loaded audio).1]; rfl, ?_⟩
    intro i link r hlink
    rw [(App.start_sessions loaded audio).1] at hlink
    cases hlink

/-- **A session seals under its channel's key, counting from its draw.** -/
theorem drawn_calls {loaded : Core.ProfileStore × String} {audio : Bool} {inputs : List Input}
    (hrun : run (appStep crates) (App.start loaded audio) inputs = some (app, effects)) {i : Nat} {link : Link}
    {r : UInt64} (hlink : app.links[i]? = some link)
    (hr : (drawn crates (App.start loaded audio) inputs)[i]? = some r) :
    CallsSoFar crates link.config r link.session [] (relayed i effects) := by
  obtain ⟨localAddr, random, labels, hsession, -⟩ := app_run_session hrun hlink
  obtain ⟨hkey, hnonce, hnonces, hkeys⟩ := run_calls hsession
  -- both count the same calls up to the same nonce
  have hsame : random = r := by
    have hcount := congrArg UInt64.toNat ((run_drawn hrun).2 i link r hlink hr)
    rw [hnonce, UInt64.toNat_add, UInt64.toNat_ofNat'] at hcount
    have := random.toNat_lt
    have := r.toNat_lt
    exact UInt64.toNat_inj.mp (by omega)
  subst hsame
  exact ⟨hkey, hnonce, hnonces, hkeys⟩

end Draws

/-! ## §2 — what a session uses -/

/-- What the cipher must not be given twice. -/
def cipherInput (call : EncryptCall) : ByteArr 32 × ByteArr 12 := (call.key, packetNonce call.nonce)

section Uses

variable {crates : CryptoCrates} {config config' : RelayConfig} {r r' : UInt64} {s s' : Session}
  {labels labels' : List Label} {effects effects' : List Effect}

/-- Under one key, the inputs are the nonces. -/
theorem cipherInputs_of_key {key : ByteArr 32} (h : CallsSoFar crates config r s labels effects)
    (hkey : mediaKey crates config = some key) :
    (calls effects).map cipherInput = (usedNonces effects).map (Prod.mk key) := by
  rw [usedNonces, List.map_map]
  apply List.map_congr_left
  intro call hcall
  have hown := h.2.2.2 call hcall
  rw [hkey, Option.some.injEq] at hown
  rw [cipherInput, Function.comp_apply, hown]

/-- **A session repeats no nonce** exactly as long as it does not go around the circle. -/
theorem calls_nodup_iff (h : CallsSoFar crates config r s labels effects) :
    ((calls effects).map cipherInput).Nodup ↔ (calls effects).length ≤ 2 ^ 64 := by
  cases hcalls : calls effects with
  | nil => simp
  | cons call rest =>
    have hkey : mediaKey crates config = some call.key := h.2.2.2 call (hcalls ▸ List.mem_cons_self)
    rw [← hcalls, cipherInputs_of_key h hkey, List.nodup_map_iff (Prod.mk_right_injective _), h.usedNonces,
      ← arc_nodup_iff r.toNat_lt]
    refine ⟨List.Nodup.of_map _, fun hnodup => hnodup.map_on ?_⟩
    intro x hx y hy hxy
    exact expand_injOn (arc_lt (by decide) hx) (arc_lt (by decide) hy) hxy

/-- **`Apart crates config config' r r' a b`** — if two sessions share a key and both seal, then the one that starts at
`r` and seals `a` times stops before `r'`, and the one that starts at `r'` and seals `b` times before `r`. -/
def Apart (crates : CryptoCrates) (config config' : RelayConfig) (r r' : UInt64) (a b : Nat) : Prop :=
  mediaKey crates config = mediaKey crates config' → 1 ≤ a → 1 ≤ b → a ≤ (r' - r).toNat ∧ b ≤ (r - r').toNat

/-- **Two sessions share no nonce** exactly when they keep apart. -/
theorem calls_disjoint_iff (h : CallsSoFar crates config r s labels effects)
    (h' : CallsSoFar crates config' r' s' labels' effects') (ha : (calls effects).length ≤ 2 ^ 64)
    (hb : (calls effects').length ≤ 2 ^ 64) :
    ((calls effects).map cipherInput).Disjoint ((calls effects').map cipherInput) ↔
      Apart crates config config' r r' (calls effects).length (calls effects').length := by
  unfold Apart
  rcases Nat.eq_zero_or_pos (calls effects).length with hnone | ha₁
  · rw [List.length_eq_zero_iff.mp hnone]
    simp
  rcases Nat.eq_zero_or_pos (calls effects').length with hnone' | hb₁
  · rw [List.length_eq_zero_iff.mp hnone']
    simp
  obtain ⟨call, hcall⟩ := List.exists_mem_of_length_pos ha₁
  obtain ⟨call', hcall'⟩ := List.exists_mem_of_length_pos hb₁
  have hkey := h.2.2.2 call hcall
  have hkey' := h'.2.2.2 call' hcall'
  rw [cipherInputs_of_key h hkey, cipherInputs_of_key h' hkey', hkey, hkey', Option.some.injEq]
  by_cases hsame : call.key = call'.key
  · have hpairs : ((usedNonces effects).map (Prod.mk call'.key)).Disjoint
        ((usedNonces effects').map (Prod.mk call'.key)) ↔ (usedNonces effects).Disjoint (usedNonces effects') :=
      ⟨fun h _ hx hx' => h (List.mem_map_of_mem hx) (List.mem_map_of_mem hx'),
        List.disjoint_map (Prod.mk_right_injective _)⟩
    rw [hsame, hpairs, h.usedNonces, h'.usedNonces, expand_disjoint_iff,
      arc_disjoint_iff r.toNat_lt r'.toNat_lt ha₁ ha hb₁ hb, offset_toNat, offset_toNat]
    exact ⟨fun happart _ _ _ => happart, fun happart => happart rfl ha₁ hb₁⟩
  · refine iff_of_true ?_ fun h => absurd h hsame
    intro y hy hy'
    obtain ⟨x, -, rfl⟩ := List.mem_map.mp hy
    obtain ⟨z, -, hzx⟩ := List.mem_map.mp hy'
    exact hsame (Prod.mk.inj hzx).1.symm

end Uses

/-! ## §3 — what all stations use -/

section Stations

variable {ν : Type}

/-- What an entry of the log gives the cipher, and for which session of which station. -/
def sealedFor? (entry : ν × AppEffect) : Option ((ν × Nat) × (ByteArr 32 × ByteArr 12)) :=
  match entry.2 with
  | .relay i effect => effect.call?.map fun call => ((entry.1, i), cipherInput call)
  | .playback _ _ => none

/-- All that the stations give the cipher. -/
def cipherInputs (log : List (ν × AppEffect)) : List ((ν × Nat) × (ByteArr 32 × ByteArr 12)) :=
  log.filterMap sealedFor?

variable [DecidableEq ν]

/-- How often session `i` of station `m` sealed. -/
def sealCount (log : List (ν × AppEffect)) (m : ν) (i : Nat) : Nat := (calls (relayed i (onlyAt m log))).length

theorem onlyAt_cipherInputs (log : List (ν × AppEffect)) (m : ν) (i : Nat) :
    onlyAt (m, i) (cipherInputs log) = (calls (relayed i (onlyAt m log))).map cipherInput := by
  rw [cipherInputs, onlyAt, List.filterMap_filterMap, calls, relayed, onlyAt, List.filterMap_filterMap,
    List.filterMap_filterMap, List.map_filterMap]
  apply List.filterMap_congr
  rintro ⟨n, effect⟩ -
  cases effect with
  | playback => by_cases hn : n = m <;> simp [sealedFor?, AppEffect.relay?, hn]
  | relay j e =>
    by_cases hn : n = m <;> by_cases hj : j = i <;> cases hcall : e.call? <;>
      simp [sealedFor?, AppEffect.relay?, hn, hj, hcall]

variable {crates : CryptoCrates} {loaded : ν → Core.ProfileStore × String} {audio : ν → Bool}
  {inputs : List (ν × Input)} {world : ν → App} {log : List (ν × AppEffect)}

/-- A session that never was sealed nothing; any other counts from its draw. -/
theorem session_calls (hrun : run (product (appStep crates)) (start loaded audio) inputs = some (world, log)) (m : ν)
    (i : Nat) :
    calls (relayed i (onlyAt m log)) = [] ∨ ∃ (link : Link) (r : UInt64), (world m).links[i]? = some link ∧
      (drawn crates (start loaded audio m) (onlyAt m inputs))[i]? = some r ∧
      CallsSoFar crates link.config r link.session [] (relayed i (onlyAt m log)) := by
  have hown : run (appStep crates) (App.start (loaded m) (audio m)) (onlyAt m inputs) =
      some (world m, onlyAt m log) := run_product m inputs hrun
  rcases Nat.lt_or_ge i (world m).links.length with hlt | hge
  · have hlink : (world m).links[i]? = some (world m).links[i] := List.getElem?_eq_getElem hlt
    obtain ⟨r, hr⟩ : ∃ r, (drawn crates (start loaded audio m) (onlyAt m inputs))[i]? = some r :=
      ⟨_, List.getElem?_eq_getElem ((run_drawn hown).1.symm ▸ hlt)⟩
    exact Or.inr ⟨_, r, hlink, hr, drawn_calls hown hlink hr⟩
  · exact Or.inl (by rw [(app_run_sessions hown).unopened i hge]; rfl)

/-- **When no nonce is used twice.** Any number of stations run the application, in any interleaving. No pair of key
and nonce is given to the cipher twice, by whatever station or session, exactly when no session seals more than `2^64`
frames and any two sessions keep apart, counting from the values that `random()` gave them. -/
theorem no_nonce_reused_iff
    (hrun : run (product (appStep crates)) (start loaded audio) inputs = some (world, log)) :
    ((cipherInputs log).map Prod.snd).Nodup ↔
      (∀ m i, sealCount log m i ≤ 2 ^ 64) ∧
      ∀ (m n : ν) (i j : Nat) (link link' : Link) (r r' : UInt64), (m, i) ≠ (n, j) →
        (world m).links[i]? = some link → (world n).links[j]? = some link' →
        (drawn crates (start loaded audio m) (onlyAt m inputs))[i]? = some r →
        (drawn crates (start loaded audio n) (onlyAt n inputs))[j]? = some r' →
        Apart crates link.config link'.config r r' (sealCount log m i) (sealCount log n j) := by
  have hown : (∀ t, (onlyAt t (cipherInputs log)).Nodup) ↔ ∀ m i, sealCount log m i ≤ 2 ^ 64 := by
    rw [Prod.forall]
    refine forall_congr' fun m => forall_congr' fun i => ?_
    rw [onlyAt_cipherInputs, sealCount]
    rcases session_calls hrun m i with hnone | ⟨link, r, -, -, hcalls⟩
    · rw [hnone]
      simp
    · exact calls_nodup_iff hcalls
  rw [nodup_snd_iff, hown]
  refine and_congr_right fun hfew => ⟨fun happart => ?_, fun happart => ?_⟩
  · intro m n i j link link' r r' hne hlink hlink' hr hr'
    have hm : run (appStep crates) (App.start (loaded m) (audio m)) (onlyAt m inputs) =
        some (world m, onlyAt m log) := run_product m inputs hrun
    have hn : run (appStep crates) (App.start (loaded n) (audio n)) (onlyAt n inputs) =
        some (world n, onlyAt n log) := run_product n inputs hrun
    have hdisjoint := happart (m, i) (n, j) hne
    rw [onlyAt_cipherInputs, onlyAt_cipherInputs] at hdisjoint
    exact (calls_disjoint_iff (drawn_calls hm hlink hr) (drawn_calls hn hlink' hr') (hfew m i) (hfew n j)).mp hdisjoint
  · rintro ⟨m, i⟩ ⟨n, j⟩ hne
    rw [onlyAt_cipherInputs, onlyAt_cipherInputs]
    rcases session_calls hrun m i with hnone | ⟨link, r, hlink, hr, hcalls⟩
    · rw [hnone]
      simp
    rcases session_calls hrun n j with hnone | ⟨link', r', hlink', hr', hcalls'⟩
    · rw [hnone]
      simp
    exact (calls_disjoint_iff hcalls hcalls' (hfew m i) (hfew n j)).mpr
      (happart m n i j link link' r r' hne hlink hlink' hr hr')

/-- Two callers who draw the same number give the cipher the same pair. -/
theorem no_nonce_reused_iff_twins : ∃ world log,
    run (product (appStep tagCrates)) (start (fun _ : Bool => (callerStore, "Profile restored")) fun _ => true)
      (callInputs.map (fun i => (false, i)) ++ callInputs.map fun i => (true, i)) = some (world, log) ∧
    ¬ ((cipherInputs log).map Prod.snd).Nodup := by
  have hview : (run (product (appStep tagCrates)) (start (fun _ : Bool => (callerStore, "Profile restored"))
      fun _ => true) (callInputs.map (fun i => (false, i)) ++ callInputs.map fun i => (true, i))).map
      (fun r => ((r.1 false).links[0]?.map Link.config, (r.1 true).links[0]?.map Link.config,
        sealCount r.2 false 0, sealCount r.2 true 0)) =
      some (some callerConfig, some callerConfig, 1, 1) := by decide +kernel
  have hdrawn : ∀ b : Bool, (drawn tagCrates (start (fun _ : Bool => (callerStore, "Profile restored"))
      (fun _ => true) b) (onlyAt b (callInputs.map (fun i => (false, i)) ++ callInputs.map fun i => (true, i))))[0]? =
      some 0 := by decide +kernel
  obtain ⟨⟨world, log⟩, hrun, hviews⟩ := Option.map_eq_some_iff.mp hview
  simp only [Prod.mk.injEq, Option.map_eq_some_iff] at hviews
  obtain ⟨⟨link, hlink, hconfig⟩, ⟨link', hlink', hconfig'⟩, hone, hone'⟩ := hviews
  refine ⟨world, log, hrun, fun hnodup => ?_⟩
  have happart := ((no_nonce_reused_iff hrun).mp hnodup).2 false true 0 0 link link' 0 0 (by simp) hlink hlink'
    (hdrawn false) (hdrawn true) (by rw [hconfig, hconfig']) (by rw [hone]) (by rw [hone'])
  rw [hone] at happart
  exact absurd happart.1 (by decide)

end Stations

end IncomUdon.Network
