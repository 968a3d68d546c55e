/-
# IncomUdon.Transport.Lifecycle — how a session ends, and what its client learns of it.

§1: no worker panics, whatever arrives and whatever it is asked to send. §2: `disconnect` joins the worker's thread,
which is safe to wait for: once `running` is clear every step of the worker lowers its `patience`, so it returns
within a bounded number of its own steps. §3: the events. The channel may drop some of them, but what the client is
told starts with `Connected`, keeps the order in which it was offered, and ends with `Stopped` if that is told at all.
-/
import IncomUdon.Lib.Sublists
import IncomUdon.Protocol.Grammar
import IncomUdon.Transport.Events
import IncomUdon.Transport.Stream

namespace IncomUdon.Transport

open IncomUdon.Lib
open IncomUdon.Protocol
open IncomUdon.Crypto

/-! ## §1 — the worker does not panic -/

section

variable {crates : CryptoCrates} {config : RelayConfig} {s s' : Session} {seen effects : List Effect}

/-- The decoder panics on no datagram. -/
theorem receive_not_panicked (crates : CryptoCrates) (sequence : UInt16) (media : MediaState) (bytes : Bytes) :
    (receive crates sequence media bytes).panicked = false := by
  unfold receive
  split
  · split <;> rfl
  · rfl
  · rename_i hpanicked
    exact absurd hpanicked (Packet.decode_ne_panicked bytes)

/-- A cipher that keeps its laws answers with room for a tag. -/
theorem process_not_panicked (haead : AeadLaws crates) {command : RelayCommand} {sent : Except IoError Unit}
    {turn : Turn} (h : process crates config s command sent = some turn) : turn.panicked = false := by
  cases command with
  | send packet =>
    obtain rfl := Option.some.inj h
    rfl
  | sendControl packetType payload =>
    obtain rfl := Option.some.inj h
    rfl
  | disconnect => cases h
  | sendPcm frame =>
    obtain rfl := Option.some.inj h
    have hsends := sendPcm_sends crates config s.sequence s.media frame sent
    generalize sendPcm crates config s.sequence s.media frame sent = turn at hsends
    cases hsends with
    | @shortCiphertext k encrypted hlen _ _ hcall hshort =>
      obtain ⟨c, hc, hclen, -⟩ := pcmCall_of_laws config haead s.sequence s.media k hlen
      rw [hcall, Except.ok.injEq] at hc
      rw [hc, hclen, authTagLen] at hshort
      omega
    | _ => rfl

theorem workerStep_not_panicked (haead : AeadLaws crates) {env : Env}
    (h : workerStep crates config s env = some (s', effects)) : s'.worker ≠ .panicked := by
  cases (workerStep_turn h).2.2 with
  | goes hgoes =>
    generalize hpc' : s'.worker = pc, s'.running = running at hgoes
    cases hgoes with
    | dies hpc =>
      -- the only place to die is behind a datagram, and the decoder does not panic
      cases hrecv : env.received with
      | ok datagram =>
        rw [workerStep_recv crates config hrecv hpc] at h
        obtain ⟨rfl, -⟩ := Prod.mk.inj (Option.some.inj h)
        rw [Session.finish, receive_not_panicked] at hpc'
        cases hpc'
      | error error =>
        simp only [workerStep, hpc, hrecv] at h
        split at h
        · obtain ⟨rfl, -⟩ := Prod.mk.inj (Option.some.inj h)
          cases hpc'
        · obtain ⟨rfl, -⟩ := Prod.mk.inj (Option.some.inj h)
          cases hpc'
    | _ => simp
  | takes _ _ hturn hworker =>
    rw [hworker, process_not_panicked haead hturn]
    simp
  | ends _ hafter =>
    rcases hafter with ⟨-, hworker, -⟩ | ⟨-, hworker, -⟩ <;> simp [hworker]
  | owns hplace =>
    generalize s.worker = pc, s'.worker = pc' at hplace
    cases hplace <;> simp

/-- **No worker panics**, in any interleaving with its client. -/
theorem run_not_panicked (haead : AeadLaws crates) {localAddr : SocketAddr} {random : UInt64} {labels : List Label}
    (hrun : run (step crates config) (Session.start crates config localAddr random) labels = some (s, effects)) :
    s.worker ≠ .panicked := by
  refine run_history (R := fun s _ _ => s.worker ≠ .panicked) ?_ (by simp [Session.start]) hrun
  intro s _ _ label s' es hinv hstep
  cases label with
  | client action =>
    rw [(clientStep_turn hstep).1]
    exact hinv
  | worker env => exact workerStep_not_panicked haead hstep

/-! ## §2 — `disconnect` returns -/

/-- How many steps a worker takes at most once the flag is clear. -/
def patience (s : Session) : Nat :=
  match s.worker with
  | .returned | .panicked => 0
  | .stop => 1
  | .leave => 2
  | .head | .recheck => 3
  | .join | .recv => 4
  | .entry | .keepalive => 5
  | .drain => 4 + s.commands.queue.length
  | .recvTimeout => 5 + s.commands.queue.length

/-- Going on with the flag clear. -/
theorem Goes.patience_lt {pc : WorkerPc} {running : Bool} (h : Goes s pc running) (hstopped : s.running = false)
    (hpc : s'.worker = pc) (hcommands : s'.commands = s.commands) : running = false ∧ patience s' < patience s := by
  unfold patience
  rw [hpc, hcommands]
  cases h with
  | runs _ hrunning | goesOn _ hrunning =>
    rw [hstopped] at hrunning
    cases hrunning
  | timesOut hplace hempty | isClosed hplace hempty | drained hplace hempty | drainsClosed hplace hempty =>
    simp [hplace, hempty, hstopped]
  | connected hplace | isStopped hplace | givesUp hplace | notDue hplace | received hplace | dies hplace
  | returns hplace => simp [hplace, hstopped]

/-- **Every step of the worker lowers its patience**, and leaves the flag clear. -/
theorem workerStep_patience {env : Env} (hstopped : s.running = false)
    (h : workerStep crates config s env = some (s', effects)) : s'.running = false ∧ patience s' < patience s := by
  cases (workerStep_turn h).2.2 with
  | goes hgoes hcommands => exact hgoes.patience_lt hstopped rfl hcommands
  | @takes command turn hpc hqueue _ hworker hrunning =>
    refine ⟨hrunning.trans hstopped, ?_⟩
    -- one command less waits, and the worker is at its inner receive, or dead
    have hafter : patience s' ≤ 4 + s'.commands.queue.length := by
      unfold patience
      rw [hworker]
      cases turn.panicked <;> simp
    have hbefore : 4 + s.commands.queue.length ≤ patience s := by
      unfold patience
      rcases hpc with hpc | hpc <;> simp [hpc]
    rw [hqueue, List.length_cons] at hbefore
    omega
  | ends hqueue hafter =>
    unfold patience
    rcases hafter with ⟨hpc, hpc', hrunning⟩ | ⟨hpc, hpc', hcleared⟩
    · simp only [hpc, hpc', hrunning, hstopped, true_and]
      omega
    · simp only [hpc, hpc', hcleared, true_and]
      omega
  | owns hplace _ hrunning =>
    unfold patience
    generalize s.worker = pc, s'.worker = pc' at hplace
    cases hplace <;> simp [hrunning, hstopped]

/-- A worker that is not gone takes a step, whatever the system answers. -/
theorem workerStep_isSome (hgone : ¬ s.workerGone) (env : Env) :
    ∃ s' effects, workerStep crates config s env = some (s', effects) := by
  suffices h : (workerStep crates config s env).isSome by
    obtain ⟨⟨s', effects⟩, hstep⟩ := Option.isSome_iff_exists.mp h
    exact ⟨s', effects, hstep⟩
  unfold workerStep
  split <;> rename_i hpc
  · rfl
  · rfl
  · rfl
  · split
    · split <;> rfl
    · rfl
  · split
    · split <;> rfl
    · rfl
  · rfl
  · split <;> rfl
  · split
    · rfl
    · split <;> rfl
  · rfl
  · rfl
  · exact absurd (Or.inl hpc) hgone
  · exact absurd (Or.inr hpc) hgone

/-- The worker leaves the command queue alone or takes its front. -/
theorem workerStep_commands {env : Env} (h : workerStep crates config s env = some (s', effects)) :
    s'.commands = s.commands ∨ ∃ command, s.commands.tryRecv = some (command, s'.commands) := by
  have htakes : s.worker = .recvTimeout ∨ s.worker = .drain ∨ s'.commands = s.commands := by
    cases (workerStep_turn h).2.2 with
    | goes _ hcommands | owns _ hcommands => exact Or.inr (Or.inr hcommands)
    | takes hpc =>
      rcases hpc with hpc | hpc
      · exact Or.inl hpc
      · exact Or.inr (Or.inl hpc)
    | ends _ hafter =>
      rcases hafter with ⟨hpc, -⟩ | ⟨hpc, -⟩
      · exact Or.inl hpc
      · exact Or.inr (Or.inl hpc)
  rcases htakes with hpc | hpc | hsame
  · simp only [workerStep, hpc] at h
    split at h
    · rename_i command commands htake
      split at h
      · obtain ⟨rfl, -⟩ := Prod.mk.inj (Option.some.inj h)
        exact Or.inr ⟨command, htake⟩
      · obtain ⟨rfl, -⟩ := Prod.mk.inj (Option.some.inj h)
        exact Or.inr ⟨command, htake⟩
    · obtain ⟨rfl, -⟩ := Prod.mk.inj (Option.some.inj h)
      exact Or.inl rfl
  · simp only [workerStep, hpc] at h
    split at h
    · rename_i command commands htake
      split at h
      · obtain ⟨rfl, -⟩ := Prod.mk.inj (Option.some.inj h)
        exact Or.inr ⟨command, htake⟩
      · obtain ⟨rfl, -⟩ := Prod.mk.inj (Option.some.inj h)
        exact Or.inr ⟨command, htake⟩
    · obtain ⟨rfl, -⟩ := Prod.mk.inj (Option.some.inj h)
      exact Or.inl rfl
  · exact Or.inl hsame

theorem Session.submit_capacity (s : Session) (command : RelayCommand) :
    (s.submit command).1.commands.capacity = s.commands.capacity := by
  unfold Session.submit
  split
  · rfl
  · exact Channel.trySend_capacity _ _

/-- The bounds of the two channels are those they were made with. -/
theorem step_capacity {label : Label} (h : step crates config s label = some (s', effects)) :
    s'.commands.capacity = s.commands.capacity := by
  cases label with
  | client action =>
    cases clientStep_does h with
    | submits | posts => exact s.submit_capacity _
    | takes | finds | stops | stopped | joins | releases => rfl
  | worker env =>
    rcases workerStep_commands h with hsame | ⟨command, htake⟩
    · rw [hsame]
    · exact (Channel.tryRecv_eq_some htake).2

/-- **No more than 64 commands wait**, however slow the relay is. -/
theorem run_commands_le {localAddr : SocketAddr} {random : UInt64} {labels : List Label}
    (hrun : run (step crates config) (Session.start crates config localAddr random) labels = some (s, effects)) :
    s.commands.queue.length ≤ defaultCommandCapacity := by
  suffices h : s.commands.capacity = defaultCommandCapacity from h ▸ s.commands.fits
  refine run_history (R := fun s _ _ => s.commands.capacity = defaultCommandCapacity) ?_ rfl hrun
  exact fun _ _ _ _ _ _ hinv hstep => (step_capacity hstep).trans hinv

/-- The most steps a worker takes once the flag is clear. -/
def maxPatience : Nat := 5 + defaultCommandCapacity

theorem patience_le (hfits : s.commands.queue.length ≤ defaultCommandCapacity) : patience s ≤ maxPatience := by
  unfold patience maxPatience
  split <;> omega

theorem workerGone_of_patience (h : patience s = 0) : s.workerGone := by
  unfold patience at h
  split at h
  · exact Or.inl ‹_›
  · exact Or.inr ‹_›
  all_goals omega

/-- A client that waits in `join` gets out of it once the worker is gone. -/
theorem clientStep_joinWorker (hjoining : s.client = .joining) (hgone : s.workerGone) :
    clientStep s .joinWorker = some ({ s with client := .idle }, [.disconnected]) := by
  simp only [clientStep, hjoining, if_pos hgone]

/-- While the client waits in `join`, the worker returns within 69 steps of its own. -/
theorem joining_worker_returns (haead : AeadLaws crates) {localAddr : SocketAddr} {random : UInt64}
    {labels : List Label}
    (hrun : run (step crates config) (Session.start crates config localAddr random) labels = some (s, effects))
    (hjoining : s.client = .joining) (envs : List Env) (hlong : envs.length = maxPatience) :
    ∃ k t es, k ≤ maxPatience ∧ run (step crates config) s ((envs.take k).map Label.worker) = some (t, es) ∧
      t.worker = .returned ∧ t.running = false ∧ t.client = .joining := by
  have hstopped : s.running = false := (run_shutdown hrun).swapped (by simp [hjoining])
  have hbound := patience_le (run_commands_le hrun)
  obtain ⟨k, t, es, hk, hleaves, ⟨hstill, hclient⟩, hgone⟩ := run_ends
    (fun t => t.running = false ∧ t.client = .joining) Session.workerGone patience
    (fun t env t' os hI hstep => ⟨⟨(workerStep_patience hI.1 hstep).1, (workerStep_turn hstep).1.trans hI.2⟩,
      (workerStep_patience hI.1 hstep).2⟩)
    (fun t env _ hgone => workerStep_isSome hgone env) (fun t _ hzero => workerGone_of_patience hzero)
    envs s ⟨hstopped, hjoining⟩ (by omega)
  have hworker : run (step crates config) s ((envs.take k).map Label.worker) = some (t, es) :=
    (run_map (step crates config) Label.worker (envs.take k) s).symm.trans hleaves
  refine ⟨k, t, es, by omega, hworker, ?_, hstill, hclient⟩
  exact hgone.resolve_right (run_not_panicked haead (run_append hrun hworker))

/-- **`disconnect` returns.** Let a session have run in any interleaving up to where its client waits in `join`. Then,
whatever the system answers and whatever arrives, within 69 steps of its own the worker has returned, and the next
step of the client is its way out of `disconnect`. -/
theorem disconnect_returns (haead : AeadLaws crates) {localAddr : SocketAddr} {random : UInt64} {labels : List Label}
    (hrun : run (step crates config) (Session.start crates config localAddr random) labels = some (s, effects))
    (hjoining : s.client = .joining) (envs : List Env) (hlong : envs.length = maxPatience) :
    ∃ k t es, k ≤ maxPatience ∧ run (step crates config) s ((envs.take k).map Label.worker) = some (t, es) ∧
      t.worker = .returned ∧
      step crates config t (.client .joinWorker) = some ({ t with client := .idle }, [.disconnected]) := by
  obtain ⟨k, t, es, hk, hworker, hreturned, -, hclient⟩ := joining_worker_returns haead hrun hjoining envs hlong
  exact ⟨k, t, es, hk, hworker, hreturned, clientStep_joinWorker hclient (Or.inl hreturned)⟩

/-- A client that disconnects while the worker joins: it waits for no more than 69 steps. -/
theorem disconnect_returns_early : ∃ s effects k t es,
    run (step tagCrates (station .aesGcmV2)) (Session.start tagCrates (station .aesGcmV2) stationAddr 0)
      [tick, .client .disconnect, .client .postDisconnect] = some (s, effects) ∧ k ≤ maxPatience ∧
    run (step tagCrates (station .aesGcmV2)) s
      (((List.replicate maxPatience ⟨.ok (), 0, .ok []⟩).take k).map Label.worker) = some (t, es) ∧
    t.worker = .returned := by
  have hview : (run (step tagCrates (station .aesGcmV2)) (Session.start tagCrates (station .aesGcmV2) stationAddr 0)
      [tick, .client .disconnect, .client .postDisconnect]).map (fun r => r.1.client) = some .joining := by
    decide +kernel
  obtain ⟨⟨s, effects⟩, hrun, hjoining⟩ := Option.map_eq_some_iff.mp hview
  obtain ⟨k, t, es, hk, hleaves, hreturned, -⟩ := disconnect_returns tagCrates_aead hrun hjoining
    (List.replicate maxPatience ⟨.ok (), 0, .ok []⟩) List.length_replicate
  exact ⟨s, effects, k, t, es, hrun, hk, hleaves, hreturned⟩

/-! ## §3 — what the client is told -/

/-- Neither of the two events that mark the ends of a session. -/
def RelayEvent.inner : RelayEvent → Bool
  | .connected _ => false
  | .stopped => false
  | _ => true

/-- What `try_next_event` returned, if it was an event. -/
def Effect.next? : Effect → Option RelayEvent
  | .nextEvent e => e
  | _ => none

/-- Every event among the effects is an inner one. -/
def InnerOnly (effects : List Effect) : Prop := ∀ event ∈ effects.filterMap Effect.event?, event.inner = true

/-- The events of a call that sends, and of a receive that failed. -/
def RelayEvent.ofSending : RelayEvent → Bool
  | .sent _ => true
  | .ioError _ => true
  | _ => false

/-- Every event among the effects is of sending. -/
def SendsOnly (effects : List Effect) : Prop := ∀ event ∈ effects.filterMap Effect.event?, event.ofSending = true

theorem SendsOnly.inner (h : SendsOnly effects) : InnerOnly effects := by
  intro event hmem
  have hsending := h event hmem
  cases event with
  | sent | ioError => rfl
  | _ => cases hsending

theorem sendsOnly_nil : SendsOnly [] := by simp [SendsOnly]

theorem sendsOnly_took (command : RelayCommand) (h : SendsOnly effects) : SendsOnly (.took command :: effects) := h

theorem sendPacket_sendsOnly (origin : Origin) (packet : Packet) (sent : Except IoError Unit) :
    SendsOnly (sendPacket origin packet sent) := by
  unfold SendsOnly sendPacket
  cases packet.encode with
  | error error => simp [Effect.event?, RelayEvent.ofSending]
  | ok bytes => cases sent <;> simp [Effect.event?, RelayEvent.ofSending]

theorem process_sendsOnly {command : RelayCommand} {sent : Except IoError Unit} {turn : Turn}
    (h : process crates config s command sent = some turn) : SendsOnly turn.effects := by
  cases command with
  | send packet =>
    obtain rfl := Option.some.inj h
    exact sendPacket_sendsOnly .client packet sent
  | sendControl packetType payload =>
    obtain rfl := Option.some.inj h
    exact sendPacket_sendsOnly .control _ sent
  | disconnect => cases h
  | sendPcm frame =>
    obtain rfl := Option.some.inj h
    have hsends := sendPcm_sends crates config s.sequence s.media frame sent
    generalize sendPcm crates config s.sequence s.media frame sent = turn at hsends
    cases hsends with
    | plain => exact sendPacket_sendsOnly .pcm _ sent
    | «sealed» => exact sendPacket_sendsOnly .pcm _ sent
    | _ => simp [SendsOnly, Effect.event?, RelayEvent.ofSending]

theorem receive_inner (crates : CryptoCrates) (sequence : UInt16) (media : MediaState) (bytes : Bytes) :
    InnerOnly (receive crates sequence media bytes).effects := by
  unfold InnerOnly receive
  split
  · split <;> simp [Effect.event?, RelayEvent.inner]
  · simp [Effect.event?, RelayEvent.inner]
  · simp

/-- **The events of one worker step**: `Connected` at its entry, `Stopped` at its end, and inner ones in between. -/
inductive Offers (s s' : Session) (effects : List Effect) : Prop where
  | connects (hpc : s.worker = .entry) (hpc' : s'.worker = .join)
      (hevents : effects.filterMap Effect.event? = [.connected s.localAddr])
  | stops (hpc : s.worker = .stop) (hpc' : s'.worker = .returned)
      (hevents : effects.filterMap Effect.event? = [.stopped])
  | inner (hpc : s.worker ≠ .entry) (hpc' : s'.worker ≠ .entry ∧ s'.worker ≠ .returned) (hinner : InnerOnly effects)

/-- **Between its entry and its end** the worker reads a datagram, or all it offers is of sending. -/
theorem workerStep_sources {env : Env} (hentry : s.worker ≠ .entry) (hstop : s.worker ≠ .stop)
    (h : workerStep crates config s env = some (s', effects)) :
    (∃ datagram, s.worker = .recv ∧ env.received = .ok datagram ∧
      effects = (receive crates s.sequence s.media (datagram.take receiveBufferLen)).effects) ∨
    (∀ datagram, s.worker = .recv → env.received ≠ .ok datagram) ∧ SendsOnly effects := by
  by_cases hreads : ∃ datagram, s.worker = .recv ∧ env.received = .ok datagram
  · obtain ⟨datagram, hpc, hrecv⟩ := hreads
    have hread := workerStep_recv crates config hrecv hpc
    rw [hread] at h
    obtain ⟨-, rfl⟩ := Prod.mk.inj (Option.some.inj h)
    exact Or.inl ⟨datagram, hpc, hrecv, rfl⟩
  refine Or.inr ⟨fun datagram hpc hrecv => hreads ⟨datagram, hpc, hrecv⟩, ?_⟩
  unfold workerStep at h
  split at h <;> rename_i hpc
  · exact absurd hpc hentry
  · obtain ⟨-, rfl⟩ := Prod.mk.inj (Option.some.inj h)
    exact sendPacket_sendsOnly .control _ env.sent
  · obtain ⟨-, rfl⟩ := Prod.mk.inj (Option.some.inj h)
    exact sendsOnly_nil
  · -- either receive processes what it takes
    split at h
    · split at h
      · obtain ⟨-, rfl⟩ := Prod.mk.inj (Option.some.inj h)
        exact sendsOnly_took _ (process_sendsOnly ‹_›)
      · obtain ⟨-, rfl⟩ := Prod.mk.inj (Option.some.inj h)
        exact sendsOnly_took _ sendsOnly_nil
    · obtain ⟨-, rfl⟩ := Prod.mk.inj (Option.some.inj h)
      exact sendsOnly_nil
  · split at h
    · split at h
      · obtain ⟨-, rfl⟩ := Prod.mk.inj (Option.some.inj h)
        exact sendsOnly_took _ (process_sendsOnly ‹_›)
      · obtain ⟨-, rfl⟩ := Prod.mk.inj (Option.some.inj h)
        exact sendsOnly_took _ sendsOnly_nil
    · obtain ⟨-, rfl⟩ := Prod.mk.inj (Option.some.inj h)
      exact sendsOnly_nil
  · obtain ⟨-, rfl⟩ := Prod.mk.inj (Option.some.inj h)
    exact sendsOnly_nil
  · split at h
    · obtain ⟨-, rfl⟩ := Prod.mk.inj (Option.some.inj h)
      exact sendPacket_sendsOnly .control _ env.sent
    · obtain ⟨-, rfl⟩ := Prod.mk.inj (Option.some.inj h)
      exact sendsOnly_nil
  · split at h
    · rename_i datagram hrecv
      exact absurd ⟨datagram, hpc, hrecv⟩ hreads
    · split at h
      · obtain ⟨-, rfl⟩ := Prod.mk.inj (Option.some.inj h)
        exact sendsOnly_nil
      · obtain ⟨-, rfl⟩ := Prod.mk.inj (Option.some.inj h)
        simp [SendsOnly, Session.offer, Effect.event?, RelayEvent.ofSending]
  · obtain ⟨-, rfl⟩ := Prod.mk.inj (Option.some.inj h)
    exact sendPacket_sendsOnly .control _ env.sent
  · exact absurd hpc hstop
  · cases h
  · cases h

/-- Between its entry and its end the worker offers inner events. -/
theorem workerStep_inner {env : Env} (hentry : s.worker ≠ .entry) (hstop : s.worker ≠ .stop)
    (h : workerStep crates config s env = some (s', effects)) : InnerOnly effects := by
  rcases workerStep_sources hentry hstop h with ⟨datagram, -, -, rfl⟩ | ⟨-, hsends⟩
  · exact receive_inner crates _ _ _
  · exact hsends.inner

/-- Only the last step of the worker gets it to `returned`, and none back to its entry. -/
theorem workerStep_place {env : Env} (hstop : s.worker ≠ .stop)
    (h : workerStep crates config s env = some (s', effects)) : s'.worker ≠ .entry ∧ s'.worker ≠ .returned := by
  cases (workerStep_turn h).2.2 with
  | goes hgoes =>
    generalize s'.worker = pc, s'.running = running at hgoes
    cases hgoes with
    | returns hpc => exact absurd hpc hstop
    | _ => simp
  | takes _ _ _ hworker =>
    rw [hworker]
    split <;> simp
  | ends _ hafter => rcases hafter with ⟨-, hpc', -⟩ | ⟨-, hpc', -⟩ <;> simp [hpc']
  | owns hplace =>
    generalize s.worker = pc, s'.worker = pc' at hplace
    cases hplace <;> simp

theorem workerStep_offers {env : Env} (h : workerStep crates config s env = some (s', effects)) :
    Offers s s' effects := by
  by_cases hentry : s.worker = .entry
  · simp only [workerStep, hentry] at h
    obtain ⟨rfl, rfl⟩ := Prod.mk.inj (Option.some.inj h)
    exact .connects hentry rfl rfl
  by_cases hstop : s.worker = .stop
  · simp only [workerStep, hstop] at h
    obtain ⟨rfl, rfl⟩ := Prod.mk.inj (Option.some.inj h)
    exact .stops hstop rfl rfl
  · exact .inner hentry (workerStep_place hstop h) (workerStep_inner hentry hstop h)

/-- The client takes the oldest event, and offers none. -/
theorem clientStep_events {action : ClientAction} (h : clientStep s action = some (s', effects)) :
    s.events.queue = effects.filterMap Effect.next? ++ s'.events.queue ∧ s'.events.capacity = s.events.capacity ∧
      effects.filterMap Effect.event? = [] ∧ s'.localAddr = s.localAddr := by
  have hsubmits : ∀ command, s.events.queue = (s.submit command).2.filterMap Effect.next? ++
      (s.submit command).1.events.queue ∧ (s.submit command).1.events.capacity = s.events.capacity ∧
      (s.submit command).2.filterMap Effect.event? = [] ∧ (s.submit command).1.localAddr = s.localAddr := by
    intro command
    obtain ⟨ok, heffects⟩ := s.submit_effects command
    rw [heffects, (s.submit_spec command).1]
    exact ⟨rfl, rfl, rfl, rfl⟩
  cases clientStep_does h with
  | submits => exact hsubmits _
  | posts => exact hsubmits .disconnect
  | takes _ htake => exact ⟨(Channel.tryRecv_eq_some htake).1, (Channel.tryRecv_eq_some htake).2, rfl, rfl⟩
  | finds | stops | stopped | joins | releases => exact ⟨rfl, rfl, rfl, rfl⟩

theorem next_of_outward (e : Effect) (h : e.outward = true) : e.next? = none := by
  cases e with
  | nextEvent event => cases h
  | _ => rfl

/-- The last event of a worker that has returned. -/
def farewell (s : Session) : List RelayEvent := if s.worker = .returned then [.stopped] else []

/-- What holds so far: before its first step the worker has offered nothing. Behind it, `Connected` came first and got
into the channel; inner events followed, and what was told or waits is a selection of them, in order. -/
structure EventsInv (localAddr : SocketAddr) (s : Session) (effects : List Effect) : Prop where
  capacity : s.events.capacity = defaultEventCapacity
  fresh : s.worker = .entry → s.localAddr = localAddr ∧ effects.filterMap Effect.event? = [] ∧
    effects.filterMap Effect.next? = [] ∧ s.events.queue = []
  opened : s.worker ≠ .entry → ∃ middle kept : List RelayEvent, (∀ e ∈ middle, e.inner = true) ∧
    effects.filterMap Effect.event? = .connected localAddr :: middle ++ farewell s ∧
    effects.filterMap Effect.next? ++ s.events.queue = .connected localAddr :: kept ∧
    kept.Sublist (middle ++ farewell s)

theorem EventsInv.client {localAddr : SocketAddr} (hinv : EventsInv localAddr s seen) {action : ClientAction}
    (h : clientStep s action = some (s', effects)) : EventsInv localAddr s' (seen ++ effects) := by
  obtain ⟨hqueue, hcapacity, hnone, haddr⟩ := clientStep_events h
  have hworker := (clientStep_turn h).1
  have hoffered : (seen ++ effects).filterMap Effect.event? = seen.filterMap Effect.event? := by
    rw [List.filterMap_append, hnone, List.append_nil]
  -- what the client takes moves from the channel to what was told
  have htold : (seen ++ effects).filterMap Effect.next? ++ s'.events.queue =
      seen.filterMap Effect.next? ++ s.events.queue := by
    rw [List.filterMap_append, hqueue, List.append_assoc]
  refine ⟨hcapacity.trans hinv.capacity, ?_, ?_⟩
  · intro hentry
    obtain ⟨hlocal, hsilent, hnext, hempty⟩ := hinv.fresh (hworker ▸ hentry)
    rw [hnext, hempty, List.append_nil] at htold
    obtain ⟨hnext', hempty'⟩ := List.append_eq_nil_iff.mp htold
    exact ⟨haddr.trans hlocal, hoffered.trans hsilent, hnext', hempty'⟩
  · intro hentry
    rw [hoffered, htold, farewell, hworker]
    exact hinv.opened (hworker ▸ hentry)

/-- **The worker's steps**: what it offers is behind what waits, or is dropped. -/
theorem EventsInv.worker {localAddr : SocketAddr} (hinv : EventsInv localAddr s seen) {env : Env}
    (h : workerStep crates config s env = some (s', effects)) : EventsInv localAddr s' (seen ++ effects) := by
  have hgone : s.worker ≠ .returned := fun hpc => not_workerGone h (Or.inl hpc)
  have hnext : (seen ++ effects).filterMap Effect.next? = seen.filterMap Effect.next? := by
    rw [List.filterMap_append, workerStep_view next_of_outward (fun _ => rfl) h, List.append_nil]
  have hevents := (workerStep_turn h).2.1
  have hcapacity : s'.events.capacity = defaultEventCapacity := by
    rw [hevents, (Channel.post_queue _ _).2]
    exact hinv.capacity
  -- the new events that find room come behind those that wait
  have hqueue : s'.events.queue = s.events.queue ++
      (effects.filterMap Effect.event?).take (s.events.capacity - s.events.queue.length) := by
    rw [hevents, (Channel.post_queue _ _).1, List.take_append, List.take_of_length_le s.events.fits]
  -- so does everything behind the worker's first step
  have hlater : s.worker ≠ .entry → ∀ more, (∀ e ∈ more, e.inner = true) →
      effects.filterMap Effect.event? = more ++ farewell s' → ∃ middle kept : List RelayEvent,
        (∀ e ∈ middle, e.inner = true) ∧
        (seen ++ effects).filterMap Effect.event? = .connected localAddr :: middle ++ farewell s' ∧
        (seen ++ effects).filterMap Effect.next? ++ s'.events.queue = .connected localAddr :: kept ∧
        kept.Sublist (middle ++ farewell s') := by
    intro hentry more hinner hmore
    obtain ⟨middle, kept, hmiddle, hoffered, htold, hkept⟩ := hinv.opened hentry
    rw [farewell, if_neg hgone, List.append_nil] at hoffered hkept
    refine ⟨middle ++ more, kept ++ (more ++ farewell s').take (s.events.capacity - s.events.queue.length), ?_, ?_, ?_,
      ?_⟩
    · intro e he
      rcases List.mem_append.mp he with hold | hnew
      · exact hmiddle e hold
      · exact hinner e hnew
    · rw [List.filterMap_append, hoffered, hmore]
      simp
    · rw [hnext, hqueue, ← List.append_assoc, htold, hmore]
      rfl
    · rw [List.append_assoc]
      exact hkept.append (List.take_sublist _ _)
  cases workerStep_offers h with
  | connects hpc hpc' hfirst =>
    obtain ⟨hlocal, hsilent, htold, hempty⟩ := hinv.fresh hpc
    refine ⟨hcapacity, fun hentry => by simp [hpc'] at hentry, fun _ => ⟨[], [], by simp, ?_, ?_, ?_⟩⟩
    · rw [List.filterMap_append, hsilent, hfirst, farewell, hpc', hlocal]
      rfl
    · rw [hnext, htold, hqueue, hempty, hfirst, hinv.capacity, hlocal]
      rfl
    · exact List.nil_sublist _
  | stops hpc hpc' hlast =>
    refine ⟨hcapacity, fun hentry => by simp [hpc'] at hentry, fun _ => ?_⟩
    refine hlater (by simp [hpc]) [] (by simp) ?_
    rw [hlast, farewell, if_pos hpc']
    rfl
  | inner hpc hpc' hinner =>
    refine ⟨hcapacity, fun hentry => absurd hentry hpc'.1, fun _ => ?_⟩
    refine hlater hpc _ hinner ?_
    rw [farewell, if_neg hpc'.2, List.append_nil]

theorem run_events {localAddr : SocketAddr} {random : UInt64} {labels : List Label}
    (hrun : run (step crates config) (Session.start crates config localAddr random) labels = some (s, effects)) :
    EventsInv localAddr s effects := by
  refine run_history (R := fun s _ seen => EventsInv localAddr s seen) ?_ ?_ hrun
  · intro s _ seen label s' es hinv hstep
    cases label with
    | client action => exact hinv.client hstep
    | worker env => exact hinv.worker hstep
  · exact ⟨rfl, fun _ => ⟨rfl, rfl, rfl, rfl⟩, fun hentry => absurd rfl hentry⟩

/-- What the client is told and what waits for it was offered, and comes in the same order. -/
theorem EventsInv.sublist {localAddr : SocketAddr} (hinv : EventsInv localAddr s effects) :
    (effects.filterMap Effect.next? ++ s.events.queue).Sublist (effects.filterMap Effect.event?) := by
  by_cases hentry : s.worker = .entry
  · obtain ⟨-, -, htold, hempty⟩ := hinv.fresh hentry
    rw [htold, hempty]
    exact List.nil_sublist _
  · obtain ⟨middle, kept, -, hoffered, htold, hkept⟩ := hinv.opened hentry
    rw [hoffered, htold]
    exact hkept.cons_cons _

/-- **The events of a session**, in any interleaving of client and worker. The worker offers `Connected` first, and
`Stopped` last, exactly when it returns; in between it offers neither. What the client is told and what waits for it
is, in order, a selection of what was offered. The first of it is `Connected`, and once `Stopped` is told nothing is
told after it, nothing waits, and the worker has returned. -/
theorem events_in_order {localAddr : SocketAddr} {random : UInt64} {labels : List Label}
    (hrun : run (step crates config) (Session.start crates config localAddr random) labels = some (s, effects)) :
    (effects.filterMap Effect.event? = [] ∧ s.worker = .entry ∨
      ∃ middle : List RelayEvent, (∀ e ∈ middle, e.inner = true) ∧
        effects.filterMap Effect.event? = .connected localAddr :: middle ++ farewell s) ∧
    (effects.filterMap Effect.next? ++ s.events.queue).Sublist (effects.filterMap Effect.event?) ∧
    (effects.filterMap Effect.next? ++ s.events.queue).head? = (effects.filterMap Effect.event?).head? ∧
    (∀ before after, effects.filterMap Effect.next? = before ++ .stopped :: after →
      after = [] ∧ s.events.queue = [] ∧ s.worker = .returned) := by
  have hinv := run_events hrun
  by_cases hentry : s.worker = .entry
  · obtain ⟨-, hsilent, htold, hempty⟩ := hinv.fresh hentry
    refine ⟨Or.inl ⟨hsilent, hentry⟩, hinv.sublist, by rw [hsilent, htold, hempty]; rfl, ?_⟩
    rw [htold]
    intro before after hsplit
    exact absurd hsplit (by simp)
  · obtain ⟨middle, kept, hmiddle, hoffered, htold, hkept⟩ := hinv.opened hentry
    refine ⟨Or.inr ⟨middle, hmiddle, hoffered⟩, hinv.sublist, by rw [htold, hoffered]; rfl, ?_⟩
    intro before after hsplit
    rw [hsplit, List.append_assoc] at htold
    cases before with
    | nil => cases (List.cons.inj htold).1
    | cons first before =>
      -- `Stopped` is among what was kept, and no inner event
      obtain rfl := (List.cons.inj htold).2
      have hlast : (RelayEvent.stopped :: (after ++ s.events.queue)).Sublist (farewell s) := by
        apply cons_sublist_of_not_mem _ hkept
        intro hmem
        cases hmiddle _ hmem
      rw [farewell] at hlast
      split at hlast
      · rename_i hreturned
        have hnone := List.append_eq_nil_iff.mp (List.sublist_nil.mp (List.cons_sublist_cons.mp hlast))
        exact ⟨hnone.1, hnone.2, hreturned⟩
      · cases hlast

end

/-- A talk request, a shutdown while the worker is in its inner loop, and the worker's way out. -/
def talkAndLeave : List Label :=
  [tick, tick, .client (.sendControl .pttOn []), tick, tick, .client .disconnect, .client .postDisconnect, tick, tick,
    tick, tick, .client .joinWorker]

/-- The short session of `talkAndLeave`, whose client then asks for five events. -/
def talkAndListen : List Label := talkAndLeave ++ List.replicate 5 (.client .tryNextEvent)

/-- **The events of a short session**: all five are told, and with `Stopped` it is over. -/
theorem events_in_order_talk : ∃ s effects,
    run (step tagCrates (station .none)) (Session.start tagCrates (station .none) stationAddr 0) talkAndListen =
      some (s, effects) ∧
    effects.filterMap Effect.next? =
      [.connected stationAddr, .sent .join, .sent .pttOn, .sent .leave, .stopped] ∧
    s.events.queue = [] ∧ s.worker = .returned := by
  have hview : (run (step tagCrates (station .none)) (Session.start tagCrates (station .none) stationAddr 0)
      talkAndListen).map (fun r => r.2.filterMap Effect.next?) =
      some [.connected stationAddr, .sent .join, .sent .pttOn, .sent .leave, .stopped] := by decide +kernel
  obtain ⟨⟨s, effects⟩, hrun, htold⟩ := Option.map_eq_some_iff.mp hview
  obtain ⟨-, hempty, hreturned⟩ := (events_in_order hrun).2.2.2
    [.connected stationAddr, .sent .join, .sent .pttOn, .sent .leave] [] htold
  exact ⟨s, effects, hrun, htold, hempty, hreturned⟩

end IncomUdon.Transport
