import RifRelayServer.StakeView
import Mathlib

/-!
# The queue of delayed unlocks

An unlock waits in a queue for the block from which the stake can be withdrawn. The
unlocks that are due are taken out of the queue together, before the first of them is
handled: when a withdrawal throws, its unlock and the ones behind it are gone.
-/

namespace RifRelayServer

open Std.Do Keeping Runs

set_option mvcgen.warning false

/-- The queue, the stake events acted on, and what was done for those that were delayed. -/
structure Deferrals where
  delayedEvents : List DelayedEvent
  acted : List TypedEvent
  started : List (TypedEvent × ℕ)
  completed : List TypedEvent

def Deferrals.empty : Deferrals := ⟨[], [], [], []⟩

def WorkerState.deferrals (state : WorkerState) : Deferrals where
  delayedEvents := state.registrationManager.delayedEvents
  acted := state.acted
  started := state.withdrawals.started
  completed := state.withdrawals.completed

/-- An unlock is put into the queue when it is acted on. -/
def Deferrals.unlocks (x : Deferrals) : List TypedEvent :=
  x.acted.filter fun eventData => eventData.event = .stakeUnlocked

def Deferrals.queued (x : Deferrals) : List TypedEvent := x.delayedEvents.map (·.eventData)

/-- Only unlocks wait, each for its own block, and none is acted on before. -/
structure Deferrals.Timed (x : Deferrals) : Prop where
  queued : ∀ event ∈ x.delayedEvents,
    event.eventData.event = .stakeUnlocked ∧ event.block = event.eventData.withdrawBlock
  started : ∀ it ∈ x.started, it.1.withdrawBlock ≤ it.2

/-- Every unlock that was put into the queue is still there, among those being handled,
or has had its withdrawal. -/
def Deferrals.Accounted (dueEvents : List TypedEvent) (x : Deferrals) : Prop :=
  x.unlocks.Perm (x.queued ++ (dueEvents ++ x.completed))

/-- An unlock has left the queue without its withdrawal. -/
def Deferrals.Lost (x : Deferrals) : Prop :=
  ∃ eventData dueEvents, x.Accounted (eventData :: dueEvents)

/-- What is known while the events that are due are handled. -/
structure Deferrals.Handling (currentBlock : ℕ) (dueEvents : List TypedEvent) (x : Deferrals) :
    Prop where
  timed : x.Timed
  due : ∀ eventData ∈ dueEvents,
    eventData.event = .stakeUnlocked ∧ eventData.withdrawBlock ≤ currentBlock
  accounted : x.Accounted dueEvents

/-- What holds between two calls. -/
structure Deferrals.Kept (x : Deferrals) : Prop where
  timed : x.Timed
  accounted : x.Accounted []

namespace Deferrals

variable {x : Deferrals} {eventData : TypedEvent} {currentBlock : ℕ} {dueEvents : List TypedEvent}

theorem kept_empty : empty.Kept where
  timed := ⟨fun _ h => absurd h List.not_mem_nil, fun _ h => absurd h List.not_mem_nil⟩
  accounted := List.Perm.refl _

theorem Kept.defer (h : x.Kept) (hevent : eventData.event = .stakeUnlocked) :
    Kept { x with
      delayedEvents := x.delayedEvents ++ [⟨eventData.withdrawBlock, eventData⟩]
      acted := x.acted ++ [eventData] } where
  timed := by
    refine ⟨fun event hmem => ?_, h.timed.started⟩
    rcases List.mem_append.mp hmem with hold | hnew
    · exact h.timed.queued event hold
    · rw [List.mem_singleton.mp hnew]
      exact ⟨hevent, rfl⟩
  accounted := by
    have hunlocks : (x.acted ++ [eventData]).filter (fun it => it.event = .stakeUnlocked) =
        x.unlocks ++ [eventData] := by
      simp [unlocks, hevent]
    rw [Accounted, unlocks, hunlocks, queued, List.map_append, List.append_assoc]
    apply (h.accounted.append_right _).trans
    rw [List.append_assoc]
    exact (@List.perm_append_comm _ ([] ++ x.completed) _).append_left _

theorem Kept.act (h : x.Kept) (hevent : eventData.event ≠ .stakeUnlocked) :
    Kept { x with acted := x.acted ++ [eventData] } where
  timed := ⟨h.timed.queued, h.timed.started⟩
  accounted := by
    have hunlocks : (x.acted ++ [eventData]).filter (fun it => it.event = .stakeUnlocked) =
        x.unlocks := by
      simp [unlocks, hevent]
    rw [Accounted, unlocks, hunlocks]
    exact h.accounted

/-- The queue is split at the current block. -/
theorem Kept.extract (h : x.Kept) (currentBlock : ℕ) :
    Handling currentBlock
      ((x.delayedEvents.filter fun event => event.block ≤ currentBlock).map (·.eventData))
      { x with
        delayedEvents := x.delayedEvents.filter fun event => currentBlock < event.block } where
  timed :=
    ⟨fun event hmem => h.timed.queued event (List.mem_of_mem_filter hmem), h.timed.started⟩
  due := by
    intro eventData hmem
    obtain ⟨event, hevent, rfl⟩ := List.mem_map.mp hmem
    obtain ⟨hqueued, hblock⟩ := List.mem_filter.mp hevent
    obtain ⟨hunlocked, heq⟩ := h.timed.queued event hqueued
    exact ⟨hunlocked, heq ▸ of_decide_eq_true hblock⟩
  accounted := by
    have hsplit : (x.delayedEvents.filter (fun event => decide (currentBlock < event.block)) ++
        x.delayedEvents.filter (fun event => decide (event.block ≤ currentBlock))).Perm
        x.delayedEvents := by
      have hperm := List.filter_append_perm (fun event : DelayedEvent =>
        decide (currentBlock < event.block)) x.delayedEvents
      simpa [← decide_not, not_lt] using hperm
    apply h.accounted.trans
    rw [List.nil_append, queued, queued, ← List.append_assoc, ← List.map_append]
    exact ((hsplit.map _).append_right _).symm

theorem Handling.event_eq (h : x.Handling currentBlock (eventData :: dueEvents)) :
    eventData.event = .stakeUnlocked :=
  (h.due eventData List.mem_cons_self).1

theorem Handling.complete (h : x.Handling currentBlock (eventData :: dueEvents)) :
    Handling currentBlock dueEvents { x with
      started := x.started ++ [(eventData, currentBlock)]
      completed := x.completed ++ [eventData] } where
  timed := by
    refine ⟨h.timed.queued, fun it hmem => ?_⟩
    rcases List.mem_append.mp hmem with hold | hnew
    · exact h.timed.started it hold
    · rw [List.mem_singleton.mp hnew]
      exact (h.due eventData List.mem_cons_self).2
  due it hmem := h.due it (List.mem_cons_of_mem _ hmem)
  accounted := by
    refine h.accounted.trans (List.Perm.append_left _ ?_)
    rw [List.cons_append, ← List.append_assoc]
    exact @List.perm_append_comm _ [eventData] _

theorem Handling.lose (h : x.Handling currentBlock (eventData :: dueEvents)) :
    Lost { x with started := x.started ++ [(eventData, currentBlock)] } :=
  ⟨eventData, dueEvents, h.accounted⟩

theorem Lost.not_accounted (h : x.Lost) : ¬ x.Accounted [] := by
  obtain ⟨eventData, dueEvents, hlost⟩ := h
  intro haccounted
  have hlength := (hlost.symm.trans haccounted).length_eq
  simp only [List.length_append, List.length_cons, List.length_nil] at hlength
  omega

theorem Handling.kept (h : x.Handling currentBlock []) : x.Kept := ⟨h.timed, h.accounted⟩

end Deferrals

/-- The program leaves the queue and what was done for it as they are. -/
abbrev KeepsDeferrals {α : Type} (x : Deferrals) (program : RoundM α) : Prop :=
  Keeps (fun state => state.deferrals = x) program

section Programs

variable {server : RelayServer} {round : Round} {x : Deferrals}

/-- What `handlePastEvents` does up to taking out the delayed events that are due. -/
def takeDueEvents (server : RelayServer) (round : Round) (hubEventsSinceLastScan : List TypedEvent)
    (lastScannedBlock currentBlock : ℕ) : RoundM (List Hash × List TypedEvent) := do
  noteHanded hubEventsSinceLastScan
  let state ← get
  if !state.registrationManager.isInitialized then throw registrationManagerNotInitialized
  let decodedEvents ← fetchStakeEvents server round (.since lastScannedBlock)
  let stakeHashes ← handleEach (handleStakeEvent server round currentBlock) decodedEvents
  let relayData ← receive server round (·.getRelayInfo)
  updateRegistrationManager fun it => { it with
    relayData := some relayData
    lastWorkerAddedTransaction :=
      hubEventsSinceLastScan.foldl latestWorkerAdded it.lastWorkerAddedTransaction }
  let dueEvents ← extractDuePendingEvents currentBlock
  return (stakeHashes, dueEvents)

theorem handlePastEvents_eq (hubEventsSinceLastScan : List TypedEvent)
    (lastScannedBlock currentBlock : ℕ) (forceRegistration : Bool) :
    handlePastEvents server round hubEventsSinceLastScan lastScannedBlock currentBlock
      forceRegistration =
    (do
      let (stakeHashes, dueEvents) ←
        takeDueEvents server round hubEventsSinceLastScan lastScannedBlock currentBlock
      let delayedHashes ← handleEach (handleDelayedEvent server round currentBlock) dueEvents
      let registrationHashes ← registerIfNeeded server round currentBlock forceRegistration
      return stakeHashes ++ delayedHashes ++ registrationHashes) := by
  simp only [handlePastEvents, takeDueEvents, bind_assoc]
  refine bind_congr fun _ => bind_congr fun state => ?_
  split <;> simp only [bind_assoc, pure_bind]

@[local spec] theorem sendEthBalanceToOwner_keepsDeferrals {signer : Address} {currentBlock : ℕ} :
    KeepsDeferrals x (sendEthBalanceToOwner server round signer currentBlock) := by
  mvcgen [-sendEthBalanceToOwner_keeps, -noteWithdrawals_keeps, sendEthBalanceToOwner,
    noteWithdrawals] with grind [WorkerState.deferrals]

@[local spec] theorem withdrawAllFunds_keepsDeferrals {withdrawManager : Bool}
    {currentBlock : ℕ} :
    KeepsDeferrals x (withdrawAllFunds server round withdrawManager currentBlock) := by
  mvcgen [-withdrawAllFunds_keeps, -sendEthBalanceToOwner_keeps, withdrawAllFunds,
    sendWorkersEthBalancesToOwner, sendManagerEthBalanceToOwner] with grind

@[local spec] theorem refreshStake_keepsDeferrals : KeepsDeferrals x (refreshStake server round) := by
  mvcgen [refreshStake, noteStakeRead, updateRegistrationManager]
    with grind [WorkerState.deferrals, RegistrationManager.setStake]

@[local spec] theorem handleStakeEvent_kept {currentBlock : ℕ} {eventData : TypedEvent} :
    Keeps (fun state => state.deferrals.Kept)
      (handleStakeEvent server round currentBlock eventData) := by
  mvcgen [-withdrawAllFunds_keeps, handleStakeEvent, noteActed, updateRegistrationManager,
    handleStakeWithdrawnEvent]
    with grind [WorkerState.deferrals, → Deferrals.Kept.defer, → Deferrals.Kept.act]

@[local spec] theorem handleStakeEvents_kept {currentBlock : ℕ} (events : List TypedEvent) :
    Keeps (fun state => state.deferrals.Kept)
      (handleEach (handleStakeEvent server round currentBlock) events) :=
  keeps_handleEach (fun _ => handleStakeEvent_kept) events

@[local spec] theorem extractDuePendingEvents_handling {currentBlock : ℕ} :
    ⦃fun state => ⌜state.deferrals.Kept⌝⦄ extractDuePendingEvents currentBlock
    ⦃post⟨fun dueEvents state => ⌜state.deferrals.Handling currentBlock dueEvents⌝,
      fun _ _ => ⌜False⌝⟩⦄ := by
  mvcgen [extractDuePendingEvents, updateRegistrationManager]
  next h _ _ => exact h.extract currentBlock

@[local spec] theorem takeDueEvents_handling {hubEventsSinceLastScan : List TypedEvent}
    {lastScannedBlock currentBlock : ℕ} :
    ⦃fun state => ⌜state.deferrals.Kept⌝⦄
    takeDueEvents server round hubEventsSinceLastScan lastScannedBlock currentBlock
    ⦃post⟨fun taken state => ⌜state.deferrals.Handling currentBlock taken.2⌝,
      fun _ state => ⌜state.deferrals.Kept⌝⟩⦄ := by
  mvcgen [takeDueEvents, noteHanded, fetchStakeEvents, noteStakeScan,
    updateRegistrationManager] with grind [WorkerState.deferrals]

theorem handleDelayedEvent_handling {currentBlock : ℕ} {eventData : TypedEvent}
    {dueEvents : List TypedEvent} :
    ⦃fun state => ⌜state.deferrals.Handling currentBlock (eventData :: dueEvents)⌝⦄
    handleDelayedEvent server round currentBlock eventData
    ⦃post⟨fun _ state => ⌜state.deferrals.Handling currentBlock dueEvents⌝,
      fun _ state => ⌜state.deferrals.Lost⌝⟩⦄ := by
  mvcgen [-handleDelayedEvent_keeps, -withdrawAllFunds_keeps, -noteWithdrawals_keeps,
    handleDelayedEvent, noteWithdrawals, handleStakeUnlockedEvent]
    with grind [WorkerState.deferrals, → Deferrals.Handling.complete, → Deferrals.Handling.lose,
      → Deferrals.Handling.event_eq]

/-- None of the events that are due is lost exactly when all their withdrawals return. -/
theorem handleDelayedEvents_handling {currentBlock : ℕ} (dueEvents : List TypedEvent) :
    ⦃fun state => ⌜state.deferrals.Handling currentBlock dueEvents⌝⦄
    handleEach (handleDelayedEvent server round currentBlock) dueEvents
    ⦃post⟨fun _ state => ⌜state.deferrals.Kept⌝, fun _ state => ⌜state.deferrals.Lost⌝⟩⦄ := by
  induction dueEvents with
  | nil =>
      mvcgen [-handleDelayedEvents_keeps, handleEach]
      next h => exact h.kept
  | cons eventData dueEvents ih =>
      mvcgen [-handleDelayedEvents_keeps, -handleDelayedEvent_keeps, handleEach,
        handleDelayedEvent_handling, ih]

@[local spec] theorem registerIfNeeded_kept {currentBlock : ℕ} {forceRegistration : Bool} :
    Keeps (fun state => state.deferrals.Kept)
      (registerIfNeeded server round currentBlock forceRegistration) := by
  mvcgen with grind [WorkerState.deferrals]

end Programs

/-- A call of `handlePastEvents`, with the rest of the state it is made in. -/
structure PastEventsCall where
  worker : WorkerState
  round : Round
  hubEventsSinceLastScan : List TypedEvent
  lastScannedBlock : ℕ
  currentBlock : ℕ
  forceRegistration : Bool

/-- The queue is as the call before left it. -/
def PastEventsCall.start (x : Deferrals) (call : PastEventsCall) : WorkerState :=
  { call.worker with
    registrationManager :=
      { call.worker.registrationManager with delayedEvents := x.delayedEvents }
    acted := x.acted
    withdrawals :=
      { call.worker.withdrawals with started := x.started, completed := x.completed } }

def PastEventsCall.program (server : RelayServer) (call : PastEventsCall) : RoundM (List Hash) :=
  handlePastEvents server call.round call.hubEventsSinceLastScan call.lastScannedBlock
    call.currentBlock call.forceRegistration

def PastEventsCall.called (server : RelayServer) (call : PastEventsCall) (x : Deferrals) :
    Deferrals :=
  (Keeping.final (call.program server) (call.start x)).deferrals

def deferralsStep (server : RelayServer) (x : Deferrals) (call : PastEventsCall) :
    Option Deferrals :=
  some (call.called server x)

/-- Once the events that are due are taken out of the queue, no withdrawal for any of them
throws. -/
def DueWithdrawalsReturn (server : RelayServer) (x : Deferrals) (call : PastEventsCall) : Prop :=
  match takeDueEvents server call.round call.hubEventsSinceLastScan call.lastScannedBlock
      call.currentBlock (call.start x) with
  | .ok taken state =>
      returns (handleEach (handleDelayedEvent server call.round call.currentBlock) taken.2) state =
        true
  | .error _ _ => True

section Run

variable {server : RelayServer} {x : Deferrals} {call : PastEventsCall}

/-- A call keeps the queue if the withdrawals it makes for unlocks that are due return, and
loses one of these unlocks if not. -/
theorem called_kept_or_lost (h : x.Kept) :
    DueWithdrawalsReturn server x call ∧ (call.called server x).Kept ∨
      ¬ DueWithdrawalsReturn server x call ∧ (call.called server x).Lost := by
  have hstart : (call.start x).deferrals.Kept := h
  rw [PastEventsCall.called, PastEventsCall.program, handlePastEvents_eq]
  unfold DueWithdrawalsReturn
  cases htake : takeDueEvents server call.round call.hubEventsSinceLastScan call.lastScannedBlock
      call.currentBlock (call.start x) with
  | error e state =>
      rw [final_bind_of_throws (returns_of_error htake)]
      exact Or.inl ⟨trivial, final_of_error takeDueEvents_handling hstart htake⟩
  | ok taken state =>
      obtain ⟨stakeHashes, dueEvents⟩ := taken
      have hhandling := post_of_ok takeDueEvents_handling hstart htake
      rw [final_bind_of_ok htake]
      cases hreturns :
          returns (handleEach (handleDelayedEvent server call.round call.currentBlock) dueEvents)
            state with
      | false =>
          rw [final_bind_of_throws hreturns]
          exact Or.inr ⟨by simp [hreturns],
            final_of_throws (handleDelayedEvents_handling dueEvents) hhandling hreturns⟩
      | true =>
          obtain ⟨delayedHashes, state', hhandle⟩ := exists_ok_of_returns hreturns
          rw [final_bind_of_ok hhandle]
          have hkept := post_of_ok (handleDelayedEvents_handling dueEvents) hhandling hhandle
          have hrest : Keeps (fun state => state.deferrals.Kept) (do
              let registrationHashes ←
                registerIfNeeded server call.round call.currentBlock call.forceRegistration
              return stakeHashes ++ delayedHashes ++ registrationHashes) := by
            mvcgen [-registerIfNeeded_keepsApart, registerIfNeeded_kept]
          exact Or.inl ⟨hreturns, hrest.final hkept⟩

/-- In every state of a run no unlock has been acted on before its block and each is in the
queue unless its withdrawal has returned, exactly when along the run no withdrawal for an
unlock that is due throws. -/
theorem deferred_unlocks_kept_iff (server : RelayServer) (calls : List PastEventsCall) :
    (∀ n x, run (deferralsStep server) .empty (calls.take n) = some x →
        (∀ it ∈ x.started, it.1.withdrawBlock ≤ it.2) ∧
          x.unlocks.Perm (x.queued ++ x.completed)) ↔
      Along (deferralsStep server) (DueWithdrawalsReturn server) .empty calls := by
  refine (along_iff_reached (I := Deferrals.Kept) (fun x call => ⟨_, rfl⟩) ?_ ?_ ?_
    Deferrals.kept_empty calls).symm
  · exact fun x h => ⟨h.timed.started, h.accounted⟩
  · rintro x call x' h hreturn hstep
    obtain rfl := Option.some.inj hstep
    rcases called_kept_or_lost h with ⟨-, hkept⟩ | ⟨hnot, -⟩
    · exact hkept
    · exact absurd hreturn hnot
  · rintro x call x' h hstep ⟨-, haccounted⟩
    obtain rfl := Option.some.inj hstep
    rcases called_kept_or_lost h with ⟨hreturn, -⟩ | ⟨-, hlost⟩
    · exact hreturn
    · exact absurd haccounted hlost.not_accounted

end Run

/-- A call whose logs have the given events and whose withdrawals get the given gas price. -/
def sampleDeferralCall (events : List TypedEvent) (gasPrice : Except String ℕ)
    (currentBlock : ℕ) : PastEventsCall where
  worker := { WorkerState.constructed sampleDependencies.config TxStore.empty with
    registrationManager :=
      { RegistrationManager.initialized sampleDependencies.config none with
        ownerAddress := some sampleWorker } }
  round := { sampleRound ⟨.ok currentBlock, fun _ _ => .ok events⟩ with
    blockNumber := currentBlock
    moments := fun _ => { sampleMoment with
      provider := { sampleProvider with getGasPrice := gasPrice }
      getRelayInfo := .ok ⟨true, sampleManager, true, sampleStakingServer.url⟩ } }
  hubEventsSinceLastScan := []
  lastScannedBlock := 6
  currentBlock
  forceRegistration := false

/-- The unlock of block 7 is due in block 1000, and the node does not answer then. -/
def lostUnlockCalls : List PastEventsCall :=
  [sampleDeferralCall [sampleStakeUnlocked] (.ok 10) 7,
    sampleDeferralCall [] (.error "timeout") 1000]

theorem unlock_lost :
    ¬ ∀ (server : RelayServer) (calls : List PastEventsCall) (x : Deferrals),
      run (deferralsStep server) .empty calls = some x →
        (∀ it ∈ x.started, it.1.withdrawBlock ≤ it.2) ∧
          x.unlocks.Perm (x.queued ++ x.completed) := by
  intro h
  have hkept := h sampleStakingServer lostUnlockCalls
    (lostUnlockCalls.foldl (fun x call => call.called sampleStakingServer x) .empty)
    (run_of_total (fun _ _ => rfl) _ _)
  exact absurd hkept.2 (by decide +kernel)

end RifRelayServer
