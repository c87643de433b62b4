import RifRelayServer.RoundSends
import RifRelayServer.EventDelivery

/-!
# Rounds are ticks that nothing disturbs

A round as the worker goes through it, with all that the registration manager knows
of the hub, is a tick of the system in which ticks overlap, when nothing else goes on:
the tick can be answered so that it leaves the same behind.
-/

namespace RifRelayServer.Ticks
open Async Runs Std.Do

set_option mvcgen.warning false

section Rounds

variable {server : RelayServer} {taken : Bool} {round : Round} {w : WorkerState} {s : TickState}
  {α β : Type}

theorem matches_shouldRegisterAgain (hlone : Lone round) (hR : Related server taken w s)
    (currentBlock : ℕ) :
    Matches (loneSystem server) (Related server taken) (fun again w' b => b = again ∧ SameManager w w')
      (RifRelayServer.shouldRegisterAgain server round currentBlock) w
      (shouldRegisterAgain server currentBlock) s := by
  have hpending : Matches (loneSystem server) (Related server taken)
      (fun pending w' b => b = pending ∧ SameManager w w')
      (do
        let isRelayPending ← RifRelayServer.findActionPending server round .relayCall none
        if isRelayPending then pure true
        else RifRelayServer.findActionPending server round .registerServer none) w
      isActivityPending s := by
    refine .bind (matches_findActionPending hlone hR .relayCall) ?_
    rintro _ w' isRelayPending t hfound ⟨rfl, hsame⟩
    cases isRelayPending with
    | true => exact .pure hfound ⟨rfl, hsame⟩
    | false =>
        exact (matches_findActionPending hlone hfound .registerServer).imp (fun _ _ h => h)
          fun _ _ _ h => ⟨h.1, hsame.trans h.2⟩
  let registrationBlockRate := server.dependencies.config.registrationBlockRate
  have hassoc : RifRelayServer.shouldRegisterAgain server round currentBlock = (do
      let isPendingActivityTransaction ← (do
        let isRelayPending ← RifRelayServer.findActionPending server round .relayCall none
        if isRelayPending then pure true
        else RifRelayServer.findActionPending server round .registerServer none)
      if registrationBlockRate = 0 ∨ isPendingActivityTransaction = true then return false
      let state ← get
      return registrationBlockRate ≤ currentBlock - state.latestTxBlockNumber) := by
    unfold RifRelayServer.shouldRegisterAgain
    rw [bind_assoc]
    refine bind_congr fun isRelayPending => ?_
    cases isRelayPending <;> rfl
  rw [hassoc]
  refine .bind hpending ?_
  rintro _ w' isPendingActivityTransaction t hfound ⟨rfl, hsame⟩
  dsimp only
  split
  · exact .pure hfound ⟨rfl, hsame⟩
  · refine .left_get (.right_get (.pure hfound ⟨?_, hsame⟩))
    rw [Relay.latestTxBlockNumber, WorkerState.latestTxBlockNumber, hfound.lastMinedActiveTransaction]

theorem matches_removeConfirmed (hlone : Lone round) (hR : Related server taken w s)
    (blockNumber : ℕ) :
    Matches (loneSystem server) (Related server taken) (fun _ w' _ => w'.apart = w.apart)
      (callManager server round
        (RifRelayServer.removeConfirmedTransactions server.dependencies · blockNumber)) w
      (removeConfirmedTransactions server blockNumber) s :=
  matches_callManager hlone (matches_removeConfirmedTransactions hR)

theorem matches_boostStuckPendingTransactions (hlone : Lone round) (hR : Related server taken w s)
    (blockNumber : ℕ) :
    Matches (loneSystem server) (Related server taken) (fun _ w' _ => w'.apart = w.apart)
      (RifRelayServer.boostStuckPendingTransactions server round blockNumber) w
      (boostStuckPendingTransactions server blockNumber) s := by
  refine .bind (matches_callManager hlone (matches_boost hR)) fun _ w' _ t hR' hapart => ?_
  refine .left_pure (matches_callManager hlone (matches_boost hR')) fun _ _ _ h => h.trans hapart

theorem Relay.foldl_handlePastHubEvent (currentBlockNumber : ℕ) (events : List TypedEvent)
    (relay : Relay) :
    events.foldl (Relay.handlePastHubEvent currentBlockNumber) relay =
      if anyReverted events then { relay with alerted := true, alertedBlock := currentBlockNumber }
      else relay := by
  induction events generalizing relay with
  | nil => rfl
  | cons event events ih =>
      rw [List.foldl_cons, ih]
      by_cases hevent : event.event = .transactionRelayedButRevertedByRecipient
      · simp [anyReverted, Relay.handlePastHubEvent, hevent]
      · have hstays : relay.handlePastHubEvent currentBlockNumber event = relay := by
          unfold Relay.handlePastHubEvent
          split
          next h => exact absurd h hevent
          · rfl
        simp [anyReverted, hstays, hevent]

/-- In whatever order the events come. -/
theorem matches_handlePastHubEvents (hR : Related server taken w s) (currentBlockNumber : ℕ)
    (hubEvents : List TypedEvent) :
    Matches (loneSystem server) (Related server taken) (fun _ _ _ => True)
      (RifRelayServer.handlePastHubEvents currentBlockNumber (sortLatestFirst hubEvents)) w
      (handlePastHubEvents currentBlockNumber hubEvents) s := by
  refine .of_ok rfl (.modify _) ?_ trivial
  dsimp only [TickState.updated]
  rw [RifRelayServer.foldl_handlePastHubEvent, anyReverted_sortLatestFirst,
    Relay.foldl_handlePastHubEvent]
  split
  · exact { hR with alerted := rfl, alertedBlock := rfl }
  · exact hR

theorem matches_leaveAlertedState (hR : Related server taken w s) (currentBlockNumber : ℕ) :
    Matches (loneSystem server) (Related server taken) (fun _ _ _ => True)
      (RifRelayServer.leaveAlertedState server currentBlockNumber) w
      (leaveAlertedState server currentBlockNumber) s := by
  refine .of_ok rfl (.modify _) ?_ trivial
  dsimp only [TickState.updated]
  rw [hR.alerted, hR.alertedBlock]
  split
  · exact { hR with alerted := rfl, alertedBlock := rfl }
  · exact { hR with }

theorem matches_finishRound (hlone : Lone round) (hR : Related server taken w s)
    (currentBlockNumber : ℕ) (hubEvents : List TypedEvent) (transactionHashes : List Hash)
    {isRegistered : Bool} (hregistered : isRegistered = w.registrationManager.isRegistered server) :
    Matches (loneSystem server) (Related server taken) (fun _ _ _ => True)
      (RifRelayServer.finishRound server round currentBlockNumber (sortLatestFirst hubEvents)
        transactionHashes) w
      (finishRound server currentBlockNumber hubEvents isRegistered) s := by
  refine .left_get ?_
  unfold finishRound
  rw [hregistered]
  split
  · exact .left_modify (.of_ok rfl (.modify _) { hR with ready := rfl } trivial)
  · refine .bind (matches_handlePastHubEvents hR _ hubEvents) fun _ w₁ _ t₁ hnoted _ => ?_
    refine .bind (matches_replenishStrategy hlone hnoted) fun replenishHashes w₂ _ t₂ hfilled _ => ?_
    refine .bind (matches_receive hlone hfilled .balance rfl _ id) ?_
    rintro workerBalance _ _ t₃ hread ⟨rfl, rfl⟩
    split
    · exact .left_modify (.of_ok rfl (.modify _) { hread with ready := rfl } trivial)
    · refine .left_modify (.right_modify ?_)
      have hready : Related server taken { counted w₂ with ready := true }
          (t₃.updated fun relay => { relay with ready := true }) := { hread with ready := rfl }
      exact (matches_leaveAlertedState hready currentBlockNumber).left_pure fun _ _ _ _ => trivial

theorem matches_moveCursor (hR : Related server taken w s) (currentBlockNumber : ℕ) :
    Matches (loneSystem server) (Related server taken) (fun _ w' _ => SameManager w w')
      (RifRelayServer.moveCursor currentBlockNumber) w (moveCursor currentBlockNumber) s :=
  .of_ok rfl (.modify _) { hR with lastScannedBlock := rfl } ⟨rfl, rfl⟩

theorem matches_handleChanges (hlone : Lone round) (hR : Related server taken w s)
    (hinitialized : w.initialized = true) (currentBlockNumber : ℕ) :
    Matches (loneSystem server) (Related server taken) (fun _ _ _ => True)
      (RifRelayServer.handleChanges server round currentBlockNumber) w
      (handleChanges server currentBlockNumber) s := by
  unfold RifRelayServer.handleChanges handleChanges handleEventsSinceLastScan
  simp only [Program.bind_assoc]
  refine .bind (matches_getAllHubEventsSinceLastScan hR) ?_
  rintro _ w₁ hubEvents t₁ hfetched ⟨rfl, hsame₁⟩
  refine .bind (matches_updateLatestTxBlockNumber hfetched hubEvents) ?_
  rintro _ w₂ _ t₂ hupdated ⟨rfl, hsame₂⟩
  refine .bind (matches_shouldRegisterAgain hlone hupdated currentBlockNumber) ?_
  rintro _ w₃ forceRegistration t₃ hchecked ⟨rfl, hsame₃⟩
  have hstays : w₃.initialized = true :=
    (hsame₁.trans (hsame₂.trans hsame₃)).initialized.trans hinitialized
  refine .left_get (.bind (matches_handlePastEvents hlone hchecked hstays _ _ _ _) ?_)
  rintro transactionHashes w₄ view t₄ hhandled hregistered
  refine .bind (matches_removeConfirmed hlone hhandled currentBlockNumber) ?_
  rintro _ w₅ _ t₅ hremoved hapart
  refine .bind (matches_boostStuckPendingTransactions hlone hremoved currentBlockNumber) ?_
  rintro _ w₆ _ t₆ hboosted hapart'
  refine .right (.done _ t₆) (.bind (matches_moveCursor hboosted currentBlockNumber) ?_)
  rintro _ w₇ _ t₇ hscanned hsame₇
  refine matches_finishRound hlone hscanned currentBlockNumber hubEvents transactionHashes ?_
  have hsame := (SameManager.of_apart (hapart'.trans hapart)).trans hsame₇
  exact hregistered.trans (congrArg _ hsame.registrationManager.symm)

theorem matches_refreshGasPrice (hlone : Lone round) (hR : Related server taken w s) :
    Matches (loneSystem server) (Related server taken) (fun _ w' _ => SameManager w w')
      (RifRelayServer.refreshGasPrice server round) w refreshGasPrice s := by
  refine .bind (matches_receive hlone hR .gasPrice rfl _ id) ?_
  rintro _ _ gasPrice t hread ⟨rfl, rfl⟩
  refine .left_modify (.right_modify ?_)
  have hset : Related server taken { counted w with gasPrice }
      (t.updated fun relay => { relay with gasPrice }) := { hread with gasPrice := rfl }
  change Matches _ _ _ (if gasPrice = 0 then throw _ else pure ()) _
    (if gasPrice = 0 then .fail _ else pure ()) _
  split
  · exact .throw hset
  · exact .pure hset ⟨rfl, rfl⟩

theorem matches_refreshBalance (hlone : Lone round) (hR : Related server taken w s) :
    Matches (loneSystem server) (Related server taken)
      (fun _ w' (managerBalance : ℕ) => w'.initialized = w.initialized ∧
        w'.registrationManager.balanceRequired.isSatisfied =
          decide (server.dependencies.config.managerMinBalance ≤ (managerBalance : ℤ)))
      (RifRelayServer.refreshBalance server round) w (receive .balance) s := by
  refine .left_after (matches_receive hlone hR .balance rfl _ id) ?_
  rintro balance _ _ t hread ⟨rfl, rfl⟩
  refine ⟨_, _, rfl, { hread with }, rfl, ?_⟩
  dsimp only [RegistrationManager.setBalance, AmountRequired.isSatisfied]
  rw [hread.managerMinBalance]

theorem matches_refreshAndHandleChanges (hlone : Lone round) (hR : Related server taken w s)
    (hinitialized : w.initialized = true) :
    Matches (loneSystem server) (Related server taken) (fun _ _ _ => True)
      (do
        modify fun state => { state with lastRefreshBlock := round.blockNumber }
        RifRelayServer.refreshGasPrice server round
        RifRelayServer.refreshBalance server round
        let state ← get
        if !state.registrationManager.balanceRequired.isSatisfied then
          RifRelayServer.setReadyState false
          return []
        RifRelayServer.handleChanges server round round.blockNumber) w
      (refreshAndHandleChanges server round.blockNumber) s := by
  refine .left_modify (.right_modify ?_)
  have hset : Related server taken { w with lastRefreshBlock := round.blockNumber }
      (s.updated fun relay => { relay with lastRefreshBlock := round.blockNumber }) :=
    { hR with lastRefreshBlock := rfl }
  refine .bind (matches_refreshGasPrice hlone hset) fun _ w₁ _ t₁ hpriced hsame => ?_
  refine .bind (matches_refreshBalance hlone hpriced) ?_
  rintro _ w₂ managerBalance t₂ hread ⟨hkept, hsatisfied⟩
  refine .left_get ?_
  rw [hsatisfied]
  by_cases hpoor : (managerBalance : ℤ) < server.dependencies.config.managerMinBalance
  · rw [if_pos hpoor, decide_eq_false (not_le.mpr hpoor)]
    exact .left_modify (.of_ok rfl (.modify _) { hread with ready := rfl } trivial)
  · rw [if_neg hpoor, decide_eq_true (not_lt.mp hpoor)]
    exact matches_handleChanges hlone hread
      (hkept.trans (hsame.initialized.trans hinitialized)) round.blockNumber

theorem Related.shouldRefreshState (hR : Related server taken w s) (currentBlock : ℕ) :
    s.relay.shouldRefreshState server currentBlock = w.shouldRefreshState server currentBlock := by
  unfold Relay.shouldRefreshState Relay.isReady WorkerState.shouldRefreshState WorkerState.isReady
  rw [hR.lastRefreshBlock, hR.lastSuccessfulRounds, hR.ready]

theorem matches_scanBlock (hlone : Lone round) (hR : Related server taken w s)
    (hinitialized : w.initialized = true) :
    Matches (loneSystem server) (Related server taken) (fun _ _ _ => True)
      (do
        let state ← get
        if round.blockNumber ≤ state.scan.lastScannedBlock then throw attemptToScanOlderBlock
        if !state.shouldRefreshState server round.blockNumber then return []
        modify fun state => { state with lastRefreshBlock := round.blockNumber }
        RifRelayServer.refreshGasPrice server round
        RifRelayServer.refreshBalance server round
        let state ← get
        if !state.registrationManager.balanceRequired.isSatisfied then
          RifRelayServer.setReadyState false
          return []
        RifRelayServer.handleChanges server round round.blockNumber) w
      (scanBlock server round.blockNumber) s := by
  refine .left_get (.right_get ?_)
  rw [hR.lastScannedBlock, hR.shouldRefreshState]
  by_cases holder : round.blockNumber ≤ w.scan.lastScannedBlock
  · rw [if_pos holder, if_pos holder]
    exact .of_error rfl (.fail _ s) hR
  · rw [if_neg holder, if_neg holder]
    cases w.shouldRefreshState server round.blockNumber with
    | true => exact matches_refreshAndHandleChanges hlone hR hinitialized
    | false => exact .pure hR trivial

theorem initRegistrationManager_related (round : Round) :
    ⦃fun w => ⌜Related server taken w s⌝⦄ initRegistrationManager server round
    ⦃post⟨fun _ w => ⌜Related server taken w s ∧ w.registrationManager.isInitialized = true⌝,
      fun _ w => ⌜Related server taken w s⌝⟩⦄ := by
  mvcgen [initRegistrationManager, queryLatestWorkerAddedEvent, scanLogs, awaited,
    updateRegistrationManager, -awaited_keepsApart]
  next _ hR _ _ _ _ _ _ => exact ⟨{ hR with isInitialized := fun _ => rfl }, rfl⟩
  next _ hR _ _ _ => exact ⟨{ hR with isInitialized := fun _ => rfl }, rfl⟩

theorem matches_init (hlone : Lone round) (hR : Related server taken w s) :
    Matches (loneSystem server) (Related server taken) (fun _ w' _ => w'.initialized = true)
      (RifRelayServer.init server round) w init s := by
  refine .left_get (.right_get ?_)
  rw [hR.initialized]
  cases hinitialized : w.initialized with
  | true => exact .of_error rfl (.fail _ s) hR
  | false =>
      refine matches_receive_first hlone hR .init rfl fun code => ?_
      have hfailed : ∀ e, Ends (loneSystem server) (receive .init >>= fun _ =>
          updateRelay fun relay => { relay with initialized := true }) s (.error e) s :=
        fun e => (ends_receive .init (.error e) rfl).bind_error
      cases hdeployed : isContractDeployed code with
      | false =>
          simp only [Bool.not_false, if_true]
          exact .of_error rfl (hfailed _) hR.counted
      | true =>
          simp only [Bool.not_true, Bool.false_eq_true, if_false]
          have hfresh : (counted w).initialized = true → False := by
            rw [show (counted w).initialized = false from hinitialized]
            exact Bool.false_ne_true
          obtain ⟨w₁, hset, hconstructed⟩ : ∃ w₁, updateRegistrationManager
              (fun _ => .constructed server.dependencies.config) (counted w) = .ok () w₁ ∧
              Related server taken w₁ s := ⟨_, rfl, { hR with
                managerMinBalance := rfl
                isInitialized := fun h => (hfresh h).elim }⟩
          refine .left_ok hset ?_
          have hpost := initRegistrationManager_related round w₁ hconstructed
          simp only [wp, PredTrans.apply, EStateM.run] at hpost
          cases hrun : initRegistrationManager server round w₁ with
          | error e w₂ =>
              rw [hrun] at hpost
              exact .of_error (Keeping.bind_of_error hrun) (hfailed e) hpost
          | ok _ w₂ =>
              rw [hrun] at hpost
              refine .left_ok hrun (.bind (matches_receive hlone hpost.1 .init rfl _ id) ?_)
              rintro _ _ _ t hread ⟨-, rfl⟩
              exact .of_ok rfl (.modify _) { hread with
                initialized := rfl
                isInitialized := fun _ => hpost.2 } rfl

theorem matches_worker (hlone : Lone round) (hR : Related server taken w s) :
    Matches (loneSystem server) (Related server taken) (fun _ _ _ => True)
      (RifRelayServer.worker server round) w (worker server round.blockNumber) s := by
  refine .left_get (.right_get ?_)
  rw [hR.initialized]
  cases hinitialized : w.initialized with
  | true => exact matches_scanBlock hlone hR hinitialized
  | false =>
      refine .bind (matches_init hlone hR) fun _ w' _ t hR' hinitialized => ?_
      exact matches_scanBlock hlone hR' hinitialized

theorem ends_workerSemaphore (hlone : Lone round) (hR : Related server false w s) (id : ℕ) :
    ∃ outcome t, Ends (loneSystem server) (workerSemaphore server id round.blockNumber) s outcome t ∧
      Related server false (Keeping.final (RifRelayServer.workerSemaphore server round) w) t := by
  have hacquired : Related server true w (s.updated (Relay.acquired id)) :=
    { hR with workerSemaphoreOn := rfl }
  have hworker := matches_worker hlone hacquired
  have hstart : ∀ {outcome outcome' t t'}, Ends (loneSystem server) (worker server round.blockNumber)
      (s.updated (Relay.acquired id)) outcome t →
      Ends (loneSystem server) (handleOutcome id outcome) t outcome' t' →
      Ends (loneSystem server) (workerSemaphore server id round.blockNumber) s outcome' t' := by
    intro outcome outcome' t t' hends hhandled
    refine Ends.get.bind ?_
    rw [hR.workerSemaphoreOn]
    exact (Ends.modify _).bind (hends.attempt.bind hhandled)
  cases hrun : RifRelayServer.worker server round w with
  | ok transactionHashes w' =>
      obtain ⟨_, t, hends, hended, -⟩ := hworker.ends_of_ok hrun
      have hhandled : Ends (loneSystem server) (handleOutcome id (.ok ())) t (.ok ())
          ((t.updated Relay.completed).updated (Relay.released id)) :=
        (Ends.answered (.ok ()) rfl).bind ((Ends.modify _).bind
          ((Ends.answered (.ok ()) rfl).bind (Ends.modify _)))
      refine ⟨_, _, hstart hends hhandled, ?_⟩
      rw [RifRelayServer.workerSemaphore, Keeping.final_bind_of_ok hrun]
      exact { hended with
        workerSemaphoreOn := rfl
        lastSuccessfulRounds := congrArg nextSuccessfulRound hended.lastSuccessfulRounds }
  | error e w' =>
      obtain ⟨t, hends, hended⟩ := hworker.ends_of_error hrun
      have hhandled : Ends (loneSystem server) (handleOutcome id (.error e)) t (.error e)
          ((t.updated Relay.threw).updated (Relay.released id)) :=
        (Ends.modify _).bind ((Ends.answered (.ok ()) rfl).bind
          ((Ends.modify _).bind (.fail e _)))
      refine ⟨_, _, hstart hends hhandled, ?_⟩
      rw [Keeping.final, RifRelayServer.workerSemaphore, Keeping.bind_of_error hrun]
      exact { hended with workerSemaphoreOn := rfl }

/-- What a tick does once its block is fetched. -/
def scanFetched (server : RelayServer) (id blockNumber : ℕ) : TickM Unit := do
  let s ← get
  if s.relay.lastScannedBlock < blockNumber then workerSemaphore server id blockNumber

theorem ends_scanFetched (hlone : Lone round) (hR : Related server false w s) (id : ℕ) :
    ∃ outcome t, Ends (loneSystem server) (scanFetched server id round.blockNumber) s outcome t ∧
      Related server false (Keeping.final (RifRelayServer.intervalHandler server round) w) t := by
  have hround : Keeping.final (RifRelayServer.intervalHandler server round) w =
      Keeping.final (if w.scan.lastScannedBlock < round.blockNumber then
        RifRelayServer.workerSemaphore server round else pure ()) { w with received := 0 } := rfl
  have hstarted : Related server false { w with received := 0 } s := { hR with }
  rw [hround]
  by_cases hnew : w.scan.lastScannedBlock < round.blockNumber
  · obtain ⟨outcome, t, hends, hended⟩ := ends_workerSemaphore hlone hstarted id
    rw [if_pos hnew]
    refine ⟨outcome, t, Ends.get.bind ?_, hended⟩
    rw [hR.lastScannedBlock, if_pos hnew]
    exact hends
  · rw [if_neg hnew]
    refine ⟨.ok (), s, Ends.get.bind ?_, hstarted⟩
    rw [hR.lastScannedBlock, if_neg hnew]
    exact .done () s

theorem ends_init (hlone : Lone round) (hR : Related server false w s) :
    ∃ outcome t, Ends (loneSystem server) init s outcome t ∧
      Related server false (Keeping.final ((WorkerEvent.init round).program server) w) t := by
  have hstarted : Related server false { w with received := 0 } s := { hR with }
  have hinit := matches_init hlone hstarted
  change ∃ outcome t, _ ∧ Related server false
    (Keeping.final (RifRelayServer.init server round) { w with received := 0 }) t
  unfold Keeping.final
  cases hrun : RifRelayServer.init server round { w with received := 0 } with
  | ok _ w' =>
      obtain ⟨_, t, hends, hended, -⟩ := hinit.ends_of_ok hrun
      exact ⟨_, t, hends, hended⟩
  | error e w' =>
      obtain ⟨t, hends, hended⟩ := hinit.ends_of_error hrun
      exact ⟨_, t, hends, hended⟩

end Rounds

section Runs

variable {server : RelayServer} {w w' : WorkerState} {state : Ticking}

/-- Nothing but the rounds of the worker goes on. -/
def LoneEvent : WorkerEvent → Prop
  | .init round | .tick round => Lone round
  | .blockUnavailable | .timedOut => True
  | .managerCall _ => False

/-- The worker and the ticks are left alike, and none of the ticks is under way. -/
structure Alike (server : RelayServer) (w : WorkerState) (state : Ticking) : Prop where
  related : Related server false w state.shared
  ended : ∀ program ∈ state.programs, program.question? = none

/-- The job with the number is answered, or a call is. -/
def Answered (id : ℕ) : TickEvent → Prop
  | .start _ => False
  | .resume other _ => other = id
  | .outside event => event.isAnswer = true

/-- What goes on among the ticks for one event of the worker: a job is started, and it and the
calls that it waits for are answered. A tick is told of the latest block what the event says. -/
inductive LoneTick (id : ℕ) : WorkerEvent → List TickEvent → Prop
  | init (round : Round) {answers : List TickEvent}
      (hanswers : ∀ event ∈ answers, Answered id event) :
      LoneTick id (.init round) (.start .init :: answers)
  | tick (round : Round) {first : ∀ question : Question, question.Answer}
      {answers : List TickEvent}
      (hfirst : first .latestBlockOrTimeout = .ok (some round.blockNumber))
      (hanswers : ∀ event ∈ answers, Answered id event) :
      LoneTick id (.tick round) (.start .tick :: .resume id first :: answers)
  | blockUnavailable {first : ∀ question : Question, question.Answer} {e : String}
      (hfirst : first .latestBlockOrTimeout = .error e) :
      LoneTick id .blockUnavailable [.start .tick, .resume id first]
  | timedOut {first second : ∀ question : Question, question.Answer} {e : String}
      (hfirst : first .latestBlockOrTimeout = .ok none) (hsecond : second .latestBlock = .error e) :
      LoneTick id .timedOut [.start .tick, .resume id first, .resume id second]

/-- The ticks of the worker's events one after the other, each over before the next one. -/
inductive LoneTicks (server : RelayServer) : WorkerState → Ticking → List WorkerEvent →
    List TickEvent → WorkerState → Ticking → Prop
  | nil {w : WorkerState} {state : Ticking} (halike : Alike server w state) :
      LoneTicks server w state [] [] w state
  | cons {w w₁ w' : WorkerState} {state state₁ state' : Ticking} {event : WorkerEvent}
      {events : List WorkerEvent} {ticks others : List TickEvent}
      (halike : Alike server w state) (hevent : workerStep server w event = some w₁)
      (htick : LoneTick state.programs.length event ticks)
      (hrun : run (tickStep server) state ticks = some state₁)
      (hcount : state₁.programs.length = state.programs.length + 1)
      (hrest : LoneTicks server w₁ state₁ events others w' state') :
      LoneTicks server w state (event :: events) (ticks ++ others) w' state'

theorem LoneTicks.run {events : List WorkerEvent} {ticks : List TickEvent} {state' : Ticking}
    (h : LoneTicks server w state events ticks w' state') :
    Runs.run (tickStep server) state ticks = some state' := by
  induction h with
  | nil => rfl
  | cons _ _ _ hrun _ _ ih => exact run_append_eq_some_iff.mpr ⟨_, hrun, ih⟩

theorem answered_of_turnOf {id : ℕ} {answers : List TickEvent}
    (hturns : ∀ event ∈ answers, TurnOf id event)
    (hallowed : ∀ change, .outside change ∈ answers → change.isAnswer = true) :
    ∀ event ∈ answers, Answered id event := by
  intro event hevent
  cases event with
  | start job => exact hturns _ hevent
  | resume other answers => exact hturns _ hevent
  | outside change => exact hallowed change hevent

theorem ended_concat {programs : List (TickM Unit)} {outcome : Except String Unit}
    (hended : ∀ program ∈ programs, program.question? = none) :
    ∀ program ∈ programs ++ [Program.ended outcome], program.question? = none := by
  intro program hprogram
  rcases List.mem_append.mp hprogram with hbefore | hlast
  · exact hended program hbefore
  · rw [List.mem_singleton.mp hlast]
    cases outcome <;> rfl

/-- A program that has got to its next question and can end alone is answered and ends. -/
theorem run_answers {program : TickM Unit} {programs : List (TickM Unit)} {s t : TickState}
    {outcome : Except String Unit} (hends : Ends (loneSystem server) program s outcome t) :
    ∃ answers : List TickEvent, (∀ event ∈ answers, Answered programs.length event) ∧
      Runs.run (tickStep server) ⟨(program.advance s).1, programs ++ [(program.advance s).2]⟩ answers =
        some ⟨t, programs ++ [Program.ended outcome]⟩ := by
  have hid : programs.length < (programs ++ [(program.advance s).2]).length := by simp
  have hset : ∀ last, (programs ++ [(program.advance s).2]).set programs.length last =
      programs ++ [last] := by simp
  obtain ⟨answers, hturns, hanswers⟩ := hends.run _ hid
  rw [hset, hset] at hanswers
  obtain ⟨hrun, hallowed⟩ := run_of_restrict hanswers
  exact ⟨answers, answered_of_turnOf hturns hallowed, hrun⟩

theorem Related.reset {taken : Bool} {s : TickState} (h : Related server taken w s) :
    Related server taken { w with lastSuccessfulRounds := 0 } (s.updated Relay.reset) :=
  { h with lastSuccessfulRounds := rfl }

/-- Where the tick waits for its block, and what it does with each answer. -/
theorem exists_advance_intervalHandler (server : RelayServer) (id : ℕ) (s : TickState) :
    ∃ next : Question.latestBlockOrTimeout.Answer → TickM Unit,
      (intervalHandler server id).advance s = (s, .await .latestBlockOrTimeout next) ∧
      (∀ blockNumber, next (.ok (some blockNumber)) = scanFetched server id blockNumber) ∧
      (∀ e t, (next (.error e)).advance t = (t.updated Relay.reset, .fail e)) ∧
      ∃ late : Question.latestBlock.Answer → TickM Unit,
        (∀ t, (next (.ok none)).advance t = (t.updated Relay.reset, .await .latestBlock late)) ∧
        ∀ e t, (late (.error e)).advance t = (t.updated Relay.reset, .fail e) :=
  ⟨_, rfl, fun _ => rfl, fun _ _ => rfl, _, fun _ => rfl, fun _ _ => rfl⟩

/-- For each event of the worker's run a job, alone and answered until it ends, leaves the same
behind. -/
theorem run_event {event : WorkerEvent} (hlone : LoneEvent event) (halike : Alike server w state)
    (hstep : workerStep server w event = some w') :
    ∃ ticks state', LoneTick state.programs.length event ticks ∧
      run (tickStep server) state ticks = some state' ∧ Alike server w' state' ∧
      state'.programs.length = state.programs.length + 1 := by
  obtain rfl := Option.some.inj hstep
  obtain ⟨shared, programs⟩ := state
  obtain ⟨hR, hended⟩ := halike
  obtain ⟨next, hadvance, hfetched, hunavailable, late, htimedOut, hlate⟩ :=
    exists_advance_intervalHandler server programs.length shared
  have hstarted : tickStep server ⟨shared, programs⟩ (.start .tick) =
      some ⟨shared, programs ++ [.await .latestBlockOrTimeout next]⟩ := by
    change some (Async.State.mk ((intervalHandler server programs.length).advance shared).1
      (programs ++ [((intervalHandler server programs.length).advance shared).2])) = _
    rw [hadvance]
  have hanswered : ∀ first : ∀ question : Question, question.Answer,
      tickStep server ⟨shared, programs ++ [.await .latestBlockOrTimeout next]⟩
        (.resume programs.length first) =
      some ⟨((next (first .latestBlockOrTimeout)).advance shared).1,
        programs ++ [((next (first .latestBlockOrTimeout)).advance shared).2]⟩ :=
    step_resume_last rfl
  cases event with
  | init round =>
      obtain ⟨outcome, t, hends, hleft⟩ := ends_init hlone hR
      obtain ⟨answers, hanswers, hrun⟩ := @run_answers _ _ programs _ _ _ hends
      exact ⟨_, _, .init round hanswers, run_cons_eq_some_iff.mpr ⟨_, rfl, hrun⟩,
        ⟨hleft, ended_concat hended⟩, by simp⟩
  | tick round =>
      obtain ⟨outcome, t, hends, hleft⟩ := ends_scanFetched hlone hR programs.length
      obtain ⟨answers, hanswers, hrun⟩ := @run_answers _ _ programs _ _ _ hends
      let first : ∀ question : Question, question.Answer :=
        Function.update (fun _ => default) .latestBlockOrTimeout (.ok (some round.blockNumber))
      have hfirst : first .latestBlockOrTimeout = .ok (some round.blockNumber) :=
        Function.update_self _ _ _
      have hresumed := hanswered first
      rw [hfirst, hfetched] at hresumed
      exact ⟨_, _, .tick round hfirst hanswers, run_cons_eq_some_iff.mpr ⟨_, hstarted,
        run_cons_eq_some_iff.mpr ⟨_, hresumed, hrun⟩⟩, ⟨hleft, ended_concat hended⟩, by simp⟩
  | blockUnavailable =>
      let first : ∀ question : Question, question.Answer :=
        Function.update (fun _ => default) .latestBlockOrTimeout (.error "")
      have hfirst : first .latestBlockOrTimeout = .error "" := Function.update_self _ _ _
      have hresumed := hanswered first
      rw [hfirst, hunavailable] at hresumed
      exact ⟨_, _, .blockUnavailable hfirst, run_cons_eq_some_iff.mpr ⟨_, hstarted,
        run_cons_eq_some_iff.mpr ⟨_, hresumed, rfl⟩⟩,
        ⟨hR.reset, @ended_concat programs (.error "") hended⟩, by simp⟩
  | timedOut =>
      let first : ∀ question : Question, question.Answer :=
        Function.update (fun _ => default) .latestBlockOrTimeout (.ok none)
      let second : ∀ question : Question, question.Answer :=
        Function.update (fun _ => default) .latestBlock (.error "")
      have hfirst : first .latestBlockOrTimeout = .ok none := Function.update_self _ _ _
      have hsecond : second .latestBlock = .error "" := Function.update_self _ _ _
      have hresumed := hanswered first
      rw [hfirst, htimedOut] at hresumed
      have hresumedLate : tickStep server ⟨shared.updated Relay.reset,
          programs ++ [.await .latestBlock late]⟩ (.resume programs.length second) =
        some ⟨((late (second .latestBlock)).advance (shared.updated Relay.reset)).1,
          programs ++ [((late (second .latestBlock)).advance (shared.updated Relay.reset)).2]⟩ :=
        step_resume_last rfl second
      rw [hsecond, hlate] at hresumedLate
      exact ⟨_, _, .timedOut hfirst hsecond, run_cons_eq_some_iff.mpr ⟨_, hstarted,
        run_cons_eq_some_iff.mpr ⟨_, hresumed, run_cons_eq_some_iff.mpr ⟨_, hresumedLate, rfl⟩⟩⟩,
        ⟨hR.reset.reset, @ended_concat programs (.error "") hended⟩, by simp⟩
  | managerCall call => exact hlone.elim

theorem run_events {events : List WorkerEvent} (hlone : ∀ event ∈ events, LoneEvent event)
    (halike : Alike server w state) (hrun : run (workerStep server) w events = some w') :
    ∃ ticks state', LoneTicks server w state events ticks w' state' ∧ Alike server w' state' := by
  induction events generalizing w state with
  | nil =>
      obtain rfl := Option.some.inj hrun
      exact ⟨[], state, .nil halike, halike⟩
  | cons event events ih =>
      obtain ⟨w₁, hstep, hrest⟩ := run_cons_eq_some_iff.mp hrun
      obtain ⟨hevent, hevents⟩ := List.forall_mem_cons.mp hlone
      obtain ⟨ticks, state₁, htick, hticks, halike₁, hcount⟩ := run_event hevent halike hstep
      obtain ⟨others, state', hothers, halike'⟩ := ih hevents halike₁ hrest
      exact ⟨_, state', .cons halike hstep htick hticks hcount hothers, halike'⟩

theorem alike_launched (server : RelayServer) (txStore : TxStore) :
    Alike server (.constructed server.dependencies.config txStore) (launched server txStore) where
  related := {
    workerSemaphoreOn := rfl
    initialized := rfl
    lastScannedBlock := rfl
    lastRefreshBlock := rfl
    ready := rfl
    lastSuccessfulRounds := rfl
    gasPrice := rfl
    alerted := rfl
    alertedBlock := rfl
    lastMinedActiveTransaction := rfl
    txStore := rfl
    nonces := rfl
    nonceMutex := rfl
    workerBalance := rfl
    workerMinBalance := rfl
    managerMinBalance := rfl
    isInitialized := fun h => by cases h }
  ended := fun _ h => by cases h

/-- Whatever the rounds are answered, the ticks have a run in which each event of the worker is
one tick, or one `init`, that is over before the next one, and in which nothing else comes but
the answers to it and to its calls. It leaves the server as the rounds do. -/
theorem rounds_are_lone_ticks (server : RelayServer) (txStore : TxStore) {events : List WorkerEvent}
    (hlone : ∀ event ∈ events, LoneEvent event)
    (hrun : run (workerStep server) (.constructed server.dependencies.config txStore) events =
      some w) :
    ∃ ticks state, run (tickStep server) (launched server txStore) ticks = some state ∧
      LoneTicks server (.constructed server.dependencies.config txStore) (launched server txStore)
        events ticks w state ∧ Alike server w state := by
  obtain ⟨ticks, state, hticks, halike⟩ := run_events hlone (alike_launched server txStore) hrun
  exact ⟨ticks, state, hticks.run, hticks, halike⟩

/-- A round in which the worker initializes the server and finds the stake. -/
theorem rounds_are_lone_ticks_answering :
    ∃ ticks state, run (tickStep sampleStakingServer)
        (launched sampleStakingServer TxStore.empty) ticks = some state ∧
      LoneTicks sampleStakingServer (.constructed sampleDependencies.config TxStore.empty)
        (launched sampleStakingServer TxStore.empty) [.tick (sampleRound answering)] ticks
        (stateAfterTick answering) state ∧
      Alike sampleStakingServer (stateAfterTick answering) state :=
  have hrun : run (workerStep sampleStakingServer) (.constructed sampleDependencies.config
      TxStore.empty) [.tick (sampleRound answering)] = some (stateAfterTick answering) := rfl
  rounds_are_lone_ticks sampleStakingServer TxStore.empty (fun event h => by
    obtain rfl := List.mem_singleton.mp h
    exact fun _ => rfl) hrun

end Runs

end RifRelayServer.Ticks
