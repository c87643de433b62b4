import RifRelayServer.RoundAnswers

/-!
# What a round sends, a tick can send

The withdrawals, registrations and refills of a round are matched by those of a
tick: the tick can be told what the registration manager concludes from all that it
knows, and the calls that it waits for can be answered first.
-/

namespace RifRelayServer.Ticks
open Async Runs

section Withdrawals

variable {server : RelayServer} {taken : Bool} {round : Round} {w : WorkerState} {s : TickState}
  {α β γ : Type}

/-- The tick may be told later what the round is told now; a failure it is told as one. -/
theorem matches_receive_first (hlone : Lone round) (hR : Related server taken w s)
    (question : Question) (henabled : isEnabled s question = true)
    {answer : Moment → Except String α} {f : α → RoundM β} {g : question.Value → TickM γ}
    {S : β → WorkerState → γ → Prop}
    (h : ∀ a, Matches (loneSystem server) (Related server taken) S (f a) (counted w)
      (receive question >>= g) s) :
    Matches (loneSystem server) (Related server taken) S (RifRelayServer.receive server round answer >>= f)
      w (receive question >>= g) s := by
  cases hanswer : answer (round.moments w.received) with
  | ok a => exact .left_ok (receive_of_ok hlone hanswer) (h a)
  | error e =>
      exact .of_error (Keeping.bind_of_error (receive_of_error hlone hanswer))
        (ends_receive question (.error e) henabled).bind_error hR.counted

theorem matches_sent (hlone : Lone round) (hR : Related server taken w s) {w₀ : WorkerState}
    (hsame : SameManager w₀ w) (details : SendTransactionDetails)
    {f : SignedTransactionDetails → β} :
    Matches (loneSystem server) (Related server taken) (fun _ w' _ => SameManager w₀ w')
      (callManager server round (sendTransaction server.dependencies · details) >>= fun sent =>
        pure (f sent)) w (callAndWait server (.sendTransaction details)) s :=
  (matches_sendTransaction hlone hR details).left_pure fun _ _ _ h =>
    hsame.trans (SameManager.of_apart h)

theorem matches_noteWithdrawals (hR : Related server taken w s) {w₀ : WorkerState}
    (hsame : SameManager w₀ w) {note : Withdrawals → Withdrawals} {f : PUnit → RoundM α}
    {program : TickM β} {S : α → WorkerState → β → Prop}
    (h : ∀ w', Related server taken w' s → SameManager w₀ w' →
      Matches (loneSystem server) (Related server taken) S (f ()) w' program s) :
    Matches (loneSystem server) (Related server taken) S (noteWithdrawals note >>= f) w program s :=
  .left_modify (h _ { hR with } ⟨hsame.1, hsame.2⟩)

theorem matches_sendEthBalanceToOwner (hlone : Lone round) (hR : Related server taken w s)
    (signer : Address) (currentBlock : ℕ) :
    Matches (loneSystem server) (Related server taken) (fun _ w' _ => SameManager w w')
      (RifRelayServer.sendEthBalanceToOwner server round signer currentBlock) w
      (sendEthBalanceToOwner server signer currentBlock) s := by
  refine .left_get ?_
  unfold sendEthBalanceToOwner
  cases howner : w.registrationManager.ownerAddress with
  | none =>
      exact .right (ends_receive (.withdrawal signer) (.ok none) rfl) (.pure hR (SameManager.refl w))
  | some owner =>
      dsimp only
      refine matches_receive_first hlone hR (.withdrawal signer) rfl fun gasPrice => ?_
      let withdrawal (balance : ℕ) : Option Withdrawal :=
        if balance < minTxGasCost * gasPrice then none
        else some ⟨owner, (balance : ℤ) - (minTxGasCost * gasPrice : ℕ), gasPrice⟩
      refine .bind (matches_receive hlone hR.counted (.withdrawal signer) rfl _ withdrawal) ?_
      rintro balance _ _ t hread ⟨rfl, rfl⟩
      have hsame : SameManager w (counted (counted w)) := ⟨rfl, rfl⟩
      refine matches_noteWithdrawals hread hsame fun w₁ hnoted hsame => ?_
      by_cases hpoor : balance < minTxGasCost * gasPrice
      · simp only [withdrawal, if_pos hpoor]
        exact .pure hnoted hsame
      · simp only [withdrawal, if_neg hpoor]
        exact matches_noteWithdrawals hnoted hsame fun w₂ hcreated hsame' =>
          matches_sent hlone hcreated hsame' _

theorem matches_withdrawAllFunds (hlone : Lone round) (hR : Related server taken w s)
    (withdrawManager : Bool) (currentBlock : ℕ) :
    Matches (loneSystem server) (Related server taken) (fun _ w' _ => SameManager w w')
      (RifRelayServer.withdrawAllFunds server round withdrawManager currentBlock) w
      (withdrawAllFunds server withdrawManager currentBlock) s := by
  refine .bind (matches_sendEthBalanceToOwner hlone hR server.workerAddress currentBlock) ?_
  rintro workerHashes w' _ t hR' hsame
  cases withdrawManager with
  | true =>
      refine .left_pure ?_ fun _ _ _ h => h
      exact (matches_sendEthBalanceToOwner hlone hR' server.managerAddress currentBlock).imp
        (fun _ _ h => h) fun _ _ _ h => hsame.trans h
  | false => exact .pure hR' hsame

theorem matches_refreshStake (hlone : Lone round) (hR : Related server taken w s) :
    Matches (loneSystem server) (Related server taken) (fun _ _ _ => True)
      (RifRelayServer.refreshStake server round) w (receive .stakeInfo) s := by
  refine .left_after (matches_receive hlone hR .stakeInfo rfl _ fun _ => ()) ?_
  rintro stakeInfo _ _ t hread ⟨-, rfl⟩
  change ∃ c w'', (if stakeInfo.stake = 0 then pure () else
    updateRegistrationManager (.setStake stakeInfo)) _ = _ ∧ _
  by_cases hnone : stakeInfo.stake = 0
  · rw [if_pos hnone]
    exact ⟨_, _, rfl, { hread with }, trivial⟩
  · rw [if_neg hnone]
    exact ⟨_, _, rfl, { hread with }, trivial⟩

theorem matches_handleStakeEvent (hlone : Lone round) (hR : Related server taken w s)
    (currentBlock : ℕ) (eventData : TypedEvent) :
    Matches (loneSystem server) (Related server taken) (fun _ _ _ => True)
      (RifRelayServer.handleStakeEvent server round currentBlock eventData) w
      (handleStakeEvent server currentBlock eventData.event) s := by
  unfold RifRelayServer.handleStakeEvent handleStakeEvent
  cases heventData : eventData.event with
  | stakeAdded =>
      refine .bind (matches_refreshStake hlone hR) fun _ _ _ _ hread _ => ?_
      exact .pure hread trivial
  | stakeUnlocked =>
      refine .bind (matches_refreshStake hlone hR) fun _ _ _ _ hread _ => ?_
      exact .left_modify (.left_modify (.pure { hread with } trivial))
  | stakeWithdrawn =>
      refine .bind (matches_refreshStake hlone hR) fun _ w' _ t hread _ => .left_modify ?_
      have hacted : Related server taken { w' with acted := w'.acted ++ [eventData] } t :=
        { hread with }
      exact (matches_withdrawAllFunds hlone hacted true currentBlock).imp
        (fun _ _ h => h) fun _ _ _ _ => trivial
  | _ => exact .right (ends_receive .stakeInfo (.ok ()) rfl) (.pure hR trivial)

end Withdrawals

section Registrations

variable {server : RelayServer} {taken : Bool} {round : Round} {w : WorkerState} {s : TickState}
  {α β γ : Type}

/-- Events of which only the kind is known are handled alike. -/
theorem matches_handleEach {handle : TypedEvent → RoundM (List Hash)}
    {body : ManagerEvent → TickM Unit}
    (hbody : ∀ eventData w s, Related server taken w s →
      Matches (loneSystem server) (Related server taken) (fun _ _ _ => True) (handle eventData) w
        (body eventData.event) s)
    (events : List TypedEvent) (hR : Related server taken w s) :
    Matches (loneSystem server) (Related server taken) (fun _ _ _ => True) (handleEach handle events) w
      (forEach body (events.map (·.event))) s := by
  induction events generalizing w s with
  | nil => exact .pure hR trivial
  | cons eventData events ih =>
      refine .bind (hbody eventData w s hR) fun _ w' _ t hhandled _ => ?_
      exact (ih hhandled).left_pure fun _ _ _ h => h

theorem matches_sendRegistration (hlone : Lone round) (hR : Related server taken w s)
    (serverAction : ServerAction) (currentBlock : ℕ) {f : SignedTransactionDetails → α} :
    Matches (loneSystem server) (Related server taken) (fun _ w' _ => SameManager w w')
      (do
        let method ← RifRelayServer.receive server round (·.populateTransaction)
        let gasLimit ← RifRelayServer.receive server round fun moment =>
          .ok (attemptEstimateGas server.dependencies.config moment.estimateGas)
        let sent ← callManager server round (sendTransaction server.dependencies ·
          (registrationDetails server serverAction method gasLimit currentBlock))
        return f sent) w
      (sendRegistration server serverAction currentBlock) s := by
  refine matches_receive_first hlone hR .populated rfl fun method => ?_
  refine .bind (matches_receive hlone hR.counted .populated rfl _ fun gasLimit => (method, gasLimit)) ?_
  rintro gasLimit _ _ t hpopulated ⟨rfl, rfl⟩
  have hsame : SameManager w (counted (counted w)) := ⟨rfl, rfl⟩
  exact matches_sent hlone hpopulated hsame _

theorem matches_attemptRegistration (hlone : Lone round) (hR : Related server taken w s)
    {view : RegistrationView} (currentBlock : ℕ)
    (hprerequisites : view.allPrerequisitesOk = (w.registrationManager.isStakeLocked &&
      w.registrationManager.stakeRequired.isSatisfied &&
        w.registrationManager.balanceRequired.isSatisfied))
    (hworkersAdded : view.workersAdded = w.registrationManager.isWorkerValid) :
    Matches (loneSystem server) (Related server taken) (fun _ w' _ => SameManager w w')
      (RifRelayServer.attemptRegistration server round currentBlock) w
      (attemptRegistration server view currentBlock) s := by
  refine .left_get ?_
  unfold attemptRegistration
  rw [hprerequisites]
  dsimp only
  split
  · exact .pure hR (SameManager.refl w)
  · unfold attemptAddRelayWorker
    rw [bind_assoc]
    refine .left_get ?_
    rw [bind_assoc]
    refine .bind (matches_findActionPending hlone hR .addWorker) ?_
    rintro _ w' addWorkersPending t hfound ⟨rfl, hsame⟩
    rw [hworkersAdded]
    cases w.registrationManager.isWorkerValid || addWorkersPending with
    | true =>
        exact (matches_sendRegistration hlone hfound .registerServer currentBlock).imp
          (fun _ _ h => h) fun _ _ _ h => hsame.trans h
    | false =>
        have hadded : Matches (loneSystem server) (Related server taken)
            (fun _ w'' _ => SameManager w w'')
            (do
              let txHash ← RifRelayServer.addRelayWorker server round currentBlock
              return [txHash]) w' (addRelayWorker server currentBlock) t := by
          refine .left_pure ?_ fun _ _ _ h => h
          exact (matches_sendRegistration hlone hfound .addWorker currentBlock).imp
            (fun _ _ h => h) fun _ _ _ h => hsame.trans h
        refine .bind hadded fun transactions w'' _ u hadded hsame => ?_
        exact (matches_sendRegistration hlone hadded .registerServer currentBlock).imp
          (fun _ _ h => h) fun _ _ _ h => hsame.trans h

theorem matches_handleDelayedEvents (hlone : Lone round) {currentBlock : ℕ}
    {dueEvents : List TypedEvent} {ids : List ℕ} {w₀ : WorkerState}
    (hids : ids.length = dueEvents.countP (·.event = .stakeUnlocked))
    (hR : Related server taken w s) (hsame : SameManager w₀ w) :
    Matches (loneSystem server) (Related server taken) (fun _ w' _ => SameManager w₀ w')
      (handleEach (handleDelayedEvent server round currentBlock) dueEvents) w
      (forEach (fun _ => withdrawAllFunds server false currentBlock) ids) s := by
  induction dueEvents generalizing ids w s with
  | nil =>
      obtain rfl := List.eq_nil_of_length_eq_zero hids
      exact .pure hR hsame
  | cons eventData dueEvents ih =>
      by_cases hunlocked : eventData.event = .stakeUnlocked
      · rw [List.countP_cons_of_pos (by simpa using hunlocked)] at hids
        obtain ⟨id, ids, rfl⟩ := List.exists_cons_of_length_eq_add_one hids
        have hhandled : Matches (loneSystem server) (Related server taken)
            (fun _ w' _ => SameManager w₀ w') (handleDelayedEvent server round currentBlock eventData)
            w (withdrawAllFunds server false currentBlock) s := by
          unfold handleDelayedEvent
          rw [hunlocked]
          refine matches_noteWithdrawals hR hsame fun w' hstarted hsame => ?_
          refine .left_after (matches_withdrawAllFunds hlone hstarted false currentBlock) ?_
          intro hashes w'' _ t hwithdrawn hsame'
          exact ⟨_, _, rfl, { hwithdrawn with }, (hsame.trans hsame').1, (hsame.trans hsame').2⟩
        refine .bind hhandled fun _ w' _ t hhandled hsame => ?_
        exact (ih (Nat.succ.inj hids) hhandled hsame).left_pure fun _ _ _ h => h
      · rw [List.countP_cons_of_neg (by simpa using hunlocked)] at hids
        have hskipped : handleDelayedEvent server round currentBlock eventData w = .ok [] w := by
          unfold handleDelayedEvent
          cases hevent : eventData.event <;> first | contradiction | rfl
        exact .left_ok hskipped ((ih hids hR hsame).left_pure fun _ _ _ h => h)

/-- What the manager concludes from what it knows now. -/
def viewOf (server : RelayServer) (manager : RegistrationManager) (dueEvents : List TypedEvent) :
    RegistrationView where
  dueEvents := dueEvents.countP (·.event = .stakeUnlocked)
  isRegistrationCorrect := server.isRegistrationValid manager.relayData
  allPrerequisitesOk := manager.isStakeLocked && manager.stakeRequired.isSatisfied &&
    manager.balanceRequired.isSatisfied
  workersAdded := manager.isWorkerValid
  isRegistered := manager.isRegistered server

theorem matches_fetchStakeEvents (hR : Related server taken w s) (options : PastEventOptions) :
    Matches (loneSystem server) (Related server taken)
      (fun events w' b => b = events.map (·.event) ∧ SameManager w w')
      (fetchStakeEvents server round options) w (receive .stakeEvents) s := by
  refine .left_after (matches_scanLogs hR .stakeEvents rfl fun events => events.map (·.event)) ?_
  rintro events _ b t hscanned ⟨rfl, rfl⟩
  exact ⟨_, _, rfl, { hscanned with }, rfl, rfl, rfl⟩

theorem matches_registerIfNeeded (hlone : Lone round) (hR : Related server taken w s)
    {dueEvents : List TypedEvent} {view : RegistrationView} (currentBlock : ℕ)
    (forceRegistration : Bool)
    (hview : view = viewOf server w.registrationManager dueEvents) :
    Matches (loneSystem server) (Related server taken)
      (fun _ w' b => b = view ∧ SameManager w w')
      (registerIfNeeded server round currentBlock forceRegistration) w
      (do
        let isRegistrationPending ← findActionPending .registerServer
        if !(isRegistrationPending || view.isRegistrationCorrect) || forceRegistration then
          attemptRegistration server view currentBlock
        return view) s := by
  have hcorrect : view.isRegistrationCorrect =
      server.isRegistrationValid w.registrationManager.relayData := hview ▸ rfl
  refine .left_get (.bind (matches_findActionPending hlone hR .registerServer) ?_)
  rintro _ w' isRegistrationPending t hfound ⟨rfl, hsame⟩
  dsimp only
  rw [hcorrect]
  split
  · have hmanager := hsame.registrationManager
    refine (matches_attemptRegistration hlone hfound currentBlock ?_ ?_).right_pure
      fun _ _ _ h => ⟨rfl, hsame.trans h⟩
    · rw [hmanager, hview]
      rfl
    · rw [hmanager, hview]
      rfl
  · exact .pure hfound ⟨rfl, hsame⟩

theorem matches_handleDuePendingEvents (hlone : Lone round) (hR : Related server taken w s)
    (currentBlock : ℕ) (forceRegistration : Bool) {stakeHashes : List Hash} :
    Matches (loneSystem server) (Related server taken)
      (fun _ w' view => view.isRegistered = w'.registrationManager.isRegistered server)
      (do
        let dueEvents ← extractDuePendingEvents currentBlock
        let delayedHashes ← handleEach (handleDelayedEvent server round currentBlock) dueEvents
        let registrationHashes ← registerIfNeeded server round currentBlock forceRegistration
        return stakeHashes ++ delayedHashes ++ registrationHashes) w
      (do
        let view ← receive .registrationView
        forEach (fun _ => withdrawAllFunds server false currentBlock) (List.range view.dueEvents)
        let isRegistrationPending ← findActionPending .registerServer
        if !(isRegistrationPending || view.isRegistrationCorrect) || forceRegistration then
          attemptRegistration server view currentBlock
        return view) s := by
  obtain ⟨dueEvents, w₁, hdue, hextracted⟩ : ∃ dueEvents w₁,
      extractDuePendingEvents currentBlock w = .ok dueEvents w₁ ∧ Related server taken w₁ s :=
    ⟨_, _, rfl, { hR with }⟩
  refine .left_ok hdue (.right
    (ends_receive .registrationView (.ok (viewOf server w₁.registrationManager dueEvents)) rfl) ?_)
  refine .bind (matches_handleDelayedEvents hlone List.length_range hextracted (.refl w₁)) ?_
  intro delayedHashes w₂ _ t hwithdrawn hsame
  have hview : viewOf server w₁.registrationManager dueEvents =
      viewOf server w₂.registrationManager dueEvents := by rw [hsame.registrationManager]
  refine (matches_registerIfNeeded hlone hwithdrawn currentBlock forceRegistration hview).left_pure ?_
  rintro registrationHashes w₃ view ⟨rfl, hsame'⟩
  rw [(hsame.trans hsame').registrationManager]
  rfl

theorem matches_handlePastEvents (hlone : Lone round) (hR : Related server taken w s)
    (hinitialized : w.initialized = true) (hubEvents : List TypedEvent)
    (lastScannedBlock currentBlock : ℕ) (forceRegistration : Bool) :
    Matches (loneSystem server) (Related server taken)
      (fun _ w' view => view.isRegistered = w'.registrationManager.isRegistered server)
      (RifRelayServer.handlePastEvents server round hubEvents lastScannedBlock currentBlock
        forceRegistration) w (handlePastEvents server currentBlock forceRegistration) s := by
  unfold RifRelayServer.handlePastEvents handlePastEvents
  refine .left_modify (.left_get ?_)
  have hinit : w.registrationManager.isInitialized = true := hR.isInitialized hinitialized
  have hhanded : Related server taken { w with
      scan := { w.scan with handed := w.scan.handed ++ hubEvents } } s := { hR with }
  dsimp only
  simp only [hinit, Bool.not_true, Bool.false_eq_true, if_false]
  refine .bind (matches_fetchStakeEvents hhanded _) ?_
  rintro decodedEvents w₁ _ t₁ hfetched ⟨rfl, -⟩
  have hstakes := matches_handleEach
    (fun eventData w s hR => matches_handleStakeEvent hlone hR currentBlock eventData)
    decodedEvents hfetched
  refine .bind hstakes fun stakeHashes w₂ _ t₂ hhandled _ => ?_
  cases hinfo : (round.moments w₂.received).getRelayInfo with
  | error e =>
      exact .of_error (Keeping.bind_of_error (receive_of_error hlone hinfo))
        (ends_receive .registrationView (.error e) rfl).bind_error hhandled.counted
  | ok relayData =>
      obtain ⟨w₃, hupdated, hread⟩ : ∃ w₃, updateRegistrationManager (fun it => { it with
          relayData := some relayData
          lastWorkerAddedTransaction := hubEvents.foldl latestWorkerAdded
            it.lastWorkerAddedTransaction }) (counted w₂) = .ok () w₃ ∧
          Related server taken w₃ t₂ := ⟨_, rfl, { hhandled with }⟩
      refine .left_ok (receive_of_ok hlone hinfo) (.left_ok hupdated ?_)
      exact matches_handleDuePendingEvents hlone hread currentBlock forceRegistration

end Registrations
section Replenishment

variable {server : RelayServer} {taken : Bool} {round : Round} {w : WorkerState} {s : TickState}
  {id : CallId} {currentBlock : ℕ} {shared : Shared} {α : Type}

def TickState.sharing (shared : Shared) (s : TickState) : TickState :=
  { s with calls := { s.calls with shared } }

def replenishStep (server : RelayServer) (id : CallId) (currentBlock : ℕ)
    (state : Shared × ReplenishPoint) (answer : RifRelayServer.Answer) :
    Option (Shared × ReplenishPoint) :=
  state.2.resume server id currentBlock state.1 answer

/-- A call of `replenishStrategy` that is alone can be answered so that it ends as the round's
refill does. -/
abbrev ReplenishFollows (server : RelayServer) (taken : Bool) (s : TickState) (id : CallId)
    (currentBlock : ℕ) (concrete : RoundM α) (w : WorkerState) (shared : Shared)
    (point : ReplenishPoint) : Prop :=
  Follows (replenishStep server id currentBlock)
    (fun outcome w state => outcome? (.replenishStrategy currentBlock state.2) = some outcome ∧
      Related server taken w (s.sharing state.1)) concrete w (shared, point)

theorem Related.of_sharing {t : TickState} (h : Related server taken w (s.sharing shared))
    (hrelay : t.relay = s.relay) (hshared : t.calls.shared = shared) : Related server taken w t := by
  subst hshared
  exact { h.leaves hrelay ⟨h.txStore, h.nonces, h.nonceMutex, h.workerBalance⟩ with }

/-- A send within a refill. -/
def within (details : SendTransactionDetails) (state : Shared × SendPoint) :
    Shared × ReplenishPoint := (state.1, .sending details state.2)

theorem follows_sendRefill (hlone : Lone round) (hR : Related server taken w (s.sharing shared))
    (details : SendTransactionDetails) {f : SignedTransactionDetails → α} :
    ReplenishFollows server taken s id currentBlock
      (callManager server round (sendTransaction server.dependencies · details) >>= fun sent =>
        pure (f sent)) w shared (.sending details .gasPrice) := by
  refine .left_pure (.left_ok (receive_of_ok hlone rfl) (.focus ?_))
  have hstep : ∀ state answer, replenishStep server id currentBlock (within details state) answer =
        (SendPoint.step server.dependencies id details state answer).map (within details) :=
    fun _ _ => rfl
  refine Follows.within hstep ?_ rfl (follows_sendTransaction hR.shared)
  rintro outcome manager ⟨shared', point⟩ ⟨hpoint, hleaves⟩
  exact ⟨hpoint, hR.counted.leaves rfl hleaves⟩

/-- Once both balances are read. -/
theorem follows_checkPending (hlone : Lone round) {managerBalance : ℤ}
    (hR : Related server taken w (s.sharing shared)) :
    ReplenishFollows server taken s id currentBlock (do
      let isReplenishPendingForWorker ← RifRelayServer.findActionPending server round .valueTransfer
        (some server.workerAddress)
      if w.workerBalanceRequired.isSatisfied = false ∧ isReplenishPendingForWorker = false then
        let state ← get
        let refill := server.dependencies.config.workerTargetBalance -
          state.workerBalanceRequired.currentValue
        if refill < managerBalance - server.dependencies.config.managerMinBalance then
          let sent ← callManager server round (sendTransaction server.dependencies ·
            (refillDetails server refill currentBlock))
          return [sent.txHash]
        else return []
      else return []) w shared
      (.checkingPending managerBalance !w.workerBalanceRequired.isSatisfied) := by
  have hstore : shared.txStore = (counted w).transactionManager.txStore := hR.txStore
  have hbalance : shared.workerBalance = (counted w).workerBalanceRequired.currentValue :=
    hR.workerBalance
  unfold RifRelayServer.findActionPending
  rw [bind_assoc]
  cases hfind : (round.moments w.received).asyncFind with
  | error e =>
      exact .step (.pendingAction (some e)) rfl
        (.failed (receive_of_error hlone hfind) ⟨rfl, hR.counted⟩)
  | ok found =>
      refine .left_ok (receive_of_ok hlone hfind) (.left_ok rfl ?_)
      have hresume : ∀ point, (ReplenishPoint.checkingPending managerBalance
          !w.workerBalanceRequired.isSatisfied).resume server id currentBlock shared
            (.pendingAction none) = some (shared, point) →
          replenishStep server id currentBlock (shared, .checkingPending managerBalance
            !w.workerBalanceRequired.isSatisfied) (.pendingAction none) = some (shared, point) :=
        fun _ h => h
      simp only [ReplenishPoint.resume, hstore, hbalance, Bool.not_eq_true'] at hresume
      split
      next hneeded =>
        simp only [if_pos hneeded] at hresume
        refine .left_ok rfl ?_
        dsimp only
        split
        next hrefill =>
          refine .step (.pendingAction none) (hresume _ (if_pos hrefill)) ?_
          exact follows_sendRefill hlone hR.counted _
        next hrefill =>
          exact .step (.pendingAction none) (hresume _ (if_neg hrefill)) (.of_ok rfl ⟨rfl, hR.counted⟩)
      next hneeded =>
        exact .step (.pendingAction none) (hresume _ (if_neg hneeded)) (.of_ok rfl ⟨rfl, hR.counted⟩)

theorem follows_replenishStrategy (hlone : Lone round) (hR : Related server taken w s)
    (hcustom : server.customReplenish = false) :
    ReplenishFollows server taken s id currentBlock
      (RifRelayServer.replenishStrategy server round currentBlock) w s.calls.shared
      .readingManagerBalance := by
  unfold replenishStrategy
  simp only [hcustom, Bool.false_eq_true, if_false]
  cases hmanager : (round.moments w.received).getBalance server.managerAddress with
  | error e =>
      exact .step (.balance (.error e)) rfl
        (.failed (receive_of_error hlone hmanager) ⟨rfl, hR.counted⟩)
  | ok managerBalance =>
      refine .left_ok (receive_of_ok hlone hmanager) (.step (.balance (.ok managerBalance)) rfl ?_)
      cases hworker : (round.moments (counted w).received).getBalance server.workerAddress with
      | error e =>
          exact .step (.balance (.error e)) rfl
            (.failed (receive_of_error hlone hworker) ⟨rfl, hR.counted.counted⟩)
      | ok workerBalance =>
          refine .left_ok (receive_of_ok hlone hworker) ?_
          obtain ⟨w', hset, hread, hcurrent⟩ : ∃ w', setWorkerBalance workerBalance
              (counted (counted w)) = .ok () w' ∧
              Related server taken w' (s.sharing { s.calls.shared with workerBalance }) ∧
              w'.workerBalanceRequired.currentValue = workerBalance :=
            ⟨_, rfl, { hR with workerBalance := rfl }, rfl⟩
          refine .left_ok hset (.left_ok rfl ?_)
          have hsatisfied : w'.workerBalanceRequired.isSatisfied =
              decide (server.dependencies.config.workerMinBalance ≤ (workerBalance : ℤ)) := by
            rw [AmountRequired.isSatisfied, hread.workerMinBalance, hcurrent]
          have hresume : ∀ point, (ReplenishPoint.readingWorkerBalance managerBalance).resume server id
              currentBlock s.calls.shared (.balance (.ok workerBalance)) =
                some ({ s.calls.shared with workerBalance }, point) →
              replenishStep server id currentBlock
                (s.calls.shared, .readingWorkerBalance managerBalance)
                (.balance (.ok workerBalance)) =
                  some ({ s.calls.shared with workerBalance }, point) := fun _ h => h
          simp only [ReplenishPoint.resume, ← hsatisfied] at hresume
          split
          next hfull =>
            refine .step (.balance (.ok workerBalance)) (hresume _ (if_pos hfull)) ?_
            exact .of_ok rfl ⟨rfl, hread⟩
          next hfull =>
            refine .step (.balance (.ok workerBalance)) (hresume _ (if_neg hfull)) ?_
            exact follows_checkPending hlone hread

theorem matches_replenishStrategy (hlone : Lone round) (hR : Related server taken w s) :
    Matches (loneSystem server) (Related server taken) (fun _ _ _ => True)
      (RifRelayServer.replenishStrategy server round currentBlock) w
      (callAndWait server (.replenishStrategy currentBlock)) s := by
  refine matches_callAndWait ?_
  cases hcustom : server.customReplenish with
  | true =>
      simp only [Task.started, hcustom, if_true]
      have hthrown : RifRelayServer.replenishStrategy server round currentBlock w =
          .error noCustomReplenish w := by
        unfold replenishStrategy
        rw [hcustom]
        rfl
      exact .of_error hthrown ⟨rfl, fun t hrelay hshared => Related.of_sharing hR hrelay hshared⟩
  | false =>
      simp only [Task.started, hcustom, Bool.false_eq_true, if_false]
      let started (state : Shared × ReplenishPoint) : Shared × Call :=
        (state.1, .replenishStrategy currentBlock state.2)
      have hstep : ∀ state answer, callStep server s.calls.calls.length (started state) answer =
          (replenishStep server s.calls.calls.length currentBlock state answer).map started :=
        fun _ _ => rfl
      refine Follows.within hstep ?_ rfl (follows_replenishStrategy hlone hR hcustom)
      rintro outcome w' ⟨shared, point⟩ ⟨hpoint, hrelated⟩
      exact ⟨hpoint, fun t hrelay hshared => hrelated.of_sharing hrelay hshared⟩

end Replenishment

end RifRelayServer.Ticks
