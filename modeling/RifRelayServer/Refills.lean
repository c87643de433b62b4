import RifRelayServer.Nonces
import RifRelayServer.PendingSends

/-!
# Refills of the worker

An execution of `replenishStrategy` looks for a pending refill in the store, and
its own refill is found there only after several awaits. Two refills are pending
at once when a second execution looks in between.
-/

namespace RifRelayServer

open Runs

/-- An unmined transfer from the manager to the worker. -/
def isPendingRefill (server : RelayServer) (tx : StoredTransaction) : Bool :=
  tx.minedBlockNumber.isNone && tx.serverAction = .valueTransfer &&
    isSameAddress tx.fromAddress server.managerAddress &&
    tx.toAddress.any (isSameAddress · server.workerAddress)

def SendTransactionDetails.isRefill (server : RelayServer) (details : SendTransactionDetails) :
    Bool :=
  details.serverAction = .valueTransfer && isSameAddress details.signer server.managerAddress &&
    isSameAddress details.destination server.workerAddress

def SendPoint.isUnstored : SendPoint → Bool
  | gasPrice | mutex _ | polling _ | signing _ _ | storing _ _ => true
  | _ => false

/-- The execution has decided to refill, and the refill is not stored yet. -/
def Call.isRefilling : Call → Bool
  | .replenishStrategy _ (.sending _ point) => point.isUnstored
  | _ => false

/-- The execution decides to refill, if it looks for a pending refill now. -/
def Call.decidesToRefill (server : RelayServer) (shared : Shared) : Call → Bool
  | .replenishStrategy _ (.checkingPending managerBalance mustReplenishWorker) =>
      let config := server.dependencies.config
      mustReplenishWorker &&
        !isActionPending shared.txStore .valueTransfer (some server.workerAddress) &&
        decide (config.workerTargetBalance - shared.workerBalance <
          managerBalance - config.managerMinBalance)
  | _ => false

def ServerState.looking? (state : ServerState) : Event → Option Call
  | .resume id (.pendingAction none) => state.calls[id]?
  | _ => none

/-- An execution decides to refill only when no other has decided to and not yet
stored its refill. -/
def DecidesAlone (server : RelayServer) (state : ServerState) (event : Event) : Prop :=
  ∀ call ∈ state.looking? event, call.decidesToRefill server state.shared = true →
    ∀ other ∈ state.calls, other.isRefilling = false

instance (server : RelayServer) (state : ServerState) (event : Event) :
    Decidable (DecidesAlone server state event) :=
  inferInstanceAs (Decidable (∀ call ∈ state.looking? event,
    call.decidesToRefill server state.shared = true →
      ∀ other ∈ state.calls, other.isRefilling = false))

def Event.sends? : Event → Option SendTransactionDetails
  | .start (.sendTransaction details) => some details
  | _ => none

/-- The worker is refilled by `replenishStrategy` only. -/
def NoOtherRefill (server : RelayServer) (_state : ServerState) (event : Event) : Prop :=
  ∀ details ∈ event.sends?, details.isRefill server = false

instance (server : RelayServer) (state : ServerState) (event : Event) :
    Decidable (NoOtherRefill server state event) :=
  inferInstanceAs (Decidable (∀ details ∈ event.sends?, details.isRefill server = false))

def SinglePendingRefill (server : RelayServer) (txStore : TxStore) : Prop :=
  ∀ a ∈ txStore, ∀ b ∈ txStore, isPendingRefill server a = true →
    isPendingRefill server b = true → a = b

/-- The record is one of the transaction that the details ask for. -/
structure Describes (details : SendTransactionDetails) (tx : StoredTransaction) : Prop where
  serverAction : tx.serverAction = details.serverAction
  fromAddress : tx.fromAddress = details.signer
  toAddress : tx.toAddress = some details.destination

def Call.isReplenishing : Call → Bool
  | .replenishStrategy _ _ => true
  | _ => false

/-- What a call has started to send is no refill, unless it replenishes. -/
structure SendsAsAsked (server : RelayServer) (call : Call) : Prop where
  isRefill : ∀ details point, call.sending? = some (details, point) →
    call.isReplenishing = false → details.isRefill server = false
  describes : ∀ details signedTransaction storedTx,
    call.sending? = some (details, .storing signedTransaction storedTx) → Describes details storedTx

structure RefillInvariant (server : RelayServer) (state : ServerState) : Prop where
  single : SinglePendingRefill server state.shared.txStore
  alone : ∀ (id other : CallId) (call call' : Call), state.calls[id]? = some call →
    state.calls[other]? = some call' → call.isRefilling = true → call'.isRefilling = true →
      id = other
  noPending : ∀ call ∈ state.calls, call.isRefilling = true →
    ∀ tx ∈ state.shared.txStore, isPendingRefill server tx = false
  asAsked : ∀ call ∈ state.calls, SendsAsAsked server call

variable {server : RelayServer} {id : CallId} {shared shared' : Shared} {call call' : Call}
  {answer : Answer} {details : SendTransactionDetails} {point point' : SendPoint}

theorem isPendingRefill_eq_false_of_isActionPending {txStore : TxStore}
    (h : isActionPending txStore .valueTransfer (some server.workerAddress) = false) :
    ∀ tx ∈ txStore, isPendingRefill server tx = false := by
  intro tx htx
  have hnone := List.any_eq_false.mp h tx (mem_getAll.mpr htx)
  cases hpending : isPendingRefill server tx with
  | false => rfl
  | true =>
      simp only [isPendingRefill, Bool.and_eq_true] at hpending
      obtain ⟨⟨⟨hunmined, haction⟩, -⟩, hdestination⟩ := hpending
      simp [hunmined, haction, hdestination] at hnone

theorem Describes.isPendingRefill {tx : StoredTransaction} (h : Describes details tx)
    (hdetails : details.isRefill server = false) : isPendingRefill server tx = false := by
  cases hpending : RifRelayServer.isPendingRefill server tx with
  | false => rfl
  | true =>
      simp only [RifRelayServer.isPendingRefill, h.serverAction, h.fromAddress, h.toAddress,
        Option.any_some, Bool.and_eq_true] at hpending
      obtain ⟨⟨⟨-, haction⟩, hfrom⟩, hto⟩ := hpending
      simp [SendTransactionDetails.isRefill, haction, hfrom, hto] at hdetails

theorem SendStep.isUnstored {dependencies : ServerDependencies}
    (h : SendStep dependencies id details shared point answer shared' point')
    (hunstored : point'.isUnstored = true) : point.isUnstored = true := by
  cases h with
  | priced | acquired | polled | signed => rfl
  | stored | released | failed | accepted => cases hunstored

theorem CallStep.isRefilling (h : CallStep server id shared call answer shared' call')
    (hrefilling : call'.isRefilling = true) :
    call.isRefilling = true ∨
      answer = .pendingAction none ∧ call.decidesToRefill server shared = true ∧
        isActionPending shared.txStore .valueTransfer (some server.workerAddress) = false ∧
        shared' = shared := by
  cases h with
  | replenishStrategy h =>
      cases h with
      | decided hnone hrefill hfunds =>
          refine Or.inr ⟨rfl, ?_, hnone, rfl⟩
          simp [Call.decidesToRefill, hnone, ← hrefill, hfunds]
      | sends hresume => exact Or.inl ((SendPoint.resume_cases hresume).isUnstored hrefilling)
      | managerBalance | satisfied | workerBalance | declined | failed => cases hrefilling
  | _ => cases hrefilling

theorem Call.isRefilling_iff : call.isRefilling = true ↔ call.isReplenishing = true ∧
    ∃ details point, call.sending? = some (details, point) ∧ point.isUnstored = true := by
  cases call with
  | replenishStrategy currentBlock point => cases point <;> simp [isRefilling, isReplenishing, sending?]
  | _ => simp [isRefilling, isReplenishing]

theorem CallStep.txStore_cases (h : CallStep server id shared call answer shared' call') :
    shared'.txStore = shared.txStore ∨
      ∃ details signedTransaction storedTx txId,
        call.sending? = some (details, .storing signedTransaction storedTx) ∧
          call'.sending? = some (details, .broadcasting signedTransaction txId) ∧
            putTx shared.txStore storedTx false = .ok shared'.txStore := by
  cases h.nonceStep with
  | @sends details point point' hsending hsending' hresume =>
      cases SendPoint.resume_cases hresume with
      | stored hput => exact Or.inr ⟨details, _, _, _, hsending, hsending', hput⟩
      | priced | acquired | polled | signed | released | failed | accepted => exact Or.inl rfl
  | polls hsending hsending' hpolls hanswer hshared =>
      subst hshared
      exact Or.inl rfl
  | idles balance hsending hsending' hshared =>
      subst hshared
      exact Or.inl rfl

theorem CallStep.isReplenishing (h : CallStep server id shared call answer shared' call') :
    call'.isReplenishing = call.isReplenishing := by
  cases h <;> rfl

theorem isRefill_relayCallDetails {request : HttpEnvelopingRequest} {method : String}
    {gasLimit currentBlock : ℕ} :
    (relayCallDetails server request method gasLimit currentBlock).isRefill server = false := rfl

/-- What a call starts to send in the middle of its way. -/
theorem CallStep.sends_cases (h : CallStep server id shared call answer shared' call')
    (hsending : call'.sending? = some (details, point')) :
    (∃ point, call.sending? = some (details, point) ∧
        SendStep server.dependencies id details shared point answer shared' point') ∨
      point' = .gasPrice ∧
        ((∃ request method gasLimit currentBlock,
            details = relayCallDetails server request method gasLimit currentBlock) ∨
          call'.isReplenishing = true ∧
            ∃ refill currentBlock, details = refillDetails server refill currentBlock) := by
  cases h with
  | sendTransaction hresume =>
      cases hsending
      exact Or.inl ⟨_, rfl, SendPoint.resume_cases hresume⟩
  | createRelayTransaction h =>
      cases h with
      | prepared method gasLimit currentBlock =>
          cases hsending
          exact Or.inr ⟨rfl, Or.inl ⟨_, method, gasLimit, currentBlock, rfl⟩⟩
      | sends hresume =>
          cases hsending
          exact Or.inl ⟨_, rfl, SendPoint.resume_cases hresume⟩
      | validated | polled | refused | failed => cases hsending
  | replenishStrategy h =>
      cases h with
      | decided hnone hrefill hfunds =>
          cases hsending
          exact Or.inr ⟨rfl, Or.inr ⟨rfl, _, _, rfl⟩⟩
      | sends hresume =>
          cases hsending
          exact Or.inl ⟨_, rfl, SendPoint.resume_cases hresume⟩
      | managerBalance | satisfied | workerBalance | declined | failed => cases hsending
  | pollNonce | pollNonceFailed | validateMaxNonce | validateMaxNonceFailed => cases hsending

theorem CallStep.describes (h : CallStep server id shared call answer shared' call')
    {signedTransaction : SignedTransactionDetails} {storedTx : StoredTransaction}
    (hsending : call'.sending? = some (details, .storing signedTransaction storedTx)) :
    Describes details storedTx := by
  rcases h.sends_cases hsending with ⟨point, hbefore, hstep⟩ | ⟨hbegun, -⟩
  · cases hstep with
    | signed hsignature => exact ⟨rfl, rfl, rfl⟩
  · cases hbegun

theorem CallStep.sendsAsAsked (h : CallStep server id shared call answer shared' call')
    (hcall : SendsAsAsked server call) : SendsAsAsked server call' where
  isRefill details point' hsending hnot := by
    rcases h.sends_cases hsending with ⟨point, hbefore, -⟩ |
      ⟨-, ⟨request, method, gasLimit, currentBlock, rfl⟩ | ⟨hreplenishing, -⟩⟩
    · exact hcall.isRefill details point hbefore (h.isReplenishing ▸ hnot)
    · exact isRefill_relayCallDetails
    · simp [hnot] at hreplenishing
  describes _ _ _ hsending := h.describes hsending

theorem Task.sendsAsAsked {task : Task}
    (h : ∀ details, task = .sendTransaction details → details.isRefill server = false) :
    SendsAsAsked server (task.started server) where
  isRefill details point hsending hnot := by
    cases task with
    | sendTransaction details =>
        cases hsending
        exact h details rfl
    | replenishStrategy currentBlock => cases hnot
    | pollNonce | validateMaxNonce | createRelayTransaction => cases hsending
  describes details signedTransaction storedTx hsending := by
    cases Task.sending?_started hsending

theorem Task.isRefilling_started {task : Task} : (task.started server).isRefilling = false := by
  cases task with
  | replenishStrategy currentBlock =>
      cases hcustom : server.customReplenish <;> simp [Task.started, Call.isRefilling, hcustom]
  | _ => rfl

/-- Every pending refill is the one that was under its key. -/
abbrev NoNewRefill (server : RelayServer) (store store' : TxStore) : Prop :=
  NoNewPending (isPendingRefill server) store store'

theorem RoundWrite.noNewRefill {store store' : TxStore} {write : RoundWrite}
    (h : write.apply store = .ok store') : NoNewRefill server store store' := by
  rcases apply_cases h with ⟨signer, nonce, rfl⟩ | rfl |
    ⟨old, hold, tx, hput, ⟨minedBlockNumber, rfl⟩ | ⟨txId, newGasPrice, currentBlock, rfl⟩⟩
  · exact .removeTxsUntilNonce store signer nonce
  · exact .refl _
  · refine .of_putTx hput fun hpending => ?_
    simp [isPendingRefill] at hpending
  · exact .of_putTx hput fun hpending => ⟨old, hold, rfl, hpending⟩

namespace RefillInvariant

variable {state : ServerState}

theorem flight (h : RefillInvariant server state) :
    SingleFlight (isPendingRefill server) Call.isRefilling state :=
  ⟨h.single, h.alone, h.noPending⟩

theorem of_flight (h : SingleFlight (isPendingRefill server) Call.isRefilling state)
    (hasked : ∀ call ∈ state.calls, SendsAsAsked server call) : RefillInvariant server state :=
  ⟨h.single, h.alone, h.nonePending, hasked⟩

theorem store_cases (h : RefillInvariant server state) (hcall : state.calls[id]? = some call)
    (hstep : CallStep server id state.shared call answer shared' call') :
    NoNewRefill server state.shared.txStore shared'.txStore ∨
      call.isRefilling = true ∧ call'.isRefilling = false ∧
        SinglePendingRefill server shared'.txStore := by
  have hmem := List.mem_of_getElem? hcall
  rcases hstep.txStore_cases with hsame |
    ⟨details, signedTransaction, storedTx, txId, hsending, hsending', hput⟩
  · rw [hsame]
    exact Or.inl (.refl _)
  · cases hreplenishing : call.isReplenishing with
    | false =>
        have hasked := h.asAsked call hmem
        have hrefill := (hasked.describes _ _ _ hsending).isPendingRefill
          (hasked.isRefill _ _ hsending hreplenishing)
        exact Or.inl (.of_putTx hput fun hpending => by simp [hrefill] at hpending)
    | true =>
        have hrefilling : call.isRefilling = true :=
          Call.isRefilling_iff.mpr ⟨hreplenishing, _, _, hsending, rfl⟩
        have hnone : NonePending (isPendingRefill server) state.shared.txStore :=
          h.noPending call hmem hrefilling
        refine Or.inr ⟨hrefilling, ?_, hnone.single_of_putTx hput⟩
        by_contra hnot
        obtain ⟨-, _, _, hsending'', hunstored⟩ := Call.isRefilling_iff.mp (Bool.not_eq_false _ ▸ hnot)
        cases hsending'.symm.trans hsending''
        cases hunstored

theorem start (h : RefillInvariant server state) {task : Task}
    (htask : ∀ details, task = .sendTransaction details → details.isRefill server = false) :
    RefillInvariant server { state with calls := state.calls ++ [task.started server] } := by
  apply of_flight (h.flight.started Task.isRefilling_started)
  intro call hcall
  rcases List.mem_append.mp hcall with hold | hnew
  · exact h.asAsked call hold
  · rw [List.mem_singleton.mp hnew]
    exact Task.sendsAsAsked htask

theorem write (h : RefillInvariant server state) {txStore : TxStore}
    (hwrite : NoNewRefill server state.shared.txStore txStore) :
    RefillInvariant server { state with shared := { state.shared with txStore } } :=
  of_flight (h.flight.written hwrite) h.asAsked

theorem resume (h : RefillInvariant server state) (hcall : state.calls[id]? = some call)
    (hstep : CallStep server id state.shared call answer shared' call')
    (hdecides : DecidesAlone server state (.resume id answer)) :
    RefillInvariant server ⟨shared', state.calls.set id call'⟩ := by
  refine of_flight (h.flight.resumed hcall (h.store_cases hcall hstep) fun hrefilling => ?_)
    fun it hit => ?_
  · -- an execution that decides to refill has no company, and finds no pending refill
    rcases hstep.isRefilling hrefilling with hbefore | ⟨rfl, hdecided, hnone, rfl⟩
    · exact Or.inl hbefore
    · refine Or.inr ⟨isPendingRefill_eq_false_of_isActionPending hnone, fun other it hit hother => ?_⟩
      have hlone := hdecides call (by simp [ServerState.looking?, hcall]) hdecided it
        (List.mem_of_getElem? hit)
      simp [hother] at hlone
  · rcases List.mem_or_eq_of_mem_set hit with hold | rfl
    · exact h.asAsked it hold
    · exact hstep.sendsAsAsked (h.asAsked call (List.mem_of_getElem? hcall))

end RefillInvariant

theorem step_refillInvariant {state state' : ServerState} {event : Event}
    (h : RefillInvariant server state) (hdecides : DecidesAlone server state event)
    (hother : NoOtherRefill server state event) (hstep : step server state event = some state') :
    RefillInvariant server state' := by
  cases step_cases hstep with
  | start task =>
      refine h.start fun details htask => hother details ?_
      subst htask
      rfl
  | resume hcall hcallStep => exact h.resume hcall hcallStep hdecides
  | write hwrite => exact h.write (RoundWrite.noNewRefill hwrite)

/-- From a store with at most one pending refill, no two are ever pending, as
long as no execution decides to refill while another has decided to and not yet
stored its refill. -/
theorem single_pending_refill {txStore : TxStore} {events : List Event} {state : ServerState}
    (hrun : run (step server) (.initial txStore) events = some state)
    (hsingle : SinglePendingRefill server txStore)
    (hother : Along (step server) (NoOtherRefill server) (.initial txStore) events)
    (hdecides : Along (step server) (DecidesAlone server) (.initial txStore) events) :
    SinglePendingRefill server state.shared.txStore := by
  have hinitial : RefillInvariant server (.initial txStore) := {
    single := hsingle
    alone := fun id other call call' hcall => by simp [ServerState.initial] at hcall
    noPending := fun call hcall => by simp [ServerState.initial] at hcall
    asAsked := fun call hcall => by simp [ServerState.initial] at hcall }
  have hinvariant : RefillInvariant server state :=
    invariant_of_along
      (fun _ _ _ h hallowed hstep => step_refillInvariant h hallowed.2 hallowed.1 hstep)
      hinitial (hother.and hdecides) hrun
  exact hinvariant.single

/-- The answers that an execution gets up to its decision, with funds for a refill. -/
def decisionAnswers : List Answer := [.balance (.ok 5000), .balance (.ok 50), .pendingAction none]

def refillAnswers (count : ℕ) : List Answer :=
  [.gasPrice (.ok 10), .acquired, .transactionCount (.ok count), .signature none, .stored none]

/-- A round refills the worker, and the event of a relayed transaction checks again. -/
def refillThenCheck : List Event :=
  [.start (.replenishStrategy 100)] ++ (decisionAnswers ++ refillAnswers 0).map (.resume 0) ++
    [.start (.replenishStrategy 101)] ++ decisionAnswers.map (.resume 1)

/-- Both executions look for a pending refill before either has stored its own. -/
def refillTwice : List Event :=
  [.start (.replenishStrategy 100), .start (.replenishStrategy 101)] ++
    decisionAnswers.map (.resume 0) ++ decisionAnswers.map (.resume 1) ++
    (refillAnswers 0).map (.resume 0) ++ (refillAnswers 0).map (.resume 1)

theorem single_pending_refill_refillThenCheck :
    SinglePendingRefill sampleServer (stateAfter refillThenCheck).shared.txStore :=
  @single_pending_refill sampleServer TxStore.empty refillThenCheck (stateAfter refillThenCheck) rfl
    (fun a ha => absurd ha (TxStore.not_mem_empty a)) (by decide +kernel) (by decide +kernel)

/-- The worker is refilled twice for the same shortage. -/
theorem two_pending_refills :
    ¬ ∀ (server : RelayServer) (txStore : TxStore) (events : List Event) (state : ServerState),
      run (step server) (.initial txStore) events = some state →
      SinglePendingRefill server txStore →
      Along (step server) (NoOtherRefill server) (.initial txStore) events →
      SinglePendingRefill server state.shared.txStore := by
  intro h
  have hsingle := h sampleServer TxStore.empty refillTwice (stateAfter refillTwice) rfl
    (fun a ha => absurd ha (TxStore.not_mem_empty a)) (by decide +kernel)
  have hlength : (stateAfter refillTwice).shared.txStore.entries.length = 2 := by decide +kernel
  have hpending : ∀ tx ∈ (stateAfter refillTwice).shared.txStore.entries,
      isPendingRefill sampleServer tx = true := by decide +kernel
  obtain ⟨a, b, hentries⟩ := List.length_eq_two.mp hlength
  have hnodup := (stateAfter refillTwice).shared.txStore.nodup_txId
  rw [hentries] at hpending hnodup
  have ha : a ∈ (stateAfter refillTwice).shared.txStore := by
    rw [← TxStore.mem_entries, hentries]
    exact List.mem_cons_self
  have hb : b ∈ (stateAfter refillTwice).shared.txStore := by
    rw [← TxStore.mem_entries, hentries]
    exact List.mem_cons_of_mem _ List.mem_cons_self
  have heq := hsingle a ha b hb (hpending a List.mem_cons_self)
    (hpending b (List.mem_cons_of_mem _ List.mem_cons_self))
  simp [heq] at hnodup

end RifRelayServer
