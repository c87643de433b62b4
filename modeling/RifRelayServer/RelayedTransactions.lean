import RifRelayServer.AdmittedRequests
import RifRelayServer.OwnTransactions

/-!
# The relayed transactions in the store

Only a request that was admitted leaves a relayed transaction in the store. A boost
raises its price and gives it a new hash; where it goes, what it calls and how much gas
it may take stay as they were prepared for the request.
-/

namespace RifRelayServer

open Runs

/-- What a boost leaves as it is in an entry. -/
structure Payload where
  nonceSigner : NonceSigner
  serverAction : ServerAction
  toAddress : Option Address
  gasLimit : Option ℕ
  data : Option String
  creationBlockNumber : ℕ

def StoredTransaction.payload (tx : StoredTransaction) : Payload where
  nonceSigner := tx.nonceSigner
  serverAction := tx.serverAction
  toAddress := tx.toAddress
  gasLimit := tx.gasLimit
  data := tx.data
  creationBlockNumber := tx.creationBlockNumber

def Carries (txStore : TxStore) (payload : Payload) : Prop := ∃ it ∈ txStore, it.payload = payload

theorem carries_of_putTx {store store' : TxStore} {tx : StoredTransaction} {updateExisting : Bool}
    {payload : Payload} (hput : putTx store tx updateExisting = .ok store')
    (h : Carries store' payload) : Carries store payload ∨ tx.payload = payload := by
  obtain ⟨it, hit, hpayload⟩ := h
  rcases (mem_of_putTx hput it).mp hit with ⟨hold, -⟩ | rfl
  · exact Or.inl ⟨it, hold, hpayload⟩
  · exact Or.inr hpayload

theorem RoundWrite.carries {store store' : TxStore} {write : RoundWrite} {payload : Payload}
    (hwrite : write.apply store = .ok store') (h : Carries store' payload) :
    Carries store payload := by
  rcases RoundWrite.apply_cases hwrite with
    ⟨signer, nonce, rfl⟩ | rfl | ⟨old, hold, tx, hput, htx⟩
  · obtain ⟨it, hit, hpayload⟩ := h
    exact ⟨it, (mem_removeTxsUntilNonce.mp hit).1, hpayload⟩
  · exact h
  · rcases carries_of_putTx hput h with hbefore | hpayload
    · exact hbefore
    · refine ⟨old, hold, ?_⟩
      rcases htx with ⟨minedBlockNumber, rfl⟩ | ⟨txId, newGasPrice, currentBlock, rfl⟩
      · exact hpayload
      · exact hpayload

theorem SendStep.carries {dependencies : ServerDependencies} {id : CallId}
    {details : SendTransactionDetails} {shared shared' : Shared} {point point' : SendPoint}
    {answer : Answer} {payload : Payload}
    (h : SendStep dependencies id details shared point answer shared' point')
    (hcarries : Carries shared'.txStore payload) :
    Carries shared.txStore payload ∨ ∃ signedTransaction storedTx,
      point = .storing signedTransaction storedTx ∧ storedTx.payload = payload := by
  cases h with
  | stored hput =>
      exact (carries_of_putTx hput hcarries).imp_right fun hpayload => ⟨_, _, rfl, hpayload⟩
  | priced | acquired | polled | signed | released | failed | accepted => exact Or.inl hcarries

/-- A call that is not of a request, and sends no relayed transaction. -/
structure Call.DoesNotRelay (call : Call) : Prop where
  not_request : ∀ request point, call ≠ .createRelayTransaction request point
  action_ne : ∀ details point, call.sending? = some (details, point) →
    details.serverAction ≠ .relayCall

theorem Call.doesNotRelay_of_sending? {call : Call}
    (h : ∀ request point, call ≠ .createRelayTransaction request point)
    (hnone : call.sending? = none) : call.DoesNotRelay :=
  ⟨h, fun details point hsending => by simp [hnone] at hsending⟩

theorem Task.doesNotRelay_started {server : RelayServer} {task : Task}
    (h : task.isRelay = false) : (task.started server).DoesNotRelay := by
  cases task with
  | sendTransaction details =>
      refine ⟨by simp [Task.started], fun details' point hsending => ?_⟩
      cases hsending
      exact of_decide_eq_false h
  | pollNonce signer => exact Call.doesNotRelay_of_sending? (by simp [Task.started]) rfl
  | validateMaxNonce relayMaxNonce =>
      exact Call.doesNotRelay_of_sending? (by simp [Task.started]) rfl
  | createRelayTransaction request => cases h
  | replenishStrategy currentBlock =>
      refine Call.doesNotRelay_of_sending? (by simp [Task.started]) ?_
      cases hcustom : server.customReplenish <;> simp [Task.started, Call.sending?, hcustom]

theorem CallStep.doesNotRelay {server : RelayServer} {id : CallId} {shared shared' : Shared}
    {call call' : Call} {answer : Answer}
    (h : CallStep server id shared call answer shared' call') (hcall : call.DoesNotRelay) :
    call'.DoesNotRelay := by
  cases h with
  | sendTransaction hsend =>
      refine ⟨by simp, fun details point hsending => ?_⟩
      cases hsending
      exact hcall.action_ne _ _ rfl
  | pollNonce | pollNonceFailed | validateMaxNonce | validateMaxNonceFailed =>
      exact Call.doesNotRelay_of_sending? (by simp) rfl
  | createRelayTransaction hrelay => exact absurd rfl (hcall.not_request _ _)
  | replenishStrategy hreplenish =>
      refine ⟨by simp, fun details point hsending => ?_⟩
      cases hreplenish with
      | decided hnone hrefill hfunds =>
          cases hsending
          simp [refillDetails]
      | sends hsend =>
          cases hsending
          exact hcall.action_ne _ _ rfl
      | managerBalance | satisfied | workerBalance | declined | failed => cases hsending

variable {server : AdmittingServer} {state state' : AdmissionState} {event : AdmissionEvent}

def OthersDoNotRelay (state : AdmissionState) : Prop :=
  ∀ call, .other call ∈ state.calls → call.DoesNotRelay

theorem step_othersDoNotRelay (h : OthersDoNotRelay state)
    (hstep : admissionStep server state event = some state') : OthersDoNotRelay state' := by
  intro call hcall
  cases admissionStep_cases hstep with
  | arrive tx =>
      rcases List.mem_append.mp hcall with hold | hnew
      · exact h call hold
      · cases List.mem_singleton.mp hnew
  | @request id tx point point' answer shared' hbefore hrequest =>
      rcases List.mem_append.mp hcall with hset | hnew
      · rcases List.mem_or_eq_of_mem_set hset with hold | heq
        · exact h call hold
        · cases heq
      · obtain ⟨task, htask, heq⟩ := List.mem_map.mp hnew
        cases heq
        refine Task.doesNotRelay_started ?_
        unfold RequestPoint.emitted at htask
        split at htask
        · obtain rfl := List.mem_singleton.mp htask
          rfl
        · cases htask
  | start hrelay =>
      rcases List.mem_append.mp hcall with hold | hnew
      · exact h call hold
      · cases List.mem_singleton.mp hnew
        exact Task.doesNotRelay_started hrelay
  | resume hbefore hresume =>
      rcases List.mem_or_eq_of_mem_set hcall with hold | heq
      · exact h call hold
      · cases heq
        exact (Call.resume_cases hresume).doesNotRelay (h _ (List.mem_of_getElem? hbefore))
  | write hwrite => exact h call hcall
  | refresh gasPrice isReady alerted => exact h call hcall

theorem CallStep.carries {server : RelayServer} {id : CallId} {shared shared' : Shared}
    {call call' : Call} {answer : Answer} {payload : Payload}
    (h : CallStep server id shared call answer shared' call')
    (hcarries : Carries shared'.txStore payload) :
    Carries shared.txStore payload ∨ ∃ details signedTransaction storedTx,
      call.sending? = some (details, .storing signedTransaction storedTx) ∧
        storedTx.payload = payload := by
  cases h.nonceStep with
  | sends hcall hcall' hresume =>
      rcases (SendPoint.resume_cases hresume).carries hcarries with
        hbefore | ⟨signedTransaction, storedTx, rfl, hpayload⟩
      · exact Or.inl hbefore
      · exact Or.inr ⟨_, signedTransaction, storedTx, hcall, hpayload⟩
  | polls hcall hcall' hpolls hanswer hshared => exact Or.inl (by rwa [hshared] at hcarries)
  | idles balance hcall hcall' hshared => exact Or.inl (by rwa [hshared] at hcarries)

/-- The request puts the transaction that carries the payload in the store. -/
def Stores (payload : Payload) (state : AdmissionState) (event : AdmissionEvent) : Prop :=
  ∃ id tx details signedTransaction storedTx answer,
    event = .resumeRequest id answer ∧
      state.calls[id]? =
        some (.request tx (.sending details (.storing signedTransaction storedTx))) ∧
      storedTx.payload = payload

theorem step_carries {payload : Payload} (hrelay : payload.serverAction = .relayCall)
    (hothers : OthersDoNotRelay state) (hown : OwnInvariant server.toRelayServer state.toServerState)
    (hstep : admissionStep server state event = some state')
    (hcarries : Carries state'.shared.txStore payload) :
    Carries state.shared.txStore payload ∨ Stores payload state event := by
  cases admissionStep_cases hstep with
  | arrive tx => exact Or.inl hcarries
  | @request id tx point point' answer shared' hbefore hrequest =>
      cases hrequest with
      | sends hsend =>
          rcases (SendPoint.resume_cases hsend).carries hcarries with
            hold | ⟨signedTransaction, storedTx, rfl, hpayload⟩
          · exact Or.inl hold
          · exact Or.inr ⟨id, tx, _, signedTransaction, storedTx, _, rfl, hbefore, hpayload⟩
      | validated | timed | polled | refused | prepared | failed => exact Or.inl hcarries
  | start hrelay => exact Or.inl hcarries
  | @resume id call call' answer shared' hbefore hresume =>
      rcases (Call.resume_cases hresume).carries hcarries with
        hold | ⟨details, signedTransaction, storedTx, hsending, rfl⟩
      · exact Or.inl hold
      · -- such a transaction is not a relayed one
        have haction := (hothers call (List.mem_of_getElem? hbefore)).action_ne details _ hsending
        have hat : state.toServerState.sendingAt id =
            some (details, .storing signedTransaction storedTx) :=
          (sendingAt_of_call (getElem?_toServerState hbefore)).trans hsending
        obtain ⟨price, nonce, -, rfl⟩ := hown.composed id details _ hat
        exact absurd hrelay haction
  | write hwrite => exact Or.inl (RoundWrite.carries hwrite hcarries)
  | refresh gasPrice isReady alerted => exact Or.inl hcarries

structure RelayInvariant (server : AdmittingServer) (state : AdmissionState) : Prop where
  others : OthersDoNotRelay state
  own : OwnInvariant server.toRelayServer state.toServerState

theorem step_relayInvariant (h : RelayInvariant server state)
    (hstep : admissionStep server state event = some state') : RelayInvariant server state' := by
  obtain ⟨events, hrun⟩ := admissionStep_matched hstep
  exact ⟨step_othersDoNotRelay h.others hstep,
    invariant_of_run (fun _ _ _ h hstep => step_ownInvariant h hstep) h.own hrun⟩

theorem relayInvariant_initial (txStore : TxStore) : RelayInvariant server (.initial txStore) where
  others _ hcall := absurd hcall List.not_mem_nil
  own := ownInvariant_initial txStore

theorem run_relayInvariant {txStore : TxStore} {events : List AdmissionEvent}
    (hrun : run (admissionStep server) (.initial txStore) events = some state) :
    RelayInvariant server state :=
  invariant_of_run (fun _ _ _ h hstep => step_relayInvariant h hstep)
    (relayInvariant_initial txStore) hrun

/-- What an admitted request leaves in the store. -/
def Admission.payload (admission : Admission) (server : AdmittingServer)
    (tx : EnvelopingTransaction) (nonce : ℕ) : Payload where
  nonceSigner := (some nonce, toLowerCase server.workerAddress)
  serverAction := .relayCall
  toAddress := some tx.metadata.relayHubAddress
  gasLimit := some admission.call.gasLimit
  data := some admission.call.method
  creationBlockNumber := admission.call.currentBlock

/-- A relayed transaction that is in the store, and was not there when the server started, is
that of a request that was admitted before. -/
theorem relayed_entry_admitted {txStore : TxStore} {events : List AdmissionEvent}
    (hrun : run (admissionStep server) (.initial txStore) events = some state)
    {it : StoredTransaction} (hit : it ∈ state.shared.txStore)
    (hrelay : it.serverAction = .relayCall)
    (hnew : ∀ found ∈ txStore, found.payload ≠ it.payload) :
    ∃ (id : CallId) (tx : EnvelopingTransaction) (admission : Admission) (nonce : ℕ),
      admission.Holds server txStore events id tx ∧
        it.payload = admission.payload server tx nonce := by
  rw [← List.take_length (l := events)] at hrun
  have hstored : ∃ n < events.length, ∃ u event,
      Occurs (admissionStep server) (.initial txStore) events n u event ∧
        Stores it.payload u event := by
    apply occurs_of_run (Q := fun state => Carries state.shared.txStore it.payload) _ _ hrun
      ⟨it, hit, rfl⟩
    · intro n u event u' hoccurs hstep hcarries
      have hu := run_relayInvariant hoccurs.reached
      exact step_carries hrelay hu.others hu.own hstep hcarries
    · rintro ⟨found, hfound, hsame⟩
      exact hnew found hfound hsame
  obtain ⟨n, -, u, event, hoccurs, id, tx, details, signedTransaction, storedTx, answer, -, hcall,
    hpayload⟩ := hstored
  obtain ⟨admission, hholds, -, rfl⟩ := admitted_before hoccurs.reached hcall
  have hat : u.toServerState.sendingAt id =
      some (admission.details server tx, .storing signedTransaction storedTx) :=
    sendingAt_of_call (getElem?_toServerState hcall)
  obtain ⟨price, nonce, -, rfl⟩ :=
    (run_relayInvariant hoccurs.reached).own.composed id _ _ hat
  exact ⟨id, tx, admission, nonce, hholds, hpayload.symm⟩

theorem relayed_entry_admitted_rifRelayed :
    ∃ state it, run (admissionStep admittingServer) (.initial TxStore.empty) rifRelayed =
        some state ∧ it ∈ state.shared.txStore ∧
      ∃ (id : CallId) (tx : EnvelopingTransaction) (admission : Admission) (nonce : ℕ),
        admission.Holds admittingServer TxStore.empty rifRelayed id tx ∧
          it.payload = admission.payload admittingServer tx nonce := by
  have hentry : ((run (admissionStep admittingServer) (.initial TxStore.empty) rifRelayed).any
      fun state => state.shared.txStore.entries.any (·.serverAction = .relayCall)) = true := by
    decide +kernel
  obtain ⟨state, hrun, hentry⟩ := (Option.any_eq_true _ _).mp hentry
  obtain ⟨it, hit, hrelay⟩ := List.any_eq_true.mp hentry
  obtain ⟨id, tx, admission, nonce, hholds, hpayload⟩ :=
    relayed_entry_admitted hrun hit (of_decide_eq_true hrelay)
      fun found hfound => absurd hfound (TxStore.not_mem_empty found)
  exact ⟨state, it, hrun, hit, id, tx, admission, nonce, hholds, hpayload⟩

end RifRelayServer
