import RifRelayServer.Admission
import RifRelayServer.Lib.Occurrences

/-!
# Requests among other calls

A request is admitted step by step while other requests, other calls and the rounds of
the worker go on. The gas price, the readiness and the alert are the server's at the
moment a request looks at them.
-/

namespace RifRelayServer

open Runs

/-- Where `createRelayTransaction` waits: in its delay, for the expiration of the request, in
its poll, for what other services answer, or in its transaction. -/
inductive RequestPoint
  | sleeping
  | expiring
  | polling
  | preparing
  | sending (details : SendTransactionDetails) (point : SendPoint)
  | thrown (error : String)

inductive RequestAnswer
  | slept
  | clock (now : ℕ)
  | world (world : RelayWorld)
  | answer (answer : Answer)

def RequestPoint.validated (server : AdmittingServer) (gasPrice : ℕ)
    (tx : EnvelopingTransaction) : RequestPoint :=
  match validateInput server gasPrice tx with
  | .error e => thrown e
  | .ok () => expiring

/-- Up to the first await. -/
def RequestPoint.arrived (server : AdmittingServer) (isReady alerted : Bool) (gasPrice : ℕ)
    (tx : EnvelopingTransaction) : RequestPoint :=
  if !isReady then thrown relayNotReady
  else
    match server.client.validateInputTypes tx.toHttpEnvelopingRequest with
    | .error e => thrown e
    | .ok () => if alerted then sleeping else validated server gasPrice tx

def RequestPoint.resume (server : AdmittingServer) (id : CallId) (gasPrice : ℕ)
    (tx : EnvelopingTransaction) (shared : Shared) :
    RequestPoint → RequestAnswer → Option (Shared × RequestPoint)
  | sleeping, .slept => some (shared, validated server gasPrice tx)
  | expiring, .clock now =>
      match validateInputAt server now tx with
      | .error e => some (shared, thrown e)
      | .ok () => some (shared, polling)
  | polling, .answer (.transactionCount (.error e)) => some (shared, thrown e)
  | polling, .answer (.transactionCount (.ok count)) =>
      let nonce := (resolveNonce shared.nonces server.workerAddress count).1
      match checkMaxNonce tx.metadata.relayMaxNonce nonce with
      | .error e => some (shared.polled server.workerAddress count, thrown e)
      | .ok () => some (shared.polled server.workerAddress count, preparing)
  | preparing, .world world =>
      match prepareRelayCall server world tx with
      | .error e => some (shared, thrown e)
      | .ok call =>
          some (shared, sending (relayCallDetails server.toRelayServer tx.toHttpEnvelopingRequest
            call.method call.gasLimit call.currentBlock) .gasPrice)
  | sending details point, .answer answer =>
      (point.resume server.dependencies id details shared answer).map fun (shared, point) =>
        (shared, sending details point)
  | _, _ => none

/-- The refill check that follows a relayed transaction. -/
def RequestPoint.emitted : RequestPoint → List Task
  | sending details (.returned _) => [.replenishStrategy details.creationBlockNumber]
  | _ => []

inductive AdmittedCall
  | request (tx : EnvelopingTransaction) (point : RequestPoint)
  | other (call : Call)

structure AdmissionState where
  shared : Shared
  calls : List AdmittedCall
  gasPrice : ℕ
  isReady : Bool
  alerted : Bool

/-- A request arrives or goes on, another call starts or goes on, or a round writes to the
store or to what requests look at. -/
inductive AdmissionEvent
  | arrive (tx : EnvelopingTransaction)
  | resumeRequest (id : CallId) (answer : RequestAnswer)
  | start (task : Task)
  | resume (id : CallId) (answer : Answer)
  | write (write : RoundWrite)
  | refresh (gasPrice : ℕ) (isReady alerted : Bool)

/-- Only a request sends a relayed transaction. -/
def Task.isRelay : Task → Bool
  | sendTransaction details => details.serverAction = .relayCall
  | createRelayTransaction _ => true
  | _ => false

def admissionStep (server : AdmittingServer) (state : AdmissionState) :
    AdmissionEvent → Option AdmissionState
  | .arrive tx =>
      let point := RequestPoint.arrived server state.isReady state.alerted state.gasPrice tx
      some { state with calls := state.calls ++ [.request tx point] }
  | .resumeRequest id answer =>
      match state.calls[id]? with
      | some (.request tx point) =>
          (point.resume server id state.gasPrice tx state.shared answer).map fun (shared, point) =>
            { state with
              shared
              calls := state.calls.set id (.request tx point) ++
                point.emitted.map fun task => .other (task.started server.toRelayServer) }
      | _ => none
  | .start task =>
      if task.isRelay then none
      else some { state with
        calls := state.calls ++ [.other (task.started server.toRelayServer)] }
  | .resume id answer =>
      match state.calls[id]? with
      | some (.other call) =>
          (call.resume server.toRelayServer id state.shared answer).map fun (shared, call) =>
            { state with shared, calls := state.calls.set id (.other call) }
      | _ => none
  | .write write =>
      match write.apply state.shared.txStore with
      | .error _ => none
      | .ok txStore => some { state with shared := { state.shared with txStore } }
  | .refresh gasPrice isReady alerted => some { state with gasPrice, isReady, alerted }

/-- A process that has just started. It is not ready, and knows no gas price. -/
def AdmissionState.initial (txStore : TxStore) : AdmissionState where
  shared := (ServerState.initial txStore).shared
  calls := []
  gasPrice := 0
  isReady := false
  alerted := false

def RequestPoint.isWaiting : RequestPoint → Bool
  | sleeping | expiring | polling | preparing => true
  | sending _ _ | thrown _ => false

inductive RequestStep (server : AdmittingServer) (id : CallId) (gasPrice : ℕ)
    (tx : EnvelopingTransaction) (shared : Shared) :
    RequestPoint → RequestAnswer → Shared → RequestPoint → Prop
  | validated (h : Addressed server gasPrice tx) :
      RequestStep server id gasPrice tx shared .sleeping .slept shared .expiring
  | timed (now : ℕ) (h : InTime server now tx) :
      RequestStep server id gasPrice tx shared .expiring (.clock now) shared .polling
  | polled (count : ℕ)
      (h : tx.metadata.relayMaxNonce.isExceededBy
        (resolveNonce shared.nonces server.workerAddress count).1 = false) :
      RequestStep server id gasPrice tx shared .polling (.answer (.transactionCount (.ok count)))
        (shared.polled server.workerAddress count) .preparing
  | refused (count : ℕ) (e : String)
      (h : checkMaxNonce tx.metadata.relayMaxNonce
        (resolveNonce shared.nonces server.workerAddress count).1 = .error e) :
      RequestStep server id gasPrice tx shared .polling (.answer (.transactionCount (.ok count)))
        (shared.polled server.workerAddress count) (.thrown e)
  | prepared {world : RelayWorld} {call : RelayCall}
      (h : prepareRelayCall server world tx = .ok call) :
      RequestStep server id gasPrice tx shared .preparing (.world world) shared
        (.sending (relayCallDetails server.toRelayServer tx.toHttpEnvelopingRequest call.method
          call.gasLimit call.currentBlock) .gasPrice)
  | sends {details : SendTransactionDetails} {point point' : SendPoint} {answer : Answer}
      {shared' : Shared}
      (h : point.resume server.dependencies id details shared answer = some (shared', point')) :
      RequestStep server id gasPrice tx shared (.sending details point) (.answer answer) shared'
        (.sending details point')
  | failed {point : RequestPoint} {answer : RequestAnswer} (e : String)
      (h : point.isWaiting = true) :
      RequestStep server id gasPrice tx shared point answer shared (.thrown e)

section Steps

variable {server : AdmittingServer} {id : CallId} {gasPrice : ℕ} {tx : EnvelopingTransaction}
  {shared shared' : Shared} {point point' : RequestPoint} {answer : RequestAnswer}

theorem RequestPoint.validated_cases (server : AdmittingServer) (gasPrice : ℕ)
    (tx : EnvelopingTransaction) :
    (∃ e, validated server gasPrice tx = thrown e) ∨
      validated server gasPrice tx = expiring ∧ Addressed server gasPrice tx := by
  unfold validated
  split
  next e _ => exact Or.inl ⟨e, rfl⟩
  next h => exact Or.inr ⟨rfl, addressed_of_validateInput h⟩

theorem checkMaxNonce_eq_ok_iff {relayMaxNonce : JsNumber} {nonce : ℕ} :
    checkMaxNonce relayMaxNonce nonce = .ok () ↔ relayMaxNonce.isExceededBy nonce = false := by
  unfold checkMaxNonce
  split
  next h => simp [h]
  next h => simp [h]

theorem RequestPoint.resume_cases
    (h : point.resume server id gasPrice tx shared answer = some (shared', point')) :
    RequestStep server id gasPrice tx shared point answer shared' point' := by
  unfold RequestPoint.resume at h
  split at h
  · obtain ⟨rfl, rfl⟩ := Prod.ext_iff.mp (Option.some.inj h)
    dsimp only
    rcases validated_cases server gasPrice tx with ⟨e, he⟩ | ⟨hexpiring, haddressed⟩
    · rw [he]
      exact .failed e rfl
    · rw [hexpiring]
      exact .validated haddressed
  next now =>
    split at h
    next e _ =>
      cases h
      exact .failed e rfl
    next hvalid =>
      cases h
      exact .timed now (inTime_of_validateInputAt hvalid)
  next e =>
    cases h
    exact .failed e rfl
  next count =>
    dsimp only at h
    split at h
    next e he =>
      cases h
      exact .refused count e he
    next hok =>
      cases h
      exact .polled count (checkMaxNonce_eq_ok_iff.mp hok)
  next world =>
    split at h
    next e _ =>
      cases h
      exact .failed e rfl
    next call hcall =>
      cases h
      exact .prepared hcall
  next details sendPoint answer =>
    obtain ⟨⟨sharedSent, pointSent⟩, hsend, heq⟩ := Option.map_eq_some_iff.mp h
    cases heq
    exact .sends hsend
  · cases h

/-- An event, from the point of view of the requests. -/
inductive AdmissionStep (server : AdmittingServer) (state : AdmissionState) :
    AdmissionEvent → AdmissionState → Prop
  | arrive (tx : EnvelopingTransaction) :
      AdmissionStep server state (.arrive tx) { state with
        calls := state.calls ++ [.request tx
          (.arrived server state.isReady state.alerted state.gasPrice tx)] }
  | request {id : CallId} {tx : EnvelopingTransaction} {point point' : RequestPoint}
      {answer : RequestAnswer} {shared' : Shared}
      (hcall : state.calls[id]? = some (.request tx point))
      (h : RequestStep server id state.gasPrice tx state.shared point answer shared' point') :
      AdmissionStep server state (.resumeRequest id answer) { state with
        shared := shared'
        calls := state.calls.set id (.request tx point') ++
          point'.emitted.map fun task => .other (task.started server.toRelayServer) }
  | start {task : Task} (h : task.isRelay = false) :
      AdmissionStep server state (.start task) { state with
        calls := state.calls ++ [.other (task.started server.toRelayServer)] }
  | resume {id : CallId} {call call' : Call} {answer : Answer} {shared' : Shared}
      (hcall : state.calls[id]? = some (.other call))
      (h : call.resume server.toRelayServer id state.shared answer = some (shared', call')) :
      AdmissionStep server state (.resume id answer) { state with
        shared := shared'
        calls := state.calls.set id (.other call') }
  | write {write : RoundWrite} {txStore : TxStore}
      (h : write.apply state.shared.txStore = .ok txStore) :
      AdmissionStep server state (.write write) { state with
        shared := { state.shared with txStore } }
  | refresh (gasPrice : ℕ) (isReady alerted : Bool) :
      AdmissionStep server state (.refresh gasPrice isReady alerted)
        { state with gasPrice, isReady, alerted }

theorem admissionStep_cases {state state' : AdmissionState} {event : AdmissionEvent}
    (h : admissionStep server state event = some state') :
    AdmissionStep server state event state' := by
  cases event with
  | arrive tx =>
      cases h
      exact .arrive tx
  | resumeRequest id answer =>
      dsimp only [admissionStep] at h
      split at h
      next tx point hcall =>
        obtain ⟨⟨shared', point'⟩, hresume, heq⟩ := Option.map_eq_some_iff.mp h
        cases heq
        exact .request hcall (RequestPoint.resume_cases hresume)
      · cases h
  | start task =>
      dsimp only [admissionStep] at h
      split at h
      · cases h
      next hrelay =>
        cases h
        exact .start (Bool.not_eq_true _ ▸ hrelay)
  | resume id answer =>
      dsimp only [admissionStep] at h
      split at h
      next call hcall =>
        obtain ⟨⟨shared', call'⟩, hresume, heq⟩ := Option.map_eq_some_iff.mp h
        cases heq
        exact .resume hcall hresume
      · cases h
  | write write =>
      dsimp only [admissionStep] at h
      split at h
      · cases h
      next txStore happly =>
        cases h
        exact .write happly
  | refresh gasPrice isReady alerted =>
      cases h
      exact .refresh gasPrice isReady alerted

end Steps

end RifRelayServer
