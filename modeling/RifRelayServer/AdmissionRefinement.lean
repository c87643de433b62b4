import RifRelayServer.AdmittedCalls
import RifRelayServer.Nonces

/-!
# Admission refines the calls in progress

The server that admits its requests does what the server of `Calls` does, which leaves
open how a request is validated and prepared. What holds in every state that the calls
can reach holds under admission too.
-/

namespace RifRelayServer

open Runs

def RequestPoint.toRelayPoint : RequestPoint → RelayPoint
  | sleeping | expiring => .validating
  | polling => .polling
  | preparing => .preparing
  | sending details point => .sending details point
  | thrown e => .thrown e

def AdmittedCall.toCall : AdmittedCall → Call
  | request tx point => .createRelayTransaction tx.toHttpEnvelopingRequest point.toRelayPoint
  | other call => call

def AdmissionState.toServerState (state : AdmissionState) : ServerState where
  shared := state.shared
  calls := state.calls.map AdmittedCall.toCall

variable {server : AdmittingServer}

theorem getElem?_toServerState {state : AdmissionState} {id : CallId} {call : AdmittedCall}
    (h : state.calls[id]? = some call) : state.toServerState.calls[id]? = some call.toCall := by
  rw [AdmissionState.toServerState, List.getElem?_map, h, Option.map_some]

theorem run_resume_one {server : RelayServer} {state : ServerState} {id : CallId}
    {call call' : Call} {answer : Answer} {shared' : Shared}
    (hcall : state.calls[id]? = some call)
    (h : call.resume server id state.shared answer = some (shared', call')) :
    run (step server) state [.resume id answer] = some ⟨shared', state.calls.set id call'⟩ := by
  simp [run, step, hcall, h]

theorem run_starts (server : RelayServer) (state : ServerState) (tasks : List Task) :
    run (step server) state (tasks.map .start) =
      some { state with calls := state.calls ++ tasks.map (·.started server) } := by
  induction tasks generalizing state with
  | nil => simp
  | cons task tasks ih => simp [run, step, ih]

/-- A failure is answered at the point that waits. -/
theorem RequestPoint.exists_failing {point : RequestPoint} (h : point.isWaiting = true)
    (id : CallId) (request : HttpEnvelopingRequest) (shared : Shared) (e : String) :
    ∃ answer, point.toRelayPoint.resume server.toRelayServer id request shared answer =
      some (shared, .thrown e) := by
  cases point with
  | sleeping => exact ⟨.validated (.error e), rfl⟩
  | expiring => exact ⟨.validated (.error e), rfl⟩
  | polling => exact ⟨.transactionCount (.error e), rfl⟩
  | preparing => exact ⟨.prepared (.error e) 0 0, rfl⟩
  | sending details point => cases h
  | thrown e => cases h

theorem RequestStep.matched {id : CallId} {gasPrice : ℕ} {tx : EnvelopingTransaction}
    {shared shared' : Shared} {point point' : RequestPoint} {answer : RequestAnswer}
    (h : RequestStep server id gasPrice tx shared point answer shared' point') :
    (shared' = shared ∧ point'.toRelayPoint = point.toRelayPoint) ∨
      ∃ answer', point.toRelayPoint.resume server.toRelayServer id tx.toHttpEnvelopingRequest
        shared answer' = some (shared', point'.toRelayPoint) := by
  cases h with
  | validated => exact Or.inl ⟨rfl, rfl⟩
  | timed now => exact Or.inr ⟨.validated (.ok ()), rfl⟩
  | polled count hpolled =>
      refine Or.inr ⟨.transactionCount (.ok count), ?_⟩
      simp [RequestPoint.toRelayPoint, RelayPoint.resume, checkMaxNonce_eq_ok_iff.mpr hpolled]
  | refused count e hrefused =>
      refine Or.inr ⟨.transactionCount (.ok count), ?_⟩
      simp [RequestPoint.toRelayPoint, RelayPoint.resume, hrefused]
  | @prepared world call hprepared =>
      exact Or.inr ⟨.prepared (.ok call.method) call.gasLimit call.currentBlock, rfl⟩
  | @sends details sendPoint sendPoint' answer _ hsends =>
      refine Or.inr ⟨answer, ?_⟩
      simp [RequestPoint.toRelayPoint, RelayPoint.resume, hsends]
  | failed e hwaiting => exact Or.inr (RequestPoint.exists_failing hwaiting _ _ _ e)

theorem RequestPoint.arrived_cases (server : AdmittingServer) (isReady alerted : Bool)
    (gasPrice : ℕ) (tx : EnvelopingTransaction) :
    (∃ e, arrived server isReady alerted gasPrice tx = thrown e) ∨
      isReady = true ∧ server.client.validateInputTypes tx.toHttpEnvelopingRequest = .ok () ∧
        (arrived server isReady alerted gasPrice tx = sleeping ∨
          arrived server isReady alerted gasPrice tx = expiring ∧ Addressed server gasPrice tx) := by
  unfold arrived
  split
  · exact Or.inl ⟨_, rfl⟩
  next hready =>
    have hready : isReady = true := by simpa using hready
    split
    next e _ => exact Or.inl ⟨e, rfl⟩
    next htypes =>
      split
      · exact Or.inr ⟨hready, htypes, Or.inl rfl⟩
      · rcases validated_cases server gasPrice tx with he | hexpiring
        · exact Or.inl he
        · exact Or.inr ⟨hready, htypes, Or.inr hexpiring⟩

theorem run_arrived (server : AdmittingServer) (state : AdmissionState) (tx : EnvelopingTransaction) :
    ∃ events, run (step server.toRelayServer) state.toServerState events =
      some { state.toServerState with
        calls := state.toServerState.calls ++ [.createRelayTransaction tx.toHttpEnvelopingRequest
          (RequestPoint.arrived server state.isReady state.alerted state.gasPrice
            tx).toRelayPoint] } := by
  have hstart : run (step server.toRelayServer) state.toServerState
      [.start (.createRelayTransaction tx.toHttpEnvelopingRequest)] =
        some { state.toServerState with
          calls := state.toServerState.calls ++
            [.createRelayTransaction tx.toHttpEnvelopingRequest .validating] } := rfl
  rcases RequestPoint.arrived_cases server state.isReady state.alerted state.gasPrice tx with
    ⟨e, he⟩ | ⟨-, -, hsleeping | ⟨hexpiring, -⟩⟩
  · refine ⟨[.start (.createRelayTransaction tx.toHttpEnvelopingRequest)] ++
      [.resume state.toServerState.calls.length (.validated (.error e))],
      run_append_eq_some_iff.mpr ⟨_, hstart, ?_⟩⟩
    rw [he, run_resume_one (List.getElem?_concat_length ..) rfl]
    simp [RequestPoint.toRelayPoint]
  · rw [hsleeping]
    exact ⟨_, hstart⟩
  · rw [hexpiring]
    exact ⟨_, hstart⟩

theorem set_of_getElem? {α : Type} {items : List α} {n : ℕ} {item : α} (h : items[n]? = some item) :
    items.set n item = items := by
  obtain ⟨hlt, rfl⟩ := List.getElem?_eq_some_iff.mp h
  exact List.set_getElem_self hlt

theorem run_requested {state : AdmissionState} {id : CallId} {tx : EnvelopingTransaction}
    {point point' : RequestPoint} {answer : RequestAnswer} {shared' : Shared}
    (hcall : state.calls[id]? = some (.request tx point))
    (h : RequestStep server id state.gasPrice tx state.shared point answer shared' point') :
    ∃ events, run (step server.toRelayServer) state.toServerState events =
      some ⟨shared', state.toServerState.calls.set id
        (.createRelayTransaction tx.toHttpEnvelopingRequest point'.toRelayPoint)⟩ := by
  have hcall' := getElem?_toServerState hcall
  rcases h.matched with ⟨rfl, hsame⟩ | ⟨answer', hresume⟩
  · have hsame' : state.toServerState.calls.set id
        (.createRelayTransaction tx.toHttpEnvelopingRequest point'.toRelayPoint) =
          state.toServerState.calls := by
      rw [hsame]
      exact set_of_getElem? hcall'
    exact ⟨[], by rw [hsame']; rfl⟩
  · refine ⟨[.resume id answer'], run_resume_one hcall' ?_⟩
    simp only [AdmittedCall.toCall, Call.resume]
    exact Option.map_eq_some_iff.mpr ⟨_, hresume, rfl⟩

/-- Every step of admission is a run of the calls. -/
theorem admissionStep_matched {state state' : AdmissionState} {event : AdmissionEvent}
    (h : admissionStep server state event = some state') :
    ∃ events, run (step server.toRelayServer) state.toServerState events =
      some state'.toServerState := by
  cases admissionStep_cases h with
  | arrive tx =>
      obtain ⟨events, hrun⟩ := run_arrived server state tx
      refine ⟨events, hrun.trans ?_⟩
      simp [AdmissionState.toServerState, AdmittedCall.toCall]
  | @request id tx point point' answer shared' hcall hstep =>
      obtain ⟨events, hrun⟩ := run_requested hcall hstep
      refine ⟨events ++ point'.emitted.map .start,
        run_append_eq_some_iff.mpr ⟨_, hrun, (run_starts _ _ _).trans ?_⟩⟩
      simp [AdmissionState.toServerState, AdmittedCall.toCall, List.map_set, Function.comp_def]
  | @start task hrelay =>
      refine ⟨[.start task], ?_⟩
      simp [AdmissionState.toServerState, run, step, AdmittedCall.toCall]
  | resume hcall hresume =>
      refine ⟨[.resume _ _], (run_resume_one (getElem?_toServerState hcall) hresume).trans ?_⟩
      simp [AdmissionState.toServerState, AdmittedCall.toCall, List.map_set]
  | @write write txStore hwrite =>
      refine ⟨[.write write], ?_⟩
      simp [run, step, AdmissionState.toServerState, hwrite]
  | refresh gasPrice isReady alerted => exact ⟨[], rfl⟩

/-- The server that admits its requests refines the calls in progress. -/
theorem admission_refines_calls {txStore : TxStore} {events : List AdmissionEvent}
    {state : AdmissionState}
    (hrun : run (admissionStep server) (.initial txStore) events = some state) :
    ∃ events', run (step server.toRelayServer) (.initial txStore) events' =
      some state.toServerState :=
  run_matched AdmissionState.toServerState (fun _ _ _ hstep => admissionStep_matched hstep) hrun

def admittingServer : AdmittingServer where
  dependencies := sampleDependencies
  customReplenish := false
  relayHubAddress := "0x66fa9feafb8db66fe2160ca7aeac7fc24e254387"
  client := fixedGasClient 145000
  appConfig := chargingConfig
  contracts := {
    relayVerifierAddress := "0x56ccdB6D312307Db7A4847c3Ea8Ce2449e9B79e9"
    deployVerifierAddress := "0x5C6e96a84271AC19974C3e99d6c4bE4318BfE483"
    feesReceiver := addressZero
    trustedVerifiers := [] }
  requestMinValidSeconds := 43200
  texts := sampleTexts

def rifTransaction : EnvelopingTransaction where
  toHttpEnvelopingRequest := rifPayment
  isDeployRequest := false
  gas := .finite 16559
  validUntilTime := .finite 1700086400
  feesReceiver := sampleWorker
  callForwarder := "0xc3D55e5244b4aB3cFbF5BD41ad1A6C5bfF2381AD"
  callVerifier := "0x56ccdB6D312307Db7A4847c3Ea8Ce2449e9B79e9"

def rifWorld : RelayWorld where
  client := fixedGasClient 145000
  services := rifServices
  connect _ _ := .ok ()
  verifyRelayedCall _ _ := .ok ()
  estimateInternalCallGas _ := .ok 16000
  populateTransaction _ := .ok "0x6e079027"
  maxPossibleGasVerification _ _ _ _ := .ok 145000
  getBlockNumber := .ok 100

/-- A request that is valid for another day, and is relayed. -/
def rifRelayed : List AdmissionEvent :=
  [.refresh 60000000 true false, .arrive rifTransaction, .resumeRequest 0 (.clock 1700000000000),
    .resumeRequest 0 (.answer (.transactionCount (.ok 0))), .resumeRequest 0 (.world rifWorld),
    .resumeRequest 0 (.answer (.gasPrice (.ok 10))), .resumeRequest 0 (.answer .acquired),
    .resumeRequest 0 (.answer (.transactionCount (.ok 0))),
    .resumeRequest 0 (.answer (.signature none)), .resumeRequest 0 (.answer (.stored none)),
    .resumeRequest 0 (.answer (.broadcast (.ok "0/60000000")))]

theorem exists_run_rifRelayed :
    ∃ state, run (admissionStep admittingServer) (.initial TxStore.empty) rifRelayed =
      some state :=
  Option.isSome_iff_exists.mp (by decide +kernel)

theorem admission_refines_calls_rifRelayed :
    ∃ state events', run (admissionStep admittingServer) (.initial TxStore.empty) rifRelayed =
        some state ∧
      run (step admittingServer.toRelayServer) (.initial TxStore.empty) events' =
        some state.toServerState := by
  obtain ⟨state, hrun⟩ := exists_run_rifRelayed
  obtain ⟨events', hrun'⟩ := admission_refines_calls hrun
  exact ⟨state, events', hrun, hrun'⟩

end RifRelayServer
