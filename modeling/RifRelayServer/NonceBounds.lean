import RifRelayServer.Nonces

/-!
# The nonce bound of a relay request

A request's `relayMaxNonce` is compared with the worker's nonce once, before the
request is verified and estimated. The nonce it gets at last is within the bound
when nothing in between takes the worker's counter above it.
-/

namespace RifRelayServer

open Runs

/-- The bound was checked, and the nonce is not taken yet. -/
def RelayPoint.awaitsNonce : RelayPoint → Bool
  | preparing => true
  | sending _ .gasPrice | sending _ (.mutex _) | sending _ (.polling _) => true
  | _ => false

def Call.awaitedBound? : Call → Option JsNumber
  | .createRelayTransaction request point =>
      if point.awaitsNonce then some request.metadata.relayMaxNonce else none
  | _ => none

/-- The counter that an event raises, if it can, and what it is raised to: the
count a poll is answered with, or one more when a signature is made. -/
def ServerState.raised? (server : RelayServer) (state : ServerState) :
    Event → Option (Address × ℕ)
  | .resume id (.signature none) =>
      match state.sendingAt id with
      | some (details, .signing price nonce) =>
          (server.dependencies.signatureOf (server.dependencies.keyManagerOf details.signer)
              details.signer (details.txToSign price nonce)).toOption.map fun _ =>
            (details.signer, state.shared.nonces details.signer + 1)
      | _ => none
  | event => state.polled? server event

/-- The worker's counter is not raised above the bound of a request that waits
for its nonce. -/
def KeepsBounds (server : RelayServer) (state : ServerState) (event : Event) : Prop :=
  ∀ raised ∈ state.raised? server event, raised.1 = server.workerAddress →
    ∀ call ∈ state.calls, ∀ bound ∈ call.awaitedBound?, bound.isExceededBy raised.2 = false

instance (server : RelayServer) (state : ServerState) (event : Event) :
    Decidable (KeepsBounds server state event) :=
  inferInstanceAs (Decidable (∀ raised ∈ state.raised? server event,
    raised.1 = server.workerAddress → ∀ call ∈ state.calls, ∀ bound ∈ call.awaitedBound?,
      bound.isExceededBy raised.2 = false))

variable {server : RelayServer} {state state' : ServerState} {event : Event}

theorem resolveNonce_raises (nonces : Address → ℕ) (signer other : Address) (count : ℕ) :
    (resolveNonce nonces signer count).2 other = nonces other ∨
      other = signer ∧ (resolveNonce nonces signer count).2 other = count := by
  unfold resolveNonce
  split
  · exact Or.inl rfl
  · rcases eq_or_ne other signer with rfl | hne
    · exact Or.inr ⟨rfl, Function.update_self _ _ _⟩
    · exact Or.inl (Function.update_of_ne hne _ _)

theorem step_raised (h : step server state event = some state') (signer : Address) :
    state'.shared.nonces signer = state.shared.nonces signer ∨
      state.raised? server event = some (signer, state'.shared.nonces signer) := by
  cases step_cases h with
  | start task => exact Or.inl rfl
  | @resume id answer call call' shared hcall hcallStep =>
      have hat := sendingAt_of_call hcall
      cases hcallStep.nonceStep with
      | @sends details point point' hsending hsending' hresume =>
          rw [hsending] at hat
          cases SendPoint.resume_cases hresume with
          | polled count =>
              rcases resolveNonce_raises state.shared.nonces details.signer signer count with
                hsame | ⟨rfl, hcount⟩
              · exact Or.inl hsame
              · apply Or.inr
                show state.polled? server (.resume id (.transactionCount (.ok count))) =
                  some (_, (resolveNonce state.shared.nonces details.signer count).2 _)
                rw [hcount]
                exact polled?_of_polls hcall (Call.polls?_of_polling hsending) count
          | signed hsignature =>
              rcases eq_or_ne signer details.signer with rfl | hne
              · apply Or.inr
                simp [ServerState.raised?, hat, hsignature, Except.toOption]
              · exact Or.inl (Function.update_of_ne hne _ _)
          | priced | acquired | stored | released | failed | accepted => exact Or.inl rfl
      | @polls polled count hsending hsending' hpolls hanswer hshared =>
          subst hshared hanswer
          rcases resolveNonce_raises state.shared.nonces polled signer count with
            hsame | ⟨rfl, hcount⟩
          · exact Or.inl hsame
          · apply Or.inr
            show state.polled? server (.resume id (.transactionCount (.ok count))) =
              some (_, (resolveNonce state.shared.nonces signer count).2 _)
            rw [hcount]
            exact polled?_of_polls hcall hpolls count
      | idles balance hsending hsending' hshared =>
          subst hshared
          exact Or.inl rfl
  | write hwrite => exact Or.inl rfl

/-- What is known of the bound of a request that has passed its check. -/
def BoundKept (server : RelayServer) (shared : Shared) (bound : JsNumber) : RelayPoint → Prop
  | .preparing => bound.isExceededBy (shared.nonces server.workerAddress) = false
  | .sending details point => details.signer = server.workerAddress ∧
      match point with
      | .gasPrice | .mutex _ | .polling _ =>
          bound.isExceededBy (shared.nonces server.workerAddress) = false
      | .signing _ nonce => bound.isExceededBy nonce = false
      | .storing signedTransaction _ | .broadcasting signedTransaction _
      | .returned signedTransaction =>
          signedTransaction.signedTx.fromAddress = server.workerAddress ∧
            bound.isExceededBy signedTransaction.signedTx.nonce = false
      | .thrown _ => True
  | _ => True

def BoundInvariant (server : RelayServer) (state : ServerState) : Prop :=
  ∀ (id : CallId) (request : HttpEnvelopingRequest) (point : RelayPoint),
    state.calls[id]? = some (.createRelayTransaction request point) →
    BoundKept server state.shared request.metadata.relayMaxNonce point

theorem BoundKept.awaited {shared : Shared} {bound : JsNumber} {point : RelayPoint}
    (h : BoundKept server shared bound point) (hawaits : point.awaitsNonce = true) :
    bound.isExceededBy (shared.nonces server.workerAddress) = false := by
  cases point with
  | preparing => exact h
  | sending details point =>
      cases point with
      | gasPrice | mutex | polling => exact h.2
      | _ => cases hawaits
  | _ => cases hawaits

theorem BoundKept.raise {shared shared' : Shared} {bound : JsNumber} {point : RelayPoint}
    (h : BoundKept server shared bound point)
    (hraised : point.awaitsNonce = true →
      bound.isExceededBy (shared'.nonces server.workerAddress) = false) :
    BoundKept server shared' bound point := by
  cases point with
  | preparing => exact hraised rfl
  | sending details point =>
      cases point with
      | gasPrice | mutex | polling => exact ⟨h.1, hraised rfl⟩
      | _ => exact h
  | _ => trivial

theorem SendStep.boundKept {shared shared' : Shared} {bound : JsNumber} {id : CallId}
    {details : SendTransactionDetails} {point point' : SendPoint} {answer : Answer}
    (hstep : SendStep server.dependencies id details shared point answer shared' point')
    (h : BoundKept server shared bound (.sending details point))
    (hraised : RelayPoint.awaitsNonce (.sending details point) = true →
      bound.isExceededBy (shared'.nonces server.workerAddress) = false) :
    BoundKept server shared' bound (.sending details point') := by
  cases hstep with
  | priced price => exact h
  | acquired hfree => exact h
  | polled count =>
      refine ⟨h.1, ?_⟩
      show bound.isExceededBy (resolveNonce shared.nonces details.signer count).1 = false
      rw [resolveNonce_fst]
      exact h.1 ▸ hraised rfl
  | signed hsignature =>
      obtain ⟨-, -, -, rfl⟩ := ServerDependencies.signatureOf_eq_ok_iff.mp hsignature
      exact ⟨h.1, h.1, h.2⟩
  | stored hput => exact h
  | accepted => exact h
  | released e hholds => exact ⟨h.1, trivial⟩
  | failed e hholds => exact ⟨h.1, trivial⟩

theorem RelayStep.boundKept {shared shared' : Shared} {id : CallId}
    {request : HttpEnvelopingRequest} {point point' : RelayPoint} {answer : Answer}
    (hstep : RelayStep server id request shared point answer shared' point')
    (h : BoundKept server shared request.metadata.relayMaxNonce point)
    (hraised : point.awaitsNonce = true →
      request.metadata.relayMaxNonce.isExceededBy (shared'.nonces server.workerAddress) = false) :
    BoundKept server shared' request.metadata.relayMaxNonce point' := by
  cases hstep with
  | validated => trivial
  | polled count hbound =>
      show JsNumber.isExceededBy _ ((resolveNonce _ _ _).2 _) = false
      rwa [← resolveNonce_fst]
  | refused count e => trivial
  | prepared method gasLimit currentBlock => exact ⟨rfl, h⟩
  | sends hresume => exact (SendPoint.resume_cases hresume).boundKept h hraised
  | failed e hpoint => trivial

theorem step_boundInvariant (h : BoundInvariant server state)
    (hkeeps : KeepsBounds server state event) (hstep : step server state event = some state') :
    BoundInvariant server state' := by
  have hraised : ∀ (id : CallId) (request : HttpEnvelopingRequest) (point : RelayPoint),
      state.calls[id]? = some (.createRelayTransaction request point) →
      point.awaitsNonce = true → request.metadata.relayMaxNonce.isExceededBy
        (state'.shared.nonces server.workerAddress) = false := by
    intro id request point hcall hawaits
    rcases step_raised hstep server.workerAddress with hsame | hraised
    · rw [hsame]
      exact (h id request point hcall).awaited hawaits
    · apply hkeeps _ hraised rfl _ (List.mem_of_getElem? hcall) _
      simp [Call.awaitedBound?, hawaits]
  cases step_cases hstep with
  | start task =>
      intro id request point hcall
      rcases getElem?_started hcall with hold | hstarted
      · exact h id request point hold
      · cases task with
        | createRelayTransaction request =>
            cases hstarted
            trivial
        | _ => cases hstarted
  | @resume id answer call call' shared hcall hcallStep =>
      intro other request point hother
      rcases getElem?_resumed hcall hother with ⟨rfl, hsame⟩ | ⟨-, hold⟩
      · subst hsame
        cases hcallStep with
        | createRelayTransaction hrelay =>
            exact hrelay.boundKept (h _ _ _ hcall) (hraised _ _ _ hcall)
      · exact (h other request point hold).raise (hraised other request point hold)
  | write hwrite => exact h

theorem boundInvariant_initial (txStore : TxStore) : BoundInvariant server (.initial txStore) := by
  intro id request point h
  simp [ServerState.initial] at h

/-- What a relay request returns is signed by the worker with a nonce within the
request's bound, in every run whose steps take the worker's counter above no
bound that was checked and is still waited on. -/
theorem relayMaxNonce_honoured {txStore : TxStore} {events : List Event}
    (hrun : run (step server) (.initial txStore) events = some state)
    (hkeeps : Along (step server) (KeepsBounds server) (.initial txStore) events) {id : CallId}
    {request : HttpEnvelopingRequest} {details : SendTransactionDetails}
    {signedTransaction : SignedTransactionDetails}
    (hcall : state.calls[id]? =
      some (.createRelayTransaction request (.sending details (.returned signedTransaction)))) :
    signedTransaction.signedTx.fromAddress = server.workerAddress ∧
      request.metadata.relayMaxNonce.isExceededBy signedTransaction.signedTx.nonce = false := by
  have hinvariant : BoundInvariant server state :=
    invariant_of_along (fun _ _ _ h hallowed hstep => step_boundInvariant h hallowed hstep)
      (boundInvariant_initial txStore) hkeeps hrun
  exact (hinvariant id request _ hcall).2

def sampleRequest : HttpEnvelopingRequest where
  relayRequest :=
    ⟨⟨"0xcd3b766ccdd6ae721141f452c550ca635964ce71", "0x",
      "0x19f64674d8a5b4e652319f5e239efd3bc969a1fe", 0⟩, ⟨60⟩⟩
  metadata := ⟨"0x66Fa9FEAfB8Db66Fe2160ca7aEAc7FC24e254387", .finite 0, "0x01", false⟩

def samplePrepared : Answer := .prepared (.ok "0x6e079027") 150000 100

def relayAnswers (count : ℕ) (hash : Hash) : List Answer :=
  [.validated (.ok ()), .transactionCount (.ok count), samplePrepared, .gasPrice (.ok 10), .acquired,
    .transactionCount (.ok count), .signature none, .stored none, .broadcast (.ok hash)]

/-- A relay request, and a round's refill after it. -/
def relayedAlone : List Event :=
  .start (.createRelayTransaction sampleRequest) :: (relayAnswers 0 "0/60").map (.resume 0) ++
    [.start (.sendTransaction sampleRefill), .resume 1 (.gasPrice (.ok 10)), .resume 1 .acquired]

/-- The second request passes its check before the first has taken its nonce. -/
def relayedTogether : List Event :=
  [.start (.createRelayTransaction sampleRequest), .start (.createRelayTransaction sampleRequest)] ++
    ((relayAnswers 0 "0/60").take 3).map (.resume 0) ++
    ((relayAnswers 0 "1/60").take 3).map (.resume 1) ++
    ((relayAnswers 0 "0/60").drop 3).map (.resume 0) ++
    ((relayAnswers 0 "1/60").drop 3).map (.resume 1)

def relayedTransaction (nonce : ℕ) : SignedTransactionDetails where
  txHash := toString nonce ++ "/60"
  signedTx := ⟨sampleWorker, some "0x66Fa9FEAfB8Db66Fe2160ca7aEAc7FC24e254387", "0x6e079027", 0,
    150000, 60, nonce⟩

theorem relayMaxNonce_honoured_alone :
    (relayedTransaction 0).signedTx.fromAddress = sampleServer.workerAddress ∧
      sampleRequest.metadata.relayMaxNonce.isExceededBy (relayedTransaction 0).signedTx.nonce =
        false :=
  @relayMaxNonce_honoured sampleServer (stateAfter relayedAlone) TxStore.empty relayedAlone rfl
    (by decide +kernel) 0 sampleRequest
    (relayCallDetails sampleServer sampleRequest "0x6e079027" 150000 100) (relayedTransaction 0) rfl

/-- The second of two requests for the nonce 0 returns a transaction with nonce 1. -/
theorem relayMaxNonce_exceeded :
    ¬ ∀ (server : RelayServer) (txStore : TxStore) (events : List Event) (state : ServerState),
      run (step server) (.initial txStore) events = some state →
      ∀ (id : CallId) (request : HttpEnvelopingRequest) (details : SendTransactionDetails)
        (signedTransaction : SignedTransactionDetails),
        state.calls[id]? = some (.createRelayTransaction request
          (.sending details (.returned signedTransaction))) →
        signedTransaction.signedTx.fromAddress = server.workerAddress ∧
          request.metadata.relayMaxNonce.isExceededBy signedTransaction.signedTx.nonce = false := by
  intro h
  have hbound := h sampleServer TxStore.empty relayedTogether (stateAfter relayedTogether) rfl 1
    sampleRequest (relayCallDetails sampleServer sampleRequest "0x6e079027" 150000 100)
    (relayedTransaction 1) rfl
  exact absurd hbound.2 (by decide +kernel)

end RifRelayServer
