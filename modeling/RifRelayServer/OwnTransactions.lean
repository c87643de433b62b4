import RifRelayServer.Nonces

/-!
# Each call and its own transaction

A call of `sendTransaction` is answered with the transaction it asked for, and no other
call is answered with the same one. The transaction is in the store before it is
broadcast.
-/

namespace RifRelayServer

open Runs

variable {server : RelayServer} {state state' : ServerState} {event : Event}

/-- The transaction was signed for what the call asked for. -/
def Composed (dependencies : ServerDependencies) (details : SendTransactionDetails)
    (signedTransaction : SignedTransactionDetails) : Prop :=
  ∃ price nonce, dependencies.signatureOf (dependencies.keyManagerOf details.signer) details.signer
    (details.txToSign price nonce) = .ok signedTransaction

/-- What is known of the transaction that a call has come to. -/
def SendPoint.Composed (dependencies : ServerDependencies) (details : SendTransactionDetails) :
    SendPoint → Prop
  | storing signedTransaction storedTx =>
      ∃ price nonce, dependencies.signatureOf (dependencies.keyManagerOf details.signer)
          details.signer (details.txToSign price nonce) = .ok signedTransaction ∧
        storedTx = details.storedTx (details.txToSign price nonce) signedTransaction.txHash
  | broadcasting signedTransaction txId =>
      RifRelayServer.Composed dependencies details signedTransaction ∧
        txId = signedTransaction.txHash
  | returned signedTransaction => RifRelayServer.Composed dependencies details signedTransaction
  | _ => True

/-- The transaction that a call has stored. -/
def SendPoint.issued? : SendPoint → Option SignedTransactionDetails
  | broadcasting signedTransaction _ => some signedTransaction
  | returned signedTransaction => some signedTransaction
  | _ => none

theorem SendStep.composed {dependencies : ServerDependencies} {id : CallId}
    {details : SendTransactionDetails} {shared shared' : Shared} {point point' : SendPoint}
    {answer : Answer}
    (h : SendStep dependencies id details shared point answer shared' point')
    (hcomposed : point.Composed dependencies details) : point'.Composed dependencies details := by
  cases h with
  | signed hsigned => exact ⟨_, _, hsigned, rfl⟩
  | stored hput =>
      obtain ⟨price, nonce, hsigned, rfl⟩ := hcomposed
      exact ⟨⟨price, nonce, hsigned⟩, rfl⟩
  | accepted => exact hcomposed.1
  | priced | acquired | polled | released | failed => trivial

theorem SendStep.issued {dependencies : ServerDependencies} {id : CallId}
    {details : SendTransactionDetails} {shared shared' : Shared} {point point' : SendPoint}
    {answer : Answer} {signedTransaction : SignedTransactionDetails}
    (h : SendStep dependencies id details shared point answer shared' point')
    (hissued : point'.issued? = some signedTransaction) :
    point.issued? = some signedTransaction ∧ shared'.sent = shared.sent ∨
      ∃ storedTx, point = .storing signedTransaction storedTx ∧
        shared'.sent = shared.sent ++ [signedTransaction.signedTx] := by
  cases h with
  | stored hput =>
      cases hissued
      exact Or.inr ⟨_, rfl, rfl⟩
  | accepted => exact Or.inl ⟨hissued, rfl⟩
  | priced | acquired | polled | signed | released | failed => cases hissued

/-- An event, as the calls of `sendTransaction` see it: a step of one of them, or calls that
begin. -/
inductive SendingChange (server : RelayServer) (state state' : ServerState) : Prop
  | sends {id : CallId} {answer : Answer} {details : SendTransactionDetails}
      {point point' : SendPoint} (hat : state.sendingAt id = some (details, point))
      (hstep : SendStep server.dependencies id details state.shared point answer state'.shared point')
      (hat' : ∀ other, state'.sendingAt other =
        if other = id then some (details, point') else state.sendingAt other) :
      SendingChange server state state'
  | others (hsent : state'.shared.sent = state.shared.sent)
      (hat : ∀ id sending, state'.sendingAt id = some sending →
        state.sendingAt id = some sending ∨ sending.2 = .gasPrice) :
      SendingChange server state state'

theorem step_sendingChange (h : step server state event = some state') :
    SendingChange server state state' := by
  cases step_cases h with
  | start task =>
      refine .others rfl fun id sending hsending => ?_
      exact (sendingAt_start hsending).imp_right Task.sending?_started
  | resume hcall hcallStep =>
      cases hcallStep.nonceStep with
      | sends hsending hsending' hresume =>
          refine .sends ((sendingAt_of_call hcall).trans hsending) (SendPoint.resume_cases hresume) ?_
          intro other
          rw [sendingAt_set hcall, hsending']
      | polls hsending hsending' hpolls hanswer hshared =>
          refine .others (by rw [hshared]; rfl) fun other sending hother => Or.inl ?_
          rwa [sendingAt_polled hcall hsending hsending'] at hother
      | idles balance hsending hsending' hshared =>
          refine .others (by rw [hshared]) fun other sending hother => ?_
          rw [sendingAt_set hcall] at hother
          split at hother
          · exact Or.inr (hsending' sending hother)
          · exact Or.inl hother
  | write hwrite => exact .others rfl fun id sending hsending => Or.inl hsending

/-- What holds of the transactions that calls have come to, in every reachable state. -/
structure OwnInvariant (server : RelayServer) (state : ServerState) : Prop
    extends NonceInvariant state where
  composed : ∀ id details point, state.sendingAt id = some (details, point) →
    point.Composed server.dependencies details
  sent : ∀ id details point signedTransaction, state.sendingAt id = some (details, point) →
    point.issued? = some signedTransaction → signedTransaction.signedTx ∈ state.shared.sent
  alone : ∀ id details point signedTransaction other details' point' signedTransaction',
    state.sendingAt id = some (details, point) → point.issued? = some signedTransaction →
    state.sendingAt other = some (details', point') → point'.issued? = some signedTransaction' →
    signedTransaction.signedTx.signerNonce = signedTransaction'.signedTx.signerNonce → id = other

theorem signerNonce_not_mem_of_taken {shared : Shared} {details : SendTransactionDetails}
    {signedTransaction : SignedTransactionDetails} {storedTx : StoredTransaction}
    (htaken : Taken shared details (.storing signedTransaction storedTx))
    {sent : SignedTransaction} (hsent : sent ∈ shared.sent) :
    sent.signerNonce ≠ signedTransaction.signedTx.signerNonce := by
  intro hsame
  obtain ⟨hfrom, hnonce⟩ := Prod.ext_iff.mp hsame
  exact absurd hnonce (htaken.2.2 sent hsent (hfrom.trans htaken.1)).ne

namespace OwnInvariant

variable {id : CallId} {details : SendTransactionDetails} {point point' : SendPoint}
  {answer : Answer}

theorem sends (h : OwnInvariant server state) (hnonce : NonceInvariant state')
    (hat : state.sendingAt id = some (details, point))
    (hstep : SendStep server.dependencies id details state.shared point answer state'.shared point')
    (hat' : ∀ other, state'.sendingAt other =
      if other = id then some (details, point') else state.sendingAt other) :
    OwnInvariant server state' := by
  -- what the call of the step has stored, it has just stored or had stored before
  have hissued : ∀ signedTransaction, point'.issued? = some signedTransaction →
      ∀ other details' other' issued, other ≠ id →
        state.sendingAt other = some (details', other') → other'.issued? = some issued →
        signedTransaction.signedTx.signerNonce ≠ issued.signedTx.signerNonce := by
    intro signedTransaction hissued other details' other' issued hne hother hother' hsame
    rcases hstep.issued hissued with ⟨hbefore, -⟩ | ⟨storedTx, rfl, -⟩
    · exact hne (h.alone id details point signedTransaction other details' other' issued hat
        hbefore hother hother' hsame).symm
    · exact signerNonce_not_mem_of_taken (h.taken id details _ hat)
        (h.sent other details' other' issued hother hother') hsame.symm
  refine ⟨hnonce, ?_, ?_, ?_⟩
  · intro other details' other' hother
    rcases sendingAt_cases hat' hother with ⟨rfl, heq⟩ | ⟨-, hold⟩
    · cases heq
      exact hstep.composed (h.composed other details point hat)
    · exact h.composed other details' other' hold
  · intro other details' other' signedTransaction hother hother'
    rcases sendingAt_cases hat' hother with ⟨rfl, heq⟩ | ⟨-, hold⟩
    · cases heq
      rcases hstep.issued hother' with ⟨hbefore, hsame⟩ | ⟨storedTx, -, happend⟩
      · rw [hsame]
        exact h.sent other details point signedTransaction hat hbefore
      · rw [happend]
        exact List.mem_append_right _ List.mem_cons_self
    · exact hstep.sent_subset (h.sent other details' other' signedTransaction hold hother')
  · intro first details₁ point₁ signed₁ second details₂ point₂ signed₂ hfirst hsigned₁ hsecond
      hsigned₂ hsame
    rcases sendingAt_cases hat' hfirst with ⟨rfl, heq⟩ | ⟨hne, hold⟩ <;>
      rcases sendingAt_cases hat' hsecond with ⟨rfl, heq'⟩ | ⟨hne', hold'⟩
    · rfl
    · cases heq
      exact absurd hsame (hissued signed₁ hsigned₁ second details₂ point₂ signed₂ hne' hold' hsigned₂)
    · cases heq'
      exact absurd hsame.symm (hissued signed₂ hsigned₂ first details₁ point₁ signed₁ hne hold
        hsigned₁)
    · exact h.alone first details₁ point₁ signed₁ second details₂ point₂ signed₂ hold hsigned₁
        hold' hsigned₂ hsame

theorem others (h : OwnInvariant server state) (hnonce : NonceInvariant state')
    (hsent : state'.shared.sent = state.shared.sent)
    (hat : ∀ id sending, state'.sendingAt id = some sending →
      state.sendingAt id = some sending ∨ sending.2 = .gasPrice) : OwnInvariant server state' := by
  have hold : ∀ id details point signedTransaction,
      state'.sendingAt id = some (details, point) → point.issued? = some signedTransaction →
        state.sendingAt id = some (details, point) := by
    intro id details point signedTransaction hid hissued
    rcases hat id _ hid with hold | rfl
    · exact hold
    · cases hissued
  refine ⟨hnonce, ?_, ?_, ?_⟩
  · intro id details point hid
    rcases hat id _ hid with hold | rfl
    · exact h.composed id details point hold
    · trivial
  · intro id details point signedTransaction hid hissued
    rw [hsent]
    exact h.sent id details point signedTransaction (hold _ _ _ _ hid hissued) hissued
  · intro id details point signedTransaction other details' point' signedTransaction' hid hissued
      hother hissued' hsame
    exact h.alone id details point signedTransaction other details' point' signedTransaction'
      (hold _ _ _ _ hid hissued) hissued (hold _ _ _ _ hother hissued') hissued' hsame

end OwnInvariant

theorem step_ownInvariant (h : OwnInvariant server state)
    (hstep : step server state event = some state') : OwnInvariant server state' := by
  have hnonce := step_nonceInvariant h.toNonceInvariant hstep
  cases step_sendingChange hstep with
  | sends hat hsend hat' => exact h.sends hnonce hat hsend hat'
  | others hsent hat => exact h.others hnonce hsent hat

theorem ownInvariant_initial (txStore : TxStore) : OwnInvariant server (.initial txStore) where
  toNonceInvariant := nonceInvariant_initial txStore
  composed id details point h := by simp [ServerState.initial, ServerState.sendingAt] at h
  sent id details point signedTransaction h := by
    simp [ServerState.initial, ServerState.sendingAt] at h
  alone id details point signedTransaction other details' point' signedTransaction' h := by
    simp [ServerState.initial, ServerState.sendingAt] at h

theorem run_ownInvariant {txStore : TxStore} {events : List Event}
    (hrun : run (step server) (.initial txStore) events = some state) : OwnInvariant server state :=
  invariant_of_run (fun _ _ _ h hstep => step_ownInvariant h hstep) (ownInvariant_initial txStore)
    hrun

theorem Composed.signedTx_eq {dependencies : ServerDependencies} {details : SendTransactionDetails}
    {signedTransaction : SignedTransactionDetails}
    (h : Composed dependencies details signedTransaction) :
    ∃ price nonce, signedTransaction.signedTx =
        .ofPopulated details.signer (details.txToSign price nonce) ∧
      signedTransaction.txHash = dependencies.keccak256 signedTransaction.signedTx := by
  obtain ⟨price, nonce, hsigned⟩ := h
  obtain ⟨-, -, -, rfl⟩ := ServerDependencies.signatureOf_eq_ok_iff.mp hsigned
  exact ⟨price, nonce, rfl, rfl⟩

/-- However the calls interleave, a call of `sendTransaction` is answered with a transaction that
was signed for what it asked for and stored, and with one that no other call is answered with. -/
theorem answered_with_own_transaction {txStore : TxStore} {events : List Event}
    (hrun : run (step server) (.initial txStore) events = some state) {id : CallId}
    {details : SendTransactionDetails} {signedTransaction : SignedTransactionDetails}
    (hat : state.sendingAt id = some (details, .returned signedTransaction)) :
    (∃ price nonce, signedTransaction.signedTx =
        .ofPopulated details.signer (details.txToSign price nonce) ∧
      signedTransaction.txHash = server.dependencies.keccak256 signedTransaction.signedTx) ∧
      signedTransaction.signedTx ∈ state.shared.sent ∧
      ∀ other details' signedTransaction',
        state.sendingAt other = some (details', .returned signedTransaction') →
        signedTransaction'.signedTx.signerNonce = signedTransaction.signedTx.signerNonce →
        other = id := by
  have h := run_ownInvariant hrun
  have hcomposed : Composed server.dependencies details signedTransaction :=
    h.composed id details _ hat
  refine ⟨hcomposed.signedTx_eq, h.sent id details _ _ hat rfl, ?_⟩
  intro other details' signedTransaction' hother hsame
  exact h.alone other details' _ signedTransaction' id details _ signedTransaction hother rfl hat
    rfl hsame

theorem answered_with_own_transaction_twoRelayed :
    ∃ signedTransaction, (stateAfter twoRelayed).sendingAt 0 =
        some (sampleRelayed, .returned signedTransaction) ∧
      signedTransaction.signedTx ∈ (stateAfter twoRelayed).shared.sent ∧
      ∀ other details' signedTransaction',
        (stateAfter twoRelayed).sendingAt other = some (details', .returned signedTransaction') →
        signedTransaction'.signedTx.signerNonce = signedTransaction.signedTx.signerNonce →
        other = 0 := by
  have hrun : run (step sampleServer) (.initial TxStore.empty) twoRelayed =
      some (stateAfter twoRelayed) := rfl
  have hat : ∃ signedTransaction, (stateAfter twoRelayed).sendingAt 0 =
      some (sampleRelayed, .returned signedTransaction) := ⟨_, rfl⟩
  obtain ⟨signedTransaction, hat⟩ := hat
  exact ⟨signedTransaction, hat, (answered_with_own_transaction hrun hat).2⟩

end RifRelayServer
