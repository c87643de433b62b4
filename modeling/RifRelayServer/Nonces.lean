import RifRelayServer.Calls
import RifRelayServer.Boosting

/-!
# Nonces of concurrent calls

Only the call that holds the mutex takes a nonce, but any poll may raise the
counter between the poll and the increment of that call. No nonce is used twice;
one is skipped when such a poll is answered with a count above the nonce taken.
-/

namespace RifRelayServer

open Runs

/-- The call of `sendTransaction` that a call is in, and where it is. -/
def Call.sending? : Call → Option (SendTransactionDetails × SendPoint)
  | .sendTransaction details point => some (details, point)
  | .createRelayTransaction _ (.sending details point) => some (details, point)
  | .replenishStrategy _ (.sending details point) => some (details, point)
  | _ => none

def Call.holdsMutex (call : Call) : Bool := call.sending?.any fun sending => sending.2.holdsMutex

def Call.polls? (server : RelayServer) : Call → Option Address
  | .pollNonce signer none => some signer
  | .validateMaxNonce _ none => some server.workerAddress
  | .createRelayTransaction _ .polling => some server.workerAddress
  | call =>
      match call.sending? with
      | some (details, .polling _) => some details.signer
      | _ => none

theorem Call.polls?_of_polling {server : RelayServer} {call : Call}
    {details : SendTransactionDetails} {price : ℕ}
    (h : call.sending? = some (details, .polling price)) :
    call.polls? server = some details.signer := by
  cases call with
  | sendTransaction details point =>
      cases h
      rfl
  | createRelayTransaction request point =>
      cases point with
      | sending details point =>
          cases h
          rfl
      | _ => cases h
  | replenishStrategy currentBlock point =>
      cases point with
      | sending details point =>
          cases h
          rfl
      | _ => cases h
  | _ => cases h

def ServerState.sendingAt (state : ServerState) (id : CallId) :
    Option (SendTransactionDetails × SendPoint) :=
  state.calls[id]?.bind Call.sending?

theorem sendingAt_set {state : ServerState} {id : CallId} {call call' : Call} {shared : Shared}
    (hcall : state.calls[id]? = some call) (other : CallId) :
    ServerState.sendingAt ⟨shared, state.calls.set id call'⟩ other =
      if other = id then call'.sending? else state.sendingAt other := by
  have hlt : id < state.calls.length := (List.getElem?_eq_some_iff.mp hcall).1
  rcases eq_or_ne other id with rfl | hne
  · simp [ServerState.sendingAt, hlt]
  · simp [ServerState.sendingAt, hne, hne.symm]

theorem sendingAt_of_call {state : ServerState} {id : CallId} {call : Call}
    (hcall : state.calls[id]? = some call) : state.sendingAt id = call.sending? := by
  rw [ServerState.sendingAt, hcall, Option.bind_some]

theorem sendingAt_start {state : ServerState} {call : Call} {id : CallId}
    {sending : SendTransactionDetails × SendPoint}
    (h : ServerState.sendingAt { state with calls := state.calls ++ [call] } id = some sending) :
    state.sendingAt id = some sending ∨ call.sending? = some sending := by
  obtain ⟨it, hit, hsending⟩ := Option.bind_eq_some_iff.mp h
  rcases getElem?_started hit with hold | rfl
  · exact Or.inl ((sendingAt_of_call hold).trans hsending)
  · exact Or.inr hsending

theorem Task.sending?_started {server : RelayServer} {task : Task}
    {sending : SendTransactionDetails × SendPoint}
    (h : (task.started server).sending? = some sending) : sending.2 = .gasPrice := by
  cases task with
  | sendTransaction details =>
      cases h
      rfl
  | pollNonce signer => cases h
  | validateMaxNonce relayMaxNonce => cases h
  | createRelayTransaction request => cases h
  | replenishStrategy currentBlock =>
      cases hcustom : server.customReplenish <;>
        simp [Task.started, Call.sending?, hcustom] at h

/-- The part of a call's step that nonces depend on: a step of `sendTransaction`,
the end of a poll outside it, or neither. -/
inductive NonceStep (server : RelayServer) (id : CallId) (shared : Shared) (call : Call)
    (answer : Answer) (shared' : Shared) (call' : Call) : Prop
  | sends {details : SendTransactionDetails} {point point' : SendPoint}
      (hcall : call.sending? = some (details, point))
      (hcall' : call'.sending? = some (details, point'))
      (h : point.resume server.dependencies id details shared answer = some (shared', point'))
  | polls {signer : Address} {count : ℕ} (hcall : call.sending? = none)
      (hcall' : call'.sending? = none) (hpolls : call.polls? server = some signer)
      (hanswer : answer = .transactionCount (.ok count))
      (hshared : shared' = shared.polled signer count)
  | idles (balance : ℤ) (hcall : call.sending? = none)
      (hcall' : ∀ sending, call'.sending? = some sending → sending.2 = .gasPrice)
      (hshared : shared' = { shared with workerBalance := balance })

variable {server : RelayServer} {id : CallId} {shared shared' : Shared} {call call' : Call}
  {answer : Answer} {details : SendTransactionDetails} {point point' : SendPoint}

theorem NonceStep.idle (hcall : call.sending? = none) (hcall' : call'.sending? = none) :
    NonceStep server id shared call answer shared call' :=
  .idles shared.workerBalance hcall (fun sending h => by simp [hcall'] at h) rfl

theorem NonceStep.begin (hcall : call.sending? = none)
    (hcall' : call'.sending? = some (details, .gasPrice)) :
    NonceStep server id shared call answer shared call' :=
  .idles shared.workerBalance hcall (fun sending h => by simp_all [eq_comm]) rfl

theorem RelayStep.nonceStep {request : HttpEnvelopingRequest} {point point' : RelayPoint}
    (h : RelayStep server id request shared point answer shared' point') :
    NonceStep server id shared (.createRelayTransaction request point) answer shared'
      (.createRelayTransaction request point') := by
  cases h with
  | validated => exact .idle rfl rfl
  | polled count h => exact .polls rfl rfl rfl rfl rfl
  | refused count e => exact .polls rfl rfl rfl rfl rfl
  | prepared method gasLimit currentBlock => exact .begin rfl rfl
  | sends h => exact .sends rfl rfl h
  | failed e h =>
      cases point with
      | sending details point => exact absurd rfl (h details point)
      | _ => exact .idle rfl rfl

theorem ReplenishStep.nonceStep {currentBlock : ℕ} {point point' : ReplenishPoint}
    (h : ReplenishStep server id currentBlock shared point answer shared' point') :
    NonceStep server id shared (.replenishStrategy currentBlock point) answer shared'
      (.replenishStrategy currentBlock point') := by
  cases h with
  | managerBalance balance => exact .idle rfl rfl
  | satisfied balance => exact .idles balance rfl (fun sending h => by cases h) rfl
  | workerBalance balance => exact .idles balance rfl (fun sending h => by cases h) rfl
  | decided hnone hrefill hfunds => exact .begin rfl rfl
  | declined => exact .idle rfl rfl
  | sends h => exact .sends rfl rfl h
  | failed e h =>
      cases point with
      | sending details point => exact absurd rfl (h details point)
      | _ => exact .idle rfl rfl

theorem CallStep.nonceStep (h : CallStep server id shared call answer shared' call') :
    NonceStep server id shared call answer shared' call' := by
  cases h with
  | sendTransaction h => exact .sends rfl rfl h
  | pollNonce count => exact .polls rfl rfl rfl rfl rfl
  | pollNonceFailed e => exact .idle rfl rfl
  | validateMaxNonce count => exact .polls rfl rfl rfl rfl rfl
  | validateMaxNonceFailed e => exact .idle rfl rfl
  | createRelayTransaction h => exact h.nonceStep
  | replenishStrategy h => exact h.nonceStep

@[simp] theorem Shared.counted_nonces_self (shared : Shared) (signer : Address) :
    (shared.counted signer).nonces signer = shared.nonces signer + 1 := by
  simp [Shared.counted]

theorem Shared.counted_nonces_le (shared : Shared) (signer other : Address) :
    shared.nonces other ≤ (shared.counted signer).nonces other := by
  rcases eq_or_ne other signer with rfl | hne
  · simp
  · simp [Shared.counted, hne]

theorem SendStep.nonces_le {dependencies : ServerDependencies}
    (h : SendStep dependencies id details shared point answer shared' point') (signer : Address) :
    shared.nonces signer ≤ shared'.nonces signer := by
  cases h with
  | polled count => exact resolveNonce_le _ _ _ _
  | signed h => exact shared.counted_nonces_le _ _
  | priced | acquired | stored | released | failed | accepted => exact le_rfl

theorem step_nonces_le {state state' : ServerState} {event : Event}
    (h : step server state event = some state') (signer : Address) :
    state.shared.nonces signer ≤ state'.shared.nonces signer := by
  cases step_cases h with
  | start task => exact le_rfl
  | resume hcall hcallStep =>
      cases hcallStep.nonceStep with
      | sends hcall hcall' h => exact (SendPoint.resume_cases h).nonces_le signer
      | polls hcall hcall' hpolls hanswer hshared =>
          rw [hshared]
          exact resolveNonce_le _ _ _ _
      | idles balance hcall hcall' hshared => rw [hshared]
  | write hwrite => exact le_rfl

/-- What is known of a nonce from the poll that gave it to the end of the
critical section: everything sent before has a smaller one. -/
def Taken (shared : Shared) (details : SendTransactionDetails) : SendPoint → Prop
  | .signing _ nonce => nonce ≤ shared.nonces details.signer ∧
      ∀ sent ∈ shared.sent, sent.fromAddress = details.signer → sent.nonce < nonce
  | .storing signedTransaction _ =>
      signedTransaction.signedTx.fromAddress = details.signer ∧
        signedTransaction.signedTx.nonce < shared.nonces details.signer ∧
        ∀ sent ∈ shared.sent, sent.fromAddress = details.signer →
          sent.nonce < signedTransaction.signedTx.nonce
  | _ => True

theorem Taken.raise (h : Taken shared details point)
    (hle : shared.nonces details.signer ≤ shared'.nonces details.signer)
    (hsent : shared'.sent = shared.sent) : Taken shared' details point := by
  cases point with
  | signing price nonce =>
      simp only [Taken, hsent] at h ⊢
      exact ⟨h.1.trans hle, h.2⟩
  | storing signedTransaction storedTx =>
      simp only [Taken, hsent] at h ⊢
      exact ⟨h.1, h.2.1.trans_le hle, h.2.2⟩
  | _ => trivial

theorem taken_of_not_holdsMutex (h : point.holdsMutex = false) : Taken shared details point := by
  cases point with
  | signing price nonce => cases h
  | storing signedTransaction storedTx => cases h
  | _ => trivial

def SignedTransaction.signerNonce (signed : SignedTransaction) : Address × ℕ :=
  (signed.fromAddress, signed.nonce)

/-- What holds of the counters and of the mutex in every reachable state. -/
structure NonceInvariant (state : ServerState) : Prop where
  holder : ∀ id, (∃ sending, state.sendingAt id = some sending ∧ sending.2.holdsMutex = true) ↔
    state.shared.nonceMutex = some id
  nodup : (state.shared.sent.map SignedTransaction.signerNonce).Nodup
  sent_lt : ∀ sent ∈ state.shared.sent, sent.nonce < state.shared.nonces sent.fromAddress
  taken : ∀ id details point, state.sendingAt id = some (details, point) →
    Taken state.shared details point

theorem SendStep.nonceMutex_cases {dependencies : ServerDependencies}
    (h : SendStep dependencies id details shared point answer shared' point') :
    (point'.holdsMutex = point.holdsMutex ∧ shared'.nonceMutex = shared.nonceMutex) ∨
      (point'.holdsMutex = true ∧ shared.nonceMutex = none ∧ shared'.nonceMutex = some id) ∨
        (point.holdsMutex = true ∧ point'.holdsMutex = false ∧ shared'.nonceMutex = none) := by
  cases h with
  | acquired hfree => exact Or.inr (Or.inl ⟨rfl, hfree, rfl⟩)
  | stored h => exact Or.inr (Or.inr ⟨rfl, rfl, rfl⟩)
  | released e h => exact Or.inr (Or.inr ⟨h, rfl, rfl⟩)
  | failed e h => exact Or.inl ⟨h.symm, rfl⟩
  | priced | polled | signed | accepted => exact Or.inl ⟨rfl, rfl⟩

theorem SendStep.sent_cases {dependencies : ServerDependencies}
    (h : SendStep dependencies id details shared point answer shared' point') :
    shared'.sent = shared.sent ∨
      ∃ signedTransaction storedTx, point = .storing signedTransaction storedTx ∧
        shared'.nonces = shared.nonces ∧
        shared'.sent = shared.sent ++ [signedTransaction.signedTx] := by
  cases h with
  | stored h => exact Or.inr ⟨_, _, rfl, rfl, rfl⟩
  | priced | acquired | polled | signed | released | failed | accepted => exact Or.inl rfl

theorem SendStep.taken {dependencies : ServerDependencies}
    (h : SendStep dependencies id details shared point answer shared' point')
    (hsent : ∀ sent ∈ shared.sent, sent.nonce < shared.nonces sent.fromAddress)
    (htaken : Taken shared details point) : Taken shared' details point' := by
  cases h with
  | polled count =>
      refine ⟨(resolveNonce_fst _ _ _).le, fun sent hmem hfrom => ?_⟩
      rw [resolveNonce_fst]
      exact (hfrom ▸ hsent sent hmem).trans_le (resolveNonce_le _ _ _ _)
  | signed hsignature =>
      obtain ⟨-, -, -, rfl⟩ := ServerDependencies.signatureOf_eq_ok_iff.mp hsignature
      refine ⟨rfl, ?_, htaken.2⟩
      rw [Shared.counted_nonces_self]
      exact Nat.lt_succ_of_le htaken.1
  | priced | acquired | stored | released | failed | accepted => trivial

theorem SendStep.nodup_sent {dependencies : ServerDependencies}
    (h : SendStep dependencies id details shared point answer shared' point')
    (hnodup : (shared.sent.map SignedTransaction.signerNonce).Nodup)
    (htaken : Taken shared details point) :
    (shared'.sent.map SignedTransaction.signerNonce).Nodup := by
  rcases h.sent_cases with hsame | ⟨signedTransaction, storedTx, rfl, -, happend⟩
  · rw [hsame]
    exact hnodup
  · rw [happend, List.map_append, List.nodup_append]
    refine ⟨hnodup, List.nodup_singleton _, ?_⟩
    rintro _ hold _ hnew rfl
    obtain ⟨sent, hsent, hkey⟩ := List.mem_map.mp hold
    obtain ⟨hfrom, hnonce⟩ := Prod.ext_iff.mp (hkey.trans (List.mem_singleton.mp hnew))
    exact absurd hnonce (htaken.2.2 sent hsent (hfrom.trans htaken.1)).ne

theorem SendStep.sent_lt {dependencies : ServerDependencies}
    (h : SendStep dependencies id details shared point answer shared' point')
    (hsent : ∀ sent ∈ shared.sent, sent.nonce < shared.nonces sent.fromAddress)
    (htaken : Taken shared details point) :
    ∀ sent ∈ shared'.sent, sent.nonce < shared'.nonces sent.fromAddress := by
  intro sent hmem
  rcases h.sent_cases with hsame | ⟨signedTransaction, storedTx, rfl, hnonces, happend⟩
  · rw [hsame] at hmem
    exact (hsent sent hmem).trans_le (h.nonces_le _)
  · rw [happend] at hmem
    rw [hnonces]
    rcases List.mem_append.mp hmem with hold | hnew
    · exact hsent sent hold
    · rw [List.mem_singleton.mp hnew, htaken.1]
      exact htaken.2.1

/-- After a step of one call, only that call is at a new point. -/
theorem sendingAt_cases {state state' : ServerState} {other : CallId}
    {sending : SendTransactionDetails × SendPoint}
    (hat' : ∀ other, state'.sendingAt other =
      if other = id then some (details, point') else state.sendingAt other)
    (hother : state'.sendingAt other = some sending) :
    (other = id ∧ sending = (details, point')) ∨
      (other ≠ id ∧ state.sendingAt other = some sending) := by
  rw [hat'] at hother
  rcases eq_or_ne other id with heq | hne
  · rw [if_pos heq] at hother
    exact Or.inl ⟨heq, (Option.some.inj hother).symm⟩
  · rw [if_neg hne] at hother
    exact Or.inr ⟨hne, hother⟩

namespace NonceInvariant

variable {state : ServerState}

theorem holds_iff (h : NonceInvariant state) (hat : state.sendingAt id = some (details, point)) :
    point.holdsMutex = true ↔ state.shared.nonceMutex = some id := by
  rw [← h.holder id, hat]
  simp

theorem eq_of_holdsMutex (h : NonceInvariant state) {other : CallId}
    {details' : SendTransactionDetails} {other' : SendPoint}
    (hat : state.sendingAt id = some (details, point)) (hpoint : point.holdsMutex = true)
    (hother : state.sendingAt other = some (details', other')) (hother' : other'.holdsMutex = true) :
    other = id :=
  Option.some.inj (((h.holds_iff hother).mp hother').symm.trans ((h.holds_iff hat).mp hpoint))

theorem sends (h : NonceInvariant state) {dependencies : ServerDependencies}
    (hat : state.sendingAt id = some (details, point))
    (hstep : SendStep dependencies id details state.shared point answer shared' point')
    {state' : ServerState} (hshared : state'.shared = shared')
    (hat' : ∀ other, state'.sendingAt other =
      if other = id then some (details, point') else state.sendingAt other) :
    NonceInvariant state' := by
  subst hshared
  have htaken := h.taken id details point hat
  refine ⟨fun other => ?_, hstep.nodup_sent h.nodup htaken, hstep.sent_lt h.sent_lt htaken, ?_⟩
  · rw [hat']
    rcases eq_or_ne other id with rfl | hne
    · have hholds := h.holds_iff hat
      rw [if_pos rfl]
      rcases hstep.nonceMutex_cases with ⟨hsame, hmutex⟩ | ⟨hpoint, -, hmutex⟩ | ⟨-, hpoint, hmutex⟩
      · simp [hsame, hmutex, hholds]
      · simp [hpoint, hmutex]
      · simp [hpoint, hmutex]
    · rw [if_neg hne, h.holder other]
      rcases hstep.nonceMutex_cases with ⟨-, hmutex⟩ | ⟨-, hfree, hmutex⟩ | ⟨hpoint, -, hmutex⟩
      · rw [hmutex]
      · simp [hfree, hmutex, hne.symm]
      · simp [(h.holds_iff hat).mp hpoint, hmutex, hne.symm]
  · intro other details' point₂ hother
    rcases sendingAt_cases hat' hother with ⟨rfl, hnew⟩ | ⟨hne, hold⟩
    · cases hnew
      exact hstep.taken h.sent_lt htaken
    · rcases hstep.sent_cases with hsame | ⟨signedTransaction, storedTx, rfl, -, -⟩
      · exact (h.taken other details' point₂ hold).raise (hstep.nonces_le _) hsame
      · refine taken_of_not_holdsMutex (Bool.eq_false_iff.mpr fun hholds => hne ?_)
        exact h.eq_of_holdsMutex hat rfl hold hholds

/-- Calls that are not in the critical section may come and go, and counters rise. -/
theorem others (h : NonceInvariant state) {state' : ServerState}
    (hmutex : state'.shared.nonceMutex = state.shared.nonceMutex)
    (hsent : state'.shared.sent = state.shared.sent)
    (hnonces : ∀ signer, state.shared.nonces signer ≤ state'.shared.nonces signer)
    (hat : ∀ id sending, sending.2.holdsMutex = true →
      (state'.sendingAt id = some sending ↔ state.sendingAt id = some sending)) :
    NonceInvariant state' where
  holder id := by
    rw [hmutex, ← h.holder id]
    apply exists_congr
    intro sending
    constructor
    · exact fun ⟨hsending, hholds⟩ => ⟨(hat id sending hholds).mp hsending, hholds⟩
    · exact fun ⟨hsending, hholds⟩ => ⟨(hat id sending hholds).mpr hsending, hholds⟩
  nodup := by
    rw [hsent]
    exact h.nodup
  sent_lt sent hmem := (h.sent_lt sent (hsent ▸ hmem)).trans_le (hnonces _)
  taken id details point hsending := by
    cases hholds : point.holdsMutex with
    | false => exact taken_of_not_holdsMutex hholds
    | true =>
        have hold := (hat id (details, point) hholds).mp hsending
        exact (h.taken id details point hold).raise (hnonces _) hsent

end NonceInvariant

theorem sendingAt_of_started {state : ServerState} {call : Call}
    {sending : SendTransactionDetails × SendPoint} (h : state.sendingAt id = some sending) :
    ServerState.sendingAt { state with calls := state.calls ++ [call] } id = some sending := by
  obtain ⟨it, hit, hsending⟩ := Option.bind_eq_some_iff.mp h
  rw [ServerState.sendingAt, List.getElem?_append_left (List.getElem?_eq_some_iff.mp hit).1, hit]
  exact hsending

theorem holdsMutex_of_started {task : Task} {state : ServerState}
    {sending : SendTransactionDetails × SendPoint} (hholds : sending.2.holdsMutex = true) :
    ServerState.sendingAt { state with calls := state.calls ++ [task.started server] } id =
      some sending ↔ state.sendingAt id = some sending := by
  constructor
  · intro h
    rcases sendingAt_start h with hold | hnew
    · exact hold
    · rw [Task.sending?_started hnew] at hholds
      cases hholds
  · exact sendingAt_of_started

theorem sendingAt_polled {state : ServerState} (hcall : state.calls[id]? = some call)
    (hsending : call.sending? = none) (hsending' : call'.sending? = none) (other : CallId) :
    ServerState.sendingAt ⟨shared, state.calls.set id call'⟩ other = state.sendingAt other := by
  rw [sendingAt_set hcall]
  rcases eq_or_ne other id with rfl | hne
  · rw [if_pos rfl, sendingAt_of_call hcall, hsending, hsending']
  · rw [if_neg hne]

theorem sendingAt_idle {state : ServerState} (hcall : state.calls[id]? = some call)
    (hsending : call.sending? = none)
    (hsending' : ∀ sending, call'.sending? = some sending → sending.2 = .gasPrice) (other : CallId)
    {sending : SendTransactionDetails × SendPoint} (hholds : sending.2.holdsMutex = true) :
    ServerState.sendingAt ⟨shared, state.calls.set id call'⟩ other = some sending ↔
      state.sendingAt other = some sending := by
  rw [sendingAt_set hcall]
  rcases eq_or_ne other id with rfl | hne
  · rw [if_pos rfl, sendingAt_of_call hcall, hsending]
    refine ⟨fun hnew => ?_, fun hold => nomatch hold⟩
    rw [hsending' sending hnew] at hholds
    cases hholds
  · rw [if_neg hne]

/-- What an event does, seen from the calls of `sendTransaction`: one of them takes a step, another
call polls, or calls outside the critical section come and go. -/
inductive SendingStep (server : RelayServer) (state : ServerState) : Event → ServerState → Prop
  | sends {id : CallId} {answer : Answer} {details : SendTransactionDetails}
      {point point' : SendPoint} {state' : ServerState}
      (hat : state.sendingAt id = some (details, point))
      (hresume : point.resume server.dependencies id details state.shared answer =
        some (state'.shared, point'))
      (hat' : ∀ other, state'.sendingAt other =
        if other = id then some (details, point') else state.sendingAt other) :
      SendingStep server state (.resume id answer) state'
  | polls {id : CallId} {call : Call} {signer : Address} {count : ℕ} {state' : ServerState}
      (hcall : state.calls[id]? = some call) (hpolls : call.polls? server = some signer)
      (hshared : state'.shared = state.shared.polled signer count)
      (hat' : ∀ other, state'.sendingAt other = state.sendingAt other) :
      SendingStep server state (.resume id (.transactionCount (.ok count))) state'
  | others {event : Event} {state' : ServerState}
      (hmutex : state'.shared.nonceMutex = state.shared.nonceMutex)
      (hsent : state'.shared.sent = state.shared.sent)
      (hreported : state'.shared.reported = state.shared.reported)
      (hnonces : state'.shared.nonces = state.shared.nonces)
      (hstore : state'.shared.txStore = state.shared.txStore ∨
        ∃ write, RoundWrite.apply state.shared.txStore write = .ok state'.shared.txStore)
      (hat : ∀ id sending, sending.2.holdsMutex = true →
        (state'.sendingAt id = some sending ↔ state.sendingAt id = some sending)) :
      SendingStep server state event state'

theorem step_sending {state state' : ServerState} {event : Event}
    (hstep : step server state event = some state') : SendingStep server state event state' := by
  cases step_cases hstep with
  | start task =>
      exact .others rfl rfl rfl rfl (Or.inl rfl) fun id sending => holdsMutex_of_started
  | resume hcall hcallStep =>
      cases hcallStep.nonceStep with
      | sends hsending hsending' hresume =>
          apply SendingStep.sends ((sendingAt_of_call hcall).trans hsending) hresume
          intro other
          rw [sendingAt_set hcall, hsending']
      | polls hsending hsending' hpolls hanswer hshared =>
          subst hanswer hshared
          exact .polls hcall hpolls rfl (sendingAt_polled hcall hsending hsending')
      | idles balance hsending hsending' hshared =>
          subst hshared
          exact .others rfl rfl rfl rfl (Or.inl rfl) fun other _ =>
            sendingAt_idle hcall hsending hsending' other
  | write hwrite =>
      exact .others rfl rfl rfl rfl (Or.inr ⟨_, hwrite⟩) fun id sending _ => Iff.rfl

theorem step_nonceInvariant {state state' : ServerState} {event : Event}
    (h : NonceInvariant state) (hstep : step server state event = some state') :
    NonceInvariant state' := by
  have hle := step_nonces_le hstep
  cases step_sending hstep with
  | sends hat hresume hat' => exact h.sends hat (SendPoint.resume_cases hresume) rfl hat'
  | polls hcall hpolls hshared hat' =>
      apply h.others (by rw [hshared]; rfl) (by rw [hshared]; rfl) hle
      intro other sending _
      rw [hat']
  | others hmutex hsent hreported hnonces hstore hat => exact h.others hmutex hsent hle hat

theorem nonceInvariant_initial (txStore : TxStore) : NonceInvariant (.initial txStore) where
  holder id := by simp [ServerState.initial, ServerState.sendingAt]
  nodup := List.nodup_nil
  sent_lt sent hsent := nomatch hsent
  taken id details point h := by simp [ServerState.initial, ServerState.sendingAt] at h

theorem run_nonceInvariant {txStore : TxStore} {events : List Event} {state : ServerState}
    (hrun : run (step server) (.initial txStore) events = some state) : NonceInvariant state :=
  invariant_of_run (fun _ _ _ h hstep => step_nonceInvariant h hstep)
    (nonceInvariant_initial txStore) hrun

theorem call_holdsMutex_iff {state : ServerState} :
    (∃ call, state.calls[id]? = some call ∧ call.holdsMutex = true) ↔
      ∃ sending, state.sendingAt id = some sending ∧ sending.2.holdsMutex = true := by
  simp only [ServerState.sendingAt, Call.holdsMutex, Option.any_eq_true, Option.bind_eq_some_iff]
  constructor
  · rintro ⟨call, hcall, sending, hsending, hholds⟩
    exact ⟨sending, ⟨call, hcall, hsending⟩, hholds⟩
  · rintro ⟨sending, ⟨call, hcall, hsending⟩, hholds⟩
    exact ⟨call, hcall, sending, hsending, hholds⟩

/-- However the calls interleave and whatever the node answers, no nonce of a
signer is used twice, no counter goes down, and the mutex is held by the one
call in its critical section, if there is one. -/
theorem nonces_unique {txStore : TxStore} {events : List Event} {state : ServerState}
    (hrun : run (step server) (.initial txStore) events = some state) :
    (state.shared.sent.map SignedTransaction.signerNonce).Nodup ∧
      (∀ later state', run (step server) state later = some state' → ∀ signer,
        state.shared.nonces signer ≤ state'.shared.nonces signer) ∧
      ∀ id, (∃ call, state.calls[id]? = some call ∧ call.holdsMutex = true) ↔
        state.shared.nonceMutex = some id := by
  have hinvariant := run_nonceInvariant hrun
  refine ⟨hinvariant.nodup, fun later state' hlater => ?_, fun id => ?_⟩
  · exact le_of_run (β := Address → ℕ) (fun _ _ _ hstep => step_nonces_le hstep) hlater
  · rw [call_holdsMutex_iff]
    exact hinvariant.holder id

def sampleServer : RelayServer where
  dependencies := sampleDependencies
  customReplenish := false

def sampleRelayed : SendTransactionDetails where
  signer := sampleWorker
  serverAction := .relayCall
  method := some "0x6e079027"
  destination := "0x66Fa9FEAfB8Db66Fe2160ca7aEAc7FC24e254387"
  gasLimit := 150000
  creationBlockNumber := 100

/-- Two relayed transactions at once; the node answers both polls with 0. -/
def twoRelayed : List Event :=
  [.start (.sendTransaction sampleRelayed), .start (.sendTransaction sampleRelayed),
    .resume 0 (.gasPrice (.ok 10)), .resume 1 (.gasPrice (.ok 10)), .resume 0 .acquired,
    .resume 0 (.transactionCount (.ok 0)), .resume 0 (.signature none), .resume 0 (.stored none),
    .resume 1 .acquired, .resume 1 (.transactionCount (.ok 0)), .resume 1 (.signature none),
    .resume 0 (.broadcast (.ok "0/10")), .resume 1 (.stored none)]

def stateAfter (events : List Event) : ServerState :=
  (run (step sampleServer) (.initial TxStore.empty) events).getD (.initial TxStore.empty)

theorem nonces_unique_twoRelayed :
    ((stateAfter twoRelayed).shared.sent.map SignedTransaction.signerNonce).Nodup ∧
      (∀ later state', run (step sampleServer) (stateAfter twoRelayed) later = some state' → ∀ signer,
        (stateAfter twoRelayed).shared.nonces signer ≤ state'.shared.nonces signer) ∧
      ∀ id, (∃ call, (stateAfter twoRelayed).calls[id]? = some call ∧ call.holdsMutex = true) ↔
        (stateAfter twoRelayed).shared.nonceMutex = some id :=
  nonces_unique (rfl : run (step sampleServer) (.initial TxStore.empty) twoRelayed =
    some (stateAfter twoRelayed))

def Call.taken? (call : Call) : Option (Address × ℕ) :=
  match call.sending? with
  | some (details, .signing _ nonce) => some (details.signer, nonce)
  | _ => none

/-- The poll that an event ends, with the count the node reports. -/
def ServerState.polled? (server : RelayServer) (state : ServerState) :
    Event → Option (Address × ℕ)
  | .resume id (.transactionCount (.ok count)) =>
      (state.calls[id]?.bind (·.polls? server)).map fun signer => (signer, count)
  | _ => none

theorem polled?_of_polls {server : RelayServer} {state : ServerState} {id : CallId} {call : Call}
    {signer : Address} (hcall : state.calls[id]? = some call)
    (hpolls : call.polls? server = some signer) (count : ℕ) :
    state.polled? server (.resume id (.transactionCount (.ok count))) = some (signer, count) := by
  simp [ServerState.polled?, hcall, hpolls]

/-- While a call has taken a nonce and not counted it, no other poll of its
signer is answered with a count above that nonce. -/
def NoPollAboveTaken (server : RelayServer) (state : ServerState) (event : Event) : Prop :=
  ∀ polled ∈ state.polled? server event, ∀ call ∈ state.calls, ∀ taken ∈ call.taken?,
    taken.1 = polled.1 → polled.2 ≤ taken.2

def SendPoint.isPastPoll : SendPoint → Bool
  | signing _ _ | storing _ _ | broadcasting _ _ => true
  | _ => false

def SendPoint.isThrown : SendPoint → Bool
  | thrown _ => true
  | _ => false

/-- No signing, store write or broadcast fails. -/
def Unfailing (server : RelayServer) (state : ServerState) : Event → Prop
  | .resume id answer => ∀ sending ∈ state.sendingAt id, sending.2.isPastPoll = true →
      ∀ moved ∈ sending.2.resume server.dependencies id sending.1 state.shared answer,
        moved.2.isThrown = false
  | _ => True

instance (server : RelayServer) (state : ServerState) (event : Event) :
    Decidable (NoPollAboveTaken server state event) :=
  inferInstanceAs (Decidable (∀ polled ∈ state.polled? server event, ∀ call ∈ state.calls,
    ∀ taken ∈ call.taken?, taken.1 = polled.1 → polled.2 ≤ taken.2))

instance (server : RelayServer) (state : ServerState) (event : Event) :
    Decidable (Unfailing server state event) :=
  match event with
  | .resume id answer =>
      inferInstanceAs (Decidable (∀ sending ∈ state.sendingAt id, sending.2.isPastPoll = true →
        ∀ moved ∈ sending.2.resume server.dependencies id sending.1 state.shared answer,
          moved.2.isThrown = false))
  | .start _ => isTrue trivial
  | .write _ => isTrue trivial

/-- The nonce was sent, or is being stored, or was passed at the node. -/
def Accounted (state : ServerState) (signer : Address) (nonce : ℕ) : Prop :=
  (signer, nonce) ∈ state.shared.sent.map SignedTransaction.signerNonce ∨
    (∃ count, (signer, count) ∈ state.shared.reported ∧ nonce < count) ∨
      ∃ id details signedTransaction storedTx,
        state.sendingAt id = some (details, .storing signedTransaction storedTx) ∧
          signedTransaction.signedTx.signerNonce = (signer, nonce)

theorem Accounted.mono {state state' : ServerState} {signer : Address} {nonce : ℕ}
    (h : Accounted state signer nonce) (hsent : state.shared.sent ⊆ state'.shared.sent)
    (hreported : state.shared.reported ⊆ state'.shared.reported)
    (hstoring : ∀ id details signedTransaction storedTx,
      state.sendingAt id = some (details, .storing signedTransaction storedTx) →
        signedTransaction.signedTx ∈ state'.shared.sent ∨
          state'.sendingAt id = some (details, .storing signedTransaction storedTx)) :
    Accounted state' signer nonce := by
  rcases h with h | ⟨count, hcount, hlt⟩ | ⟨id, details, signedTransaction, storedTx, hat, hkey⟩
  · exact Or.inl (List.map_subset _ hsent h)
  · exact Or.inr (Or.inl ⟨count, hreported hcount, hlt⟩)
  · rcases hstoring id details signedTransaction storedTx hat with hmem | hat'
    · exact Or.inl (List.mem_map.mpr ⟨_, hmem, hkey⟩)
    · exact Or.inr (Or.inr ⟨id, details, signedTransaction, storedTx, hat', hkey⟩)

structure GaplessInvariant (state : ServerState) : Prop extends NonceInvariant state where
  accounted : ∀ signer nonce, nonce < state.shared.nonces signer → Accounted state signer nonce
  settled : ∀ id details price nonce,
    state.sendingAt id = some (details, .signing price nonce) →
      state.shared.nonces details.signer = nonce

theorem resolveNonce_of_le {nonces : Address → ℕ} {signer : Address} {count : ℕ}
    (h : count ≤ nonces signer) : (resolveNonce nonces signer count).2 = nonces := by
  unfold resolveNonce
  split
  · rfl
  next hnot =>
    obtain rfl : nonces signer = count := le_antisymm (not_lt.mp hnot) h
    exact Function.update_eq_self _ _

theorem lt_resolveNonce {nonces : Address → ℕ} {signer other : Address} {count nonce : ℕ}
    (h : nonce < (resolveNonce nonces signer count).2 other) :
    nonce < nonces other ∨ other = signer ∧ nonce < count := by
  unfold resolveNonce at h
  split at h
  · exact Or.inl h
  · rcases eq_or_ne other signer with rfl | hne
    · exact Or.inr ⟨rfl, by simpa using h⟩
    · exact Or.inl (by simpa [hne] using h)

theorem resolveNonce_of_ne {nonces : Address → ℕ} {signer other : Address} (count : ℕ)
    (h : other ≠ signer) : (resolveNonce nonces signer count).2 other = nonces other := by
  unfold resolveNonce
  split
  · rfl
  · exact Function.update_of_ne h _ _

theorem SendStep.nonces_eq {dependencies : ServerDependencies}
    (h : SendStep dependencies id details shared point answer shared' point')
    (hholds : point.holdsMutex = false) : shared'.nonces = shared.nonces := by
  cases h with
  | priced | acquired | failed | accepted => rfl
  | polled | signed | stored => cases hholds
  | released e h => rfl

theorem SendStep.sent_subset {dependencies : ServerDependencies}
    (h : SendStep dependencies id details shared point answer shared' point') :
    shared.sent ⊆ shared'.sent := by
  rcases h.sent_cases with hsame | ⟨_, _, _, _, happend⟩
  · exact hsame ▸ List.Subset.refl _
  · exact happend ▸ List.subset_append_left _ _

theorem SendStep.reported_subset {dependencies : ServerDependencies}
    (h : SendStep dependencies id details shared point answer shared' point') :
    shared.reported ⊆ shared'.reported := by
  cases h with
  | polled count => exact List.subset_append_left _ _
  | priced | acquired | signed | stored | released | failed | accepted =>
      exact List.Subset.refl _

theorem SendStep.storing {dependencies : ServerDependencies}
    {signedTransaction : SignedTransactionDetails} {storedTx : StoredTransaction}
    (h : SendStep dependencies id details shared (.storing signedTransaction storedTx) answer
      shared' point') (hthrown : point'.isThrown = false) :
    signedTransaction.signedTx ∈ shared'.sent := by
  cases h with
  | stored h => exact List.mem_append_right _ List.mem_cons_self
  | released e h => cases hthrown
  | failed e h => cases h

theorem SendStep.lt_nonces {dependencies : ServerDependencies}
    (h : SendStep dependencies id details shared point answer shared' point') {signer : Address}
    {nonce : ℕ} (hlt : nonce < shared'.nonces signer) (hle : shared.nonces signer ≤ nonce) :
    (∃ count, (signer, count) ∈ shared'.reported ∧ nonce < count) ∨
      signer = details.signer ∧ nonce = shared.nonces signer ∧
        ∃ price taken signedTransaction storedTx, point = .signing price taken ∧
          point' = .storing signedTransaction storedTx ∧
          signedTransaction.signedTx.signerNonce = (details.signer, taken) := by
  cases h with
  | polled count =>
      rcases lt_resolveNonce hlt with hold | ⟨rfl, hcount⟩
      · exact absurd hold hle.not_gt
      · exact Or.inl ⟨count, List.mem_append_right _ List.mem_cons_self, hcount⟩
  | @signed price taken _ hsignature =>
      obtain ⟨-, -, -, rfl⟩ := ServerDependencies.signatureOf_eq_ok_iff.mp hsignature
      rcases eq_or_ne signer details.signer with rfl | hne
      · rw [Shared.counted_nonces_self] at hlt
        exact Or.inr ⟨rfl, le_antisymm (Nat.lt_succ_iff.mp hlt) hle, price, taken, _, _, rfl, rfl,
          rfl⟩
      · simp only [Shared.counted, Function.update_of_ne hne] at hlt
        exact absurd hlt hle.not_gt
  | priced | acquired | stored | released | failed | accepted => exact absurd hlt hle.not_gt

namespace GaplessInvariant

variable {state : ServerState}

theorem sends (h : GaplessInvariant state) (hat : state.sendingAt id = some (details, point))
    {dependencies : ServerDependencies}
    (hstep : SendStep dependencies id details state.shared point answer shared' point')
    (hunfailing : point.isPastPoll = true → point'.isThrown = false)
    {state' : ServerState} (hshared : state'.shared = shared')
    (hat' : ∀ other, state'.sendingAt other =
      if other = id then some (details, point') else state.sendingAt other) :
    GaplessInvariant state' := by
  refine ⟨h.toNonceInvariant.sends hat hstep hshared hat', ?_, ?_⟩
  · intro signer nonce hlt
    subst hshared
    by_cases hold : nonce < state.shared.nonces signer
    · apply (h.accounted signer nonce hold).mono hstep.sent_subset hstep.reported_subset
      intro other details' signedTransaction storedTx hother
      rcases eq_or_ne other id with rfl | hne
      · obtain ⟨-, rfl⟩ := Prod.ext_iff.mp (Option.some.inj (hat.symm.trans hother))
        exact Or.inl (hstep.storing (hunfailing rfl))
      · exact Or.inr (by rw [hat', if_neg hne, hother])
    · rcases hstep.lt_nonces hlt (not_lt.mp hold) with hreported |
        ⟨rfl, rfl, price, taken, signedTransaction, storedTx, rfl, rfl, hkey⟩
      · exact Or.inr (Or.inl hreported)
      · refine Or.inr (Or.inr ⟨id, details, signedTransaction, storedTx, ?_, ?_⟩)
        · rw [hat', if_pos rfl]
        · rw [hkey, h.settled id details price taken hat]
  · intro other details' price nonce hother
    rcases sendingAt_cases hat' hother with ⟨rfl, hnew⟩ | ⟨hne, hold⟩
    · cases hnew
      rw [hshared]
      cases hstep with
      | polled count => exact (resolveNonce_fst _ _ _).symm
    · cases hpoint : point.holdsMutex with
      | true => exact absurd (h.eq_of_holdsMutex hat hpoint hold rfl) hne
      | false =>
          rw [hshared, hstep.nonces_eq hpoint]
          exact h.settled other details' price nonce hold

theorem polls (h : GaplessInvariant state) {signer : Address} {count : ℕ}
    (hbelow : ∀ id details price nonce, state.sendingAt id = some (details, .signing price nonce) →
      details.signer = signer → count ≤ nonce)
    {state' : ServerState} (hshared : state'.shared = state.shared.polled signer count)
    (hat' : ∀ other, state'.sendingAt other = state.sendingAt other) :
    GaplessInvariant state' := by
  refine ⟨h.toNonceInvariant.others (by rw [hshared]; rfl) (by rw [hshared]; rfl) ?_ ?_, ?_, ?_⟩
  · intro other
    rw [hshared]
    exact resolveNonce_le _ _ _ _
  · intro other sending _
    rw [hat']
  · intro other nonce hlt
    have hreported : state'.shared.reported = state.shared.reported ++ [(signer, count)] := by
      rw [hshared]
      rfl
    rw [hshared] at hlt
    rcases lt_resolveNonce hlt with hold | ⟨rfl, hcount⟩
    · refine (h.accounted other nonce hold).mono ?_ ?_ fun id details signedTransaction storedTx hid =>
        Or.inr (by rw [hat', hid])
      · rw [hshared]
        exact List.Subset.refl _
      · rw [hreported]
        exact List.subset_append_left _ _
    · refine Or.inr (Or.inl ⟨count, ?_, hcount⟩)
      rw [hreported]
      exact List.mem_append_right _ List.mem_cons_self
  · intro other details price nonce hother
    rw [hat'] at hother
    have hsettled := h.settled other details price nonce hother
    rw [hshared]
    show (resolveNonce state.shared.nonces signer count).2 details.signer = nonce
    rcases eq_or_ne details.signer signer with heq | hne
    · rw [resolveNonce_of_le, hsettled]
      rw [← heq, hsettled]
      exact hbelow other details price nonce hother heq
    · rw [resolveNonce_of_ne count hne, hsettled]

theorem others (h : GaplessInvariant state) {state' : ServerState}
    (hmutex : state'.shared.nonceMutex = state.shared.nonceMutex)
    (hsent : state'.shared.sent = state.shared.sent)
    (hreported : state'.shared.reported = state.shared.reported)
    (hnonces : state'.shared.nonces = state.shared.nonces)
    (hat : ∀ id sending, sending.2.holdsMutex = true →
      (state'.sendingAt id = some sending ↔ state.sendingAt id = some sending)) :
    GaplessInvariant state' := by
  refine ⟨h.toNonceInvariant.others hmutex hsent (fun signer => by rw [hnonces]) hat, ?_, ?_⟩
  · intro signer nonce hlt
    rw [hnonces] at hlt
    exact (h.accounted signer nonce hlt).mono (hsent ▸ List.Subset.refl _)
      (hreported ▸ List.Subset.refl _) fun id details signedTransaction storedTx hid =>
        Or.inr ((hat id _ rfl).mpr hid)
  · intro id details price nonce hid
    rw [hnonces]
    exact h.settled id details price nonce ((hat id (details, .signing price nonce) rfl).mp hid)

end GaplessInvariant

theorem exists_taken_of_sendingAt {state : ServerState} {price nonce : ℕ}
    (h : state.sendingAt id = some (details, .signing price nonce)) :
    ∃ call ∈ state.calls, call.taken? = some (details.signer, nonce) := by
  obtain ⟨call, hcall, hsending⟩ := Option.bind_eq_some_iff.mp h
  exact ⟨call, List.mem_of_getElem? hcall, by simp [Call.taken?, hsending]⟩

theorem step_gaplessInvariant {state state' : ServerState} {event : Event}
    (h : GaplessInvariant state) (hpolls : NoPollAboveTaken server state event)
    (hunfailing : Unfailing server state event) (hstep : step server state event = some state') :
    GaplessInvariant state' := by
  cases step_sending hstep with
  | @sends id answer details point point' _ hat hresume hat' =>
      apply h.sends hat (SendPoint.resume_cases hresume) _ rfl hat'
      intro hpast
      exact hunfailing (details, point) hat hpast (state'.shared, point') hresume
  | @polls id call signer count _ hcall hpolling hshared hat' =>
      apply h.polls _ hshared hat'
      intro other details price nonce hother heq
      obtain ⟨taker, htaker, htaken⟩ := exists_taken_of_sendingAt hother
      exact hpolls (signer, count) (polled?_of_polls hcall hpolling count) taker htaker _ htaken heq
  | others hmutex hsent hreported hnonces hstore hat =>
      exact h.others hmutex hsent hreported hnonces hat

theorem gaplessInvariant_initial (txStore : TxStore) : GaplessInvariant (.initial txStore) where
  toNonceInvariant := nonceInvariant_initial txStore
  accounted signer nonce h := absurd h (Nat.not_lt_zero nonce)
  settled id details price nonce h := by simp [ServerState.initial, ServerState.sendingAt] at h

/-- No nonce is skipped in a run without failures, as long as no poll is answered
with a count above a nonce that is taken and not counted. -/
theorem no_nonce_skipped {txStore : TxStore} {events : List Event} {state : ServerState}
    (hrun : run (step server) (.initial txStore) events = some state)
    (hpolls : Along (step server) (NoPollAboveTaken server) (.initial txStore) events)
    (hunfailing : Along (step server) (Unfailing server) (.initial txStore) events)
    (signer : Address) (nonce : ℕ) (h : nonce < state.shared.nonces signer) :
    Accounted state signer nonce := by
  have hinvariant : GaplessInvariant state :=
    invariant_of_along (fun _ _ _ h hallowed hstep => step_gaplessInvariant h hallowed.1 hallowed.2 hstep)
      (gaplessInvariant_initial txStore) (hpolls.and hunfailing) hrun
  exact hinvariant.accounted signer nonce h

/-- A relayed transaction and a nonce check, whose poll is answered with `count`
while the transaction is being signed with nonce 0. -/
def checkWhileSigning (count : ℕ) : List Event :=
  [.start (.sendTransaction sampleRelayed), .start (.validateMaxNonce (.finite 30)),
    .resume 0 (.gasPrice (.ok 10)), .resume 0 .acquired, .resume 0 (.transactionCount (.ok 0)),
    .resume 1 (.transactionCount (.ok count)), .resume 0 (.signature none),
    .resume 0 (.stored none), .resume 0 (.broadcast (.ok "0/10"))]

theorem no_nonce_skipped_checkWhileSigning :
    0 < (stateAfter (checkWhileSigning 0)).shared.nonces sampleWorker ∧
      Accounted (stateAfter (checkWhileSigning 0)) sampleWorker 0 :=
  ⟨by decide +kernel, @no_nonce_skipped sampleServer TxStore.empty (checkWhileSigning 0)
    (stateAfter (checkWhileSigning 0)) rfl (by decide +kernel) (by decide +kernel) sampleWorker 0
    (by decide +kernel)⟩

/-- The check reads 1 before the nonce 0 is counted: the counter goes on to 2. -/
theorem nonce_skipped :
    ¬ ∀ (server : RelayServer) (txStore : TxStore) (events : List Event) (state : ServerState),
      run (step server) (.initial txStore) events = some state →
      Along (step server) (Unfailing server) (.initial txStore) events →
      ∀ signer nonce, nonce < state.shared.nonces signer → Accounted state signer nonce := by
  intro h
  have haccounted := h sampleServer TxStore.empty (checkWhileSigning 1) (stateAfter (checkWhileSigning 1)) rfl
    (by decide +kernel) sampleWorker 1 (by decide +kernel)
  have hsent : (stateAfter (checkWhileSigning 1)).shared.sent.map SignedTransaction.signerNonce =
      [(sampleWorker, 0)] := by decide +kernel
  have hreported : (stateAfter (checkWhileSigning 1)).shared.reported =
      [(sampleWorker, 0), (sampleWorker, 1)] := by decide +kernel
  rcases haccounted with hmem | ⟨count, hcount, hlt⟩ | ⟨id, details, _, _, hat, -⟩
  · rw [hsent] at hmem
    exact absurd hmem (by decide)
  · rw [hreported] at hcount
    simp at hcount
    omega
  · match id with
    | 0 => cases hat
    | 1 => cases hat
    | id + 2 => cases hat

end RifRelayServer
