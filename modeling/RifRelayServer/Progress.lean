import RifRelayServer.Nonces
import RifRelayServer.Lib.Occurrences

/-!
# Calls come to an end

No call can wait for ever on another one: the one thing that calls wait for among
themselves is the nonce mutex, and the call that holds it waits for the node, the wallet
or the store. A call goes on a bounded number of times.
-/

namespace RifRelayServer

open Runs

inductive AnswerKind
  | gasPrice
  | acquired
  | transactionCount
  | signature
  | stored
  | broadcast
  | validated
  | prepared
  | balance
  | pendingAction
  deriving DecidableEq

def Answer.kind : Answer → AnswerKind
  | gasPrice _ => .gasPrice
  | acquired => .acquired
  | transactionCount _ => .transactionCount
  | signature _ => .signature
  | stored _ => .stored
  | broadcast _ => .broadcast
  | validated _ => .validated
  | prepared _ _ _ => .prepared
  | balance _ => .balance
  | pendingAction _ => .pendingAction

/-- The answer that is waited for, if any. -/
def SendPoint.awaits? : SendPoint → Option AnswerKind
  | gasPrice => some .gasPrice
  | mutex _ => some .acquired
  | polling _ => some .transactionCount
  | signing _ _ => some .signature
  | storing _ _ => some .stored
  | broadcasting _ _ => some .broadcast
  | returned _ | thrown _ => none

def RelayPoint.awaits? : RelayPoint → Option AnswerKind
  | validating => some .validated
  | polling => some .transactionCount
  | preparing => some .prepared
  | sending _ point => point.awaits?
  | thrown _ => none

def ReplenishPoint.awaits? : ReplenishPoint → Option AnswerKind
  | readingManagerBalance | readingWorkerBalance _ => some .balance
  | checkingPending _ _ => some .pendingAction
  | sending _ point => point.awaits?
  | finished | thrown _ => none

def Call.awaits? : Call → Option AnswerKind
  | sendTransaction _ point => point.awaits?
  | pollNonce _ none | validateMaxNonce _ none => some .transactionCount
  | pollNonce _ (some _) | validateMaxNonce _ (some _) => none
  | createRelayTransaction _ point => point.awaits?
  | replenishStrategy _ point => point.awaits?

/-- How often a call can still go on. -/
def SendPoint.left : SendPoint → ℕ
  | gasPrice => 6
  | mutex _ => 5
  | polling _ => 4
  | signing _ _ => 3
  | storing _ _ => 2
  | broadcasting _ _ => 1
  | returned _ | thrown _ => 0

def RelayPoint.left : RelayPoint → ℕ
  | validating => 9
  | polling => 8
  | preparing => 7
  | sending _ point => point.left
  | thrown _ => 0

def ReplenishPoint.left : ReplenishPoint → ℕ
  | readingManagerBalance => 9
  | readingWorkerBalance _ => 8
  | checkingPending _ _ => 7
  | sending _ point => point.left
  | finished | thrown _ => 0

def Call.left : Call → ℕ
  | sendTransaction _ point => point.left
  | pollNonce _ none | validateMaxNonce _ none => 1
  | pollNonce _ (some _) | validateMaxNonce _ (some _) => 0
  | createRelayTransaction _ point => point.left
  | replenishStrategy _ point => point.left

def ServerState.left (state : ServerState) : ℕ := (state.calls.map Call.left).sum

section Enabled

variable {server : RelayServer} {id : CallId} {shared : Shared} {answer : Answer}

theorem SendPoint.resume_isSome {dependencies : ServerDependencies}
    {details : SendTransactionDetails} {point : SendPoint}
    (hawaits : point.awaits? = some answer.kind)
    (hfree : point.awaits? = some .acquired → shared.nonceMutex = none) :
    (point.resume dependencies id details shared answer).isSome = true := by
  cases point with
  | gasPrice =>
      cases answer with
      | gasPrice answer => cases answer <;> rfl
      | _ => cases hawaits
  | mutex price =>
      cases answer with
      | acquired => simp [resume, hfree rfl]
      | _ => cases hawaits
  | polling price =>
      cases answer with
      | transactionCount answer => cases answer <;> rfl
      | _ => cases hawaits
  | signing price nonce =>
      cases answer with
      | signature failure =>
          simp only [resume]
          split <;> rfl
      | _ => cases hawaits
  | storing signedTransaction storedTx =>
      cases answer with
      | stored failure =>
          simp only [resume]
          split <;> rfl
      | _ => cases hawaits
  | broadcasting signedTransaction txId =>
      cases answer with
      | broadcast answer =>
          cases answer with
          | error e => rfl
          | ok hash =>
              simp only [resume]
              split <;> rfl
      | _ => cases hawaits
  | returned signedTransaction => cases hawaits
  | thrown e => cases hawaits

theorem RelayPoint.resume_isSome {request : HttpEnvelopingRequest} {point : RelayPoint}
    (hawaits : point.awaits? = some answer.kind)
    (hfree : point.awaits? = some .acquired → shared.nonceMutex = none) :
    (point.resume server id request shared answer).isSome = true := by
  cases point with
  | validating =>
      cases answer with
      | validated answer => cases answer <;> rfl
      | _ => cases hawaits
  | polling =>
      cases answer with
      | transactionCount answer =>
          cases answer with
          | error e => rfl
          | ok count =>
              simp only [resume]
              split <;> rfl
      | _ => cases hawaits
  | preparing =>
      cases answer with
      | prepared method gasLimit currentBlock => cases method <;> rfl
      | _ => cases hawaits
  | sending details point =>
      rw [resume, Option.isSome_map]
      exact SendPoint.resume_isSome hawaits hfree
  | thrown e => cases hawaits

theorem ReplenishPoint.resume_isSome {currentBlock : ℕ} {point : ReplenishPoint}
    (hawaits : point.awaits? = some answer.kind)
    (hfree : point.awaits? = some .acquired → shared.nonceMutex = none) :
    (point.resume server id currentBlock shared answer).isSome = true := by
  cases point with
  | readingManagerBalance =>
      cases answer with
      | balance answer => cases answer <;> rfl
      | _ => cases hawaits
  | readingWorkerBalance managerBalance =>
      cases answer with
      | balance answer =>
          cases answer with
          | error e => rfl
          | ok balance =>
              simp only [resume]
              split <;> rfl
      | _ => cases hawaits
  | checkingPending managerBalance mustReplenishWorker =>
      cases answer with
      | pendingAction failure =>
          cases failure with
          | some e => rfl
          | none =>
              simp only [resume]
              split
              · split <;> rfl
              · rfl
      | _ => cases hawaits
  | sending details point =>
      rw [resume, Option.isSome_map]
      exact SendPoint.resume_isSome hawaits hfree
  | finished => cases hawaits
  | thrown e => cases hawaits

/-- A call goes on with any answer of the kind that it waits for, and takes the mutex when it
is free. -/
theorem Call.resume_isSome {call : Call} (hawaits : call.awaits? = some answer.kind)
    (hfree : call.awaits? = some .acquired → shared.nonceMutex = none) :
    (call.resume server id shared answer).isSome = true := by
  cases call with
  | sendTransaction details point =>
      rw [resume, Option.isSome_map]
      exact SendPoint.resume_isSome hawaits hfree
  | pollNonce signer polled =>
      cases polled with
      | some polled => cases hawaits
      | none =>
          cases answer with
          | transactionCount answer => cases answer <;> rfl
          | _ => cases hawaits
  | validateMaxNonce relayMaxNonce polled =>
      cases polled with
      | some polled => cases hawaits
      | none =>
          cases answer with
          | transactionCount answer => cases answer <;> rfl
          | _ => cases hawaits
  | createRelayTransaction request point =>
      rw [resume, Option.isSome_map]
      exact RelayPoint.resume_isSome hawaits hfree
  | replenishStrategy currentBlock point =>
      rw [resume, Option.isSome_map]
      exact ReplenishPoint.resume_isSome hawaits hfree

end Enabled

section Left

variable {server : RelayServer} {id : CallId} {shared shared' : Shared} {answer : Answer}

theorem SendPoint.left_pos_of_resume {dependencies : ServerDependencies}
    {details : SendTransactionDetails} {point : SendPoint} {moved : Shared × SendPoint}
    (h : point.resume dependencies id details shared answer = some moved) : 0 < point.left := by
  cases point with
  | returned signedTransaction => cases answer <;> cases h
  | thrown e => cases answer <;> cases h
  | gasPrice | mutex | polling | signing | storing | broadcasting => exact Nat.succ_pos _

theorem SendStep.left_lt {dependencies : ServerDependencies} {details : SendTransactionDetails}
    {point point' : SendPoint}
    (h : SendStep dependencies id details shared point answer shared' point')
    (hpos : 0 < point.left) : point'.left < point.left := by
  cases h with
  | released | failed => exact hpos
  | priced | acquired | polled | signed | stored | accepted => exact Nat.lt_succ_self _

theorem SendPoint.left_lt_of_resume {dependencies : ServerDependencies}
    {details : SendTransactionDetails} {point point' : SendPoint}
    (h : point.resume dependencies id details shared answer = some (shared', point')) :
    point'.left < point.left :=
  (SendPoint.resume_cases h).left_lt (SendPoint.left_pos_of_resume h)

theorem RelayPoint.left_pos_of_resume {request : HttpEnvelopingRequest} {point : RelayPoint}
    {moved : Shared × RelayPoint}
    (h : point.resume server id request shared answer = some moved) : 0 < point.left := by
  cases point with
  | sending details point =>
      obtain ⟨sent, hsent, -⟩ := Option.map_eq_some_iff.mp h
      exact SendPoint.left_pos_of_resume hsent
  | thrown e => cases answer <;> cases h
  | validating | polling | preparing => exact Nat.succ_pos _

theorem RelayPoint.left_lt_of_resume {request : HttpEnvelopingRequest} {point point' : RelayPoint}
    (h : point.resume server id request shared answer = some (shared', point')) :
    point'.left < point.left := by
  have hpos := RelayPoint.left_pos_of_resume h
  cases RelayPoint.resume_cases h with
  | sends hsend => exact SendPoint.left_lt_of_resume hsend
  | refused | failed => exact hpos
  | validated | polled | prepared => exact Nat.lt_succ_self _

theorem ReplenishPoint.left_pos_of_resume {currentBlock : ℕ} {point : ReplenishPoint}
    {moved : Shared × ReplenishPoint}
    (h : point.resume server id currentBlock shared answer = some moved) : 0 < point.left := by
  cases point with
  | sending details point =>
      obtain ⟨sent, hsent, -⟩ := Option.map_eq_some_iff.mp h
      exact SendPoint.left_pos_of_resume hsent
  | finished => cases answer <;> cases h
  | thrown e => cases answer <;> cases h
  | readingManagerBalance | readingWorkerBalance | checkingPending => exact Nat.succ_pos _

theorem ReplenishPoint.left_lt_of_resume {currentBlock : ℕ} {point point' : ReplenishPoint}
    (h : point.resume server id currentBlock shared answer = some (shared', point')) :
    point'.left < point.left := by
  have hpos := ReplenishPoint.left_pos_of_resume h
  cases ReplenishPoint.resume_cases h with
  | sends hsend => exact SendPoint.left_lt_of_resume hsend
  | satisfied | declined | failed => exact hpos
  | managerBalance | workerBalance | decided => exact Nat.lt_succ_self _

/-- A call that goes on has less left. -/
theorem Call.left_lt_of_resume {call call' : Call}
    (h : call.resume server id shared answer = some (shared', call')) : call'.left < call.left := by
  cases call with
  | sendTransaction details point =>
      obtain ⟨moved, hsend, heq⟩ := Option.map_eq_some_iff.mp h
      cases heq
      exact SendPoint.left_lt_of_resume hsend
  | createRelayTransaction request point =>
      obtain ⟨moved, hrelay, heq⟩ := Option.map_eq_some_iff.mp h
      cases heq
      exact RelayPoint.left_lt_of_resume hrelay
  | replenishStrategy currentBlock point =>
      obtain ⟨moved, hreplenish, heq⟩ := Option.map_eq_some_iff.mp h
      cases heq
      exact ReplenishPoint.left_lt_of_resume hreplenish
  | pollNonce signer polled =>
      cases Call.resume_cases h with
      | pollNonce | pollNonceFailed => exact Nat.one_pos
  | validateMaxNonce relayMaxNonce polled =>
      cases Call.resume_cases h with
      | validateMaxNonce | validateMaxNonceFailed => exact Nat.one_pos

theorem Task.left_started_le (server : RelayServer) (task : Task) :
    (task.started server).left ≤ 9 := by
  cases task with
  | replenishStrategy currentBlock =>
      cases hcustom : server.customReplenish <;>
        simp [Task.started, Call.left, ReplenishPoint.left, hcustom]
  | sendTransaction | pollNonce | validateMaxNonce | createRelayTransaction =>
      simp [Task.started, Call.left, SendPoint.left, RelayPoint.left]

end Left

def Event.goesOn : Event → ℕ
  | .resume _ _ => 1
  | _ => 0

def Event.begins : Event → ℕ
  | .start _ => 1
  | _ => 0

variable {server : RelayServer} {state state' : ServerState} {event : Event}

theorem sum_set_lt {counts : List ℕ} {n count count' : ℕ} (h : counts[n]? = some count)
    (hlt : count' < count) : (counts.set n count').sum < counts.sum := by
  induction counts generalizing n with
  | nil => cases h
  | cons first counts ih =>
      cases n with
      | zero =>
          obtain rfl := Option.some.inj h
          simpa using hlt
      | succ n =>
          have hrest := ih (n := n) (by simpa using h)
          simpa using hrest

/-- What goes on spends what is left, and what begins brings no more than nine. -/
theorem step_left (h : step server state event = some state') :
    event.goesOn + state'.left ≤ state.left + 9 * event.begins := by
  cases event with
  | start task =>
      cases h
      have hstarted := Task.left_started_le server task
      simp only [ServerState.left, List.map_append, List.sum_append, List.map_cons, List.map_nil,
        List.sum_singleton, Event.goesOn, Event.begins]
      omega
  | resume id answer =>
      obtain ⟨call, hcall, h⟩ := Option.bind_eq_some_iff.mp h
      obtain ⟨⟨shared, call'⟩, hresume, h⟩ := Option.bind_eq_some_iff.mp h
      cases h
      have hspent : ((state.calls.map Call.left).set id call'.left).sum <
          (state.calls.map Call.left).sum :=
        sum_set_lt (by rw [List.getElem?_map, hcall, Option.map_some])
          (Call.left_lt_of_resume hresume)
      simp only [ServerState.left, List.map_set, Event.goesOn, Event.begins]
      omega
  | write write =>
      cases step_cases h with
      | write hwrite => exact (Nat.zero_add _).le

theorem SendPoint.left_eq_zero_iff {point : SendPoint} :
    point.left = 0 ↔ point.awaits? = none := by
  cases point <;> simp [left, awaits?]

theorem RelayPoint.left_eq_zero_iff {point : RelayPoint} :
    point.left = 0 ↔ point.awaits? = none := by
  cases point with
  | sending details point => exact SendPoint.left_eq_zero_iff
  | validating | polling | preparing | thrown => simp [left, awaits?]

theorem ReplenishPoint.left_eq_zero_iff {point : ReplenishPoint} :
    point.left = 0 ↔ point.awaits? = none := by
  cases point with
  | sending details point => exact SendPoint.left_eq_zero_iff
  | readingManagerBalance | readingWorkerBalance | checkingPending | finished | thrown =>
      simp [left, awaits?]

/-- A call has nothing left when it waits for nothing. -/
theorem Call.left_eq_zero_iff {call : Call} : call.left = 0 ↔ call.awaits? = none := by
  cases call with
  | sendTransaction details point => exact SendPoint.left_eq_zero_iff
  | createRelayTransaction request point => exact RelayPoint.left_eq_zero_iff
  | replenishStrategy currentBlock point => exact ReplenishPoint.left_eq_zero_iff
  | pollNonce signer polled => cases polled <;> simp [left, awaits?]
  | validateMaxNonce relayMaxNonce polled => cases polled <;> simp [left, awaits?]

theorem Call.awaits?_of_sending {call : Call} {details : SendTransactionDetails}
    {point : SendPoint} (h : call.sending? = some (details, point)) :
    call.awaits? = point.awaits? := by
  cases call with
  | sendTransaction details point =>
      cases h
      rfl
  | createRelayTransaction request point =>
      cases point with
      | sending details point =>
          cases h
          rfl
      | _ => cases h
  | replenishStrategy currentBlock point =>
      cases point with
      | sending details point =>
          cases h
          rfl
      | _ => cases h
  | _ => cases h

/-- The holder of the mutex does not wait for it. -/
theorem SendPoint.awaits?_of_holdsMutex {point : SendPoint} (h : point.holdsMutex = true) :
    ∃ kind, point.awaits? = some kind ∧ kind ≠ .acquired := by
  cases point with
  | polling price => exact ⟨_, rfl, by decide⟩
  | signing price nonce => exact ⟨_, rfl, by decide⟩
  | storing signedTransaction storedTx => exact ⟨_, rfl, by decide⟩
  | gasPrice | mutex | broadcasting | returned | thrown => cases h

/-- The call goes on with any answer of the kind that it waits for. -/
def GoesOn (server : RelayServer) (state : ServerState) (id : CallId) : Prop :=
  ∃ call kind, state.calls[id]? = some call ∧ call.awaits? = some kind ∧
    ∀ answer : Answer, answer.kind = kind →
      ∃ state', step server state (.resume id answer) = some state'

theorem goesOn_of_free {id : CallId} {call : Call} {kind : AnswerKind}
    (hcall : state.calls[id]? = some call) (hawaits : call.awaits? = some kind)
    (hfree : kind = .acquired → state.shared.nonceMutex = none) : GoesOn server state id := by
  refine ⟨call, kind, hcall, hawaits, ?_⟩
  rintro answer rfl
  have hresume : (call.resume server id state.shared answer).isSome = true :=
    Call.resume_isSome hawaits fun hacquired =>
      hfree (Option.some.inj (hawaits.symm.trans hacquired))
  obtain ⟨moved, hmoved⟩ := Option.isSome_iff_exists.mp hresume
  exact ⟨⟨moved.1, state.calls.set id moved.2⟩, by simp [step, hcall, hmoved]⟩

/-- While a call waits, it or the holder of the mutex can go on. -/
theorem NonceInvariant.exists_goesOn (h : NonceInvariant state) {call : Call}
    (hcall : call ∈ state.calls) (hleft : call.left ≠ 0) : ∃ id, GoesOn server state id := by
  obtain ⟨id, hid⟩ := List.mem_iff_getElem?.mp hcall
  obtain ⟨kind, hawaits⟩ :=
    Option.ne_none_iff_exists'.mp (mt Call.left_eq_zero_iff.mpr hleft)
  cases hmutex : state.shared.nonceMutex with
  | none => exact ⟨id, goesOn_of_free hid hawaits fun _ => hmutex⟩
  | some holder =>
      obtain ⟨sending, hsending, hholds⟩ := (h.holder holder).mpr hmutex
      obtain ⟨call', hcall', hat⟩ := Option.bind_eq_some_iff.mp hsending
      obtain ⟨kind', hkind', hne⟩ := SendPoint.awaits?_of_holdsMutex hholds
      exact ⟨holder, goesOn_of_free hcall' ((Call.awaits?_of_sending hat).trans hkind')
        fun hacquired => absurd hacquired hne⟩

/-- However the calls interleave, they have gone on no more than nine times for each call that
has begun; and as long as one of them waits for an answer, some call goes on with any answer of
the kind that it waits for. -/
theorem calls_come_to_an_end {txStore : TxStore} {events : List Event}
    (hrun : run (step server) (.initial txStore) events = some state) :
    (events.map Event.goesOn).sum + state.left ≤ 9 * (events.map Event.begins).sum ∧
      ((∃ call ∈ state.calls, ∃ kind, call.awaits? = some kind) →
        ∃ id, GoesOn server state id) := by
  constructor
  · have hspent : (events.map Event.goesOn).sum + state.left ≤
        (ServerState.initial txStore).left + (events.map fun event => 9 * event.begins).sum :=
      spent_le_of_run (fun _ _ _ hstep => step_left hstep) hrun
    have hinitial : (ServerState.initial txStore).left = 0 := rfl
    rw [List.sum_map_mul_left] at hspent
    omega
  · rintro ⟨call, hcall, kind, hawaits⟩
    refine (run_nonceInvariant hrun).exists_goesOn hcall fun hleft => ?_
    rw [Call.left_eq_zero_iff.mp hleft] at hawaits
    cases hawaits

theorem calls_come_to_an_end_twoRelayed :
    (twoRelayed.map Event.goesOn).sum + (stateAfter twoRelayed).left ≤
        9 * (twoRelayed.map Event.begins).sum ∧
      ((∃ call ∈ (stateAfter twoRelayed).calls, ∃ kind, call.awaits? = some kind) →
        ∃ id, GoesOn sampleServer (stateAfter twoRelayed) id) :=
  calls_come_to_an_end (rfl : run (step sampleServer) (.initial TxStore.empty) twoRelayed =
    some (stateAfter twoRelayed))

end RifRelayServer
