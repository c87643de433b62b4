import RifRelayServer.Nonces

/-!
# Sends that fail before they are recorded

The nonce of a call is counted after it is signed and before it is stored. A call that
fails at its poll or while signing leaves its nonce to the next one; a call that fails
at the write has consumed it.
-/

namespace RifRelayServer

open Runs

/-- The node's pending count of the signer is `count`. -/
def ReportsOnly (server : RelayServer) (signer : Address) (count : ℕ) (state : ServerState)
    (event : Event) : Prop :=
  ∀ polled ∈ state.polled? server event, polled.1 = signer → polled.2 = count

instance (server : RelayServer) (signer : Address) (count : ℕ) (state : ServerState)
    (event : Event) : Decidable (ReportsOnly server signer count state event) :=
  inferInstanceAs (Decidable (∀ polled ∈ state.polled? server event,
    polled.1 = signer → polled.2 = count))

def SendPoint.nonce? : SendPoint → Option ℕ
  | signing _ nonce => some nonce
  | storing signedTransaction _ => some signedTransaction.signedTx.nonce
  | broadcasting signedTransaction _ => some signedTransaction.signedTx.nonce
  | returned signedTransaction => some signedTransaction.signedTx.nonce
  | _ => none

/-- The nonce of a call, or the one it takes when its poll is answered with `count`. -/
def SendPoint.nonceWith (nonces : Address → ℕ) (signer : Address) (count : ℕ)
    (point : SendPoint) : ℕ :=
  point.nonce?.getD (resolveNonce nonces signer count).1

/-- Whatever is called next, alone, for the signer uses the nonce. -/
def NextUses (server : RelayServer) (signer : Address) (count nonce : ℕ) (state : ServerState) :
    Prop :=
  ∀ (task : Task) (answers : List Answer) (state' : ServerState)
    (details : SendTransactionDetails) (point : SendPoint) (used : ℕ),
    run (step server) state (.start task :: answers.map (.resume state.calls.length)) =
      some state' →
    Along (step server) (ReportsOnly server signer count) state
      (.start task :: answers.map (.resume state.calls.length)) →
    state'.sendingAt state.calls.length = some (details, point) → details.signer = signer →
    point.nonce? = some used → used = nonce

variable {server : RelayServer} {id : CallId} {shared shared' : Shared} {answer : Answer}
  {details : SendTransactionDetails} {point point' : SendPoint} {count : ℕ}

theorem le_resolveNonce (nonces : Address → ℕ) (signer : Address) (count : ℕ) :
    count ≤ (resolveNonce nonces signer count).1 := by
  unfold resolveNonce
  split
  next h => exact h.le
  · exact le_rfl

theorem resolveNonce_fst_of_lt {nonces : Address → ℕ} {signer : Address}
    (h : count < nonces signer) : (resolveNonce nonces signer count).1 = nonces signer := by
  rw [resolveNonce, if_pos h]

/-- A second poll with the same count takes the same nonce. -/
theorem resolveNonce_again (nonces : Address → ℕ) (signer : Address) (count : ℕ) :
    (resolveNonce (resolveNonce nonces signer count).2 signer count).1 =
      (resolveNonce nonces signer count).1 := by
  have hle := le_resolveNonce nonces signer count
  rw [resolveNonce_fst] at hle
  rw [resolveNonce_fst, resolveNonce_of_le hle, resolveNonce_fst]

theorem resolveNonce_congr {nonces nonces' : Address → ℕ} {signer : Address}
    (h : nonces' signer = nonces signer) (count : ℕ) :
    (resolveNonce nonces' signer count).1 = (resolveNonce nonces signer count).1 := by
  unfold resolveNonce
  rw [h]
  split <;> rfl

/-- The counter between the poll of a call and the end of its critical section. -/
def Settled (count : ℕ) (shared : Shared) (details : SendTransactionDetails) : SendPoint → Prop
  | .signing _ nonce => shared.nonces details.signer = nonce ∧ count ≤ nonce
  | .storing signedTransaction _ =>
      shared.nonces details.signer = signedTransaction.signedTx.nonce + 1 ∧
        count ≤ signedTransaction.signedTx.nonce
  | _ => True

theorem Settled.congr (h : Settled count shared details point)
    (heq : shared'.nonces details.signer = shared.nonces details.signer) :
    Settled count shared' details point := by
  cases point with
  | signing price nonce => exact ⟨heq.trans h.1, h.2⟩
  | storing signedTransaction storedTx => exact ⟨heq.trans h.1, h.2⟩
  | _ => trivial

theorem Settled.of_not_holdsMutex (h : point.holdsMutex = false) :
    Settled count shared details point := by
  cases point with
  | signing price nonce => cases h
  | storing signedTransaction storedTx => cases h
  | _ => trivial

theorem Settled.le (h : Settled count shared details point) (hpoint : point.nonce? ≠ none)
    (hholds : point.holdsMutex = true) : count ≤ shared.nonces details.signer := by
  cases point with
  | signing price nonce => exact h.1 ▸ h.2
  | storing signedTransaction storedTx => exact h.1 ▸ h.2.trans (Nat.le_succ _)
  | polling price => exact absurd rfl hpoint
  | _ => cases hholds

/-- A poll of the same count does not move a counter that is settled. -/
theorem Settled.of_polled {signer : Address} {reported : ℕ}
    (h : Settled count shared details point) (hholds : point.holdsMutex = true)
    (hreported : details.signer = signer → reported = count) :
    Settled count (shared.polled signer reported) details point := by
  by_cases hpoint : point.nonce? = none
  · cases point with
    | polling price => trivial
    | signing price nonce => cases hpoint
    | storing signedTransaction storedTx => cases hpoint
    | _ => cases hholds
  · apply h.congr
    show (resolveNonce _ signer reported).2 details.signer = _
    rcases eq_or_ne details.signer signer with rfl | hne
    · rw [hreported rfl, resolveNonce_of_le (h.le hpoint hholds)]
    · exact resolveNonce_of_ne reported hne

theorem SendStep.settled {dependencies : ServerDependencies}
    (h : SendStep dependencies id details shared point answer shared' point')
    (hcount : ∀ price reported, point = .polling price →
      answer = .transactionCount (.ok reported) → reported = count)
    (hsettled : Settled count shared details point) : Settled count shared' details point' := by
  cases h with
  | @polled price reported =>
      obtain rfl := hcount price reported rfl rfl
      exact ⟨(resolveNonce_fst _ _ _).symm, le_resolveNonce _ _ _⟩
  | signed hsignature =>
      obtain ⟨-, -, -, rfl⟩ := ServerDependencies.signatureOf_eq_ok_iff.mp hsignature
      refine ⟨?_, hsettled.2⟩
      rw [Shared.counted_nonces_self, hsettled.1]
      rfl
  | priced | acquired | stored | released | failed | accepted => trivial

theorem ReportsOnly.eq_of_sending {signer : Address} {state : ServerState} {call : Call}
    {price reported : ℕ} (h : ReportsOnly server signer count state (.resume id answer))
    (hcall : state.calls[id]? = some call)
    (hsending : call.sending? = some (details, .polling price)) (hsigner : details.signer = signer)
    (hanswer : answer = .transactionCount (.ok reported)) : reported = count := by
  subst hanswer
  exact h (details.signer, reported)
    (polled?_of_polls hcall (Call.polls?_of_polling hsending) reported) hsigner

theorem ReportsOnly.eq_of_polls {signer : Address} {state : ServerState} {call : Call}
    {reported : ℕ}
    (h : ReportsOnly server signer count state (.resume id (.transactionCount (.ok reported))))
    (hcall : state.calls[id]? = some call) (hpolls : call.polls? server = some signer) :
    reported = count :=
  h (signer, reported) (polled?_of_polls hcall hpolls reported) rfl

/-- A sending call that is resumed takes a step of `sendTransaction`. -/
theorem sendStep_of_resume {state state' : ServerState}
    (hat : state.sendingAt id = some (details, point))
    (hstep : step server state (.resume id answer) = some state') :
    ∃ point', SendStep server.dependencies id details state.shared point answer state'.shared
        point' ∧ state'.sendingAt id = some (details, point') := by
  cases step_cases hstep with
  | resume hcall hcallStep =>
      rw [sendingAt_of_call hcall] at hat
      cases hcallStep.nonceStep with
      | @sends details' before after hsending hsending' hresume =>
          obtain ⟨rfl, rfl⟩ := Prod.ext_iff.mp (Option.some.inj (hat.symm.trans hsending))
          exact ⟨after, SendPoint.resume_cases hresume,
            by rw [sendingAt_set hcall, if_pos rfl, hsending']⟩
      | polls hsending | idles balance hsending => cases hat.symm.trans hsending

/-- The state while a call is in its critical section. -/
structure InSection (id : CallId) (details : SendTransactionDetails) (count : ℕ)
    (state : ServerState) : Prop extends NonceInvariant state where
  settled : ∃ point, state.sendingAt id = some (details, point) ∧
    Settled count state.shared details point

/-- What the others do does not move the counter, as long as the count is the same. -/
theorem InSection.step {state state' : ServerState} {event : Event}
    (h : InSection id details count state)
    (hcount : ReportsOnly server details.signer count state event)
    (hstep : step server state event = some state') : InSection id details count state' := by
  refine ⟨step_nonceInvariant h.toNonceInvariant hstep, ?_⟩
  obtain ⟨point, hat, hsettled⟩ := h.settled
  cases step_cases hstep with
  | start task => exact ⟨point, sendingAt_of_started hat, hsettled⟩
  | write hwrite => exact ⟨point, hat, hsettled.congr rfl⟩
  | @resume other answer call call' shared hcall hcallStep =>
      rcases eq_or_ne id other with rfl | hne
      · obtain ⟨after, hsend, hat'⟩ := sendStep_of_resume hat hstep
        refine ⟨after, hat', hsend.settled (fun price reported hpoint hanswer => ?_) hsettled⟩
        have hsending : call.sending? = some (details, .polling price) :=
          hpoint ▸ (sendingAt_of_call hcall).symm.trans hat
        exact hcount.eq_of_sending hcall hsending rfl hanswer
      · refine ⟨point, by rw [sendingAt_set hcall, if_neg hne, hat], ?_⟩
        cases hholds : point.holdsMutex with
        | false => exact Settled.of_not_holdsMutex hholds
        | true =>
            cases hcallStep.nonceStep with
            | @sends details' before after hsending hsending' hresume =>
                have hother : before.holdsMutex = false := by
                  rw [← Bool.not_eq_true]
                  intro hbefore
                  exact hne (h.eq_of_holdsMutex
                    ((sendingAt_of_call hcall).trans hsending) hbefore hat hholds)
                exact hsettled.congr
                  (congrFun ((SendPoint.resume_cases hresume).nonces_eq hother) details.signer)
            | @polls signer reported hsending hsending' hpolls hanswer hshared =>
                subst hanswer hshared
                exact hsettled.of_polled hholds fun hsigner =>
                  hcount.eq_of_polls hcall (hsigner ▸ hpolls)
            | idles balance hsending hsending' hshared =>
                subst hshared
                exact hsettled.congr rfl

/-- The step at which a call in its critical section throws. -/
theorem shared_of_thrown {state state' : ServerState} {e : String}
    (hat : state.sendingAt id = some (details, point)) (hholds : point.holdsMutex = true)
    (hstep : step server state (.resume id answer) = some state')
    (hthrown : state'.sendingAt id = some (details, .thrown e)) :
    state'.shared = state.shared.released := by
  obtain ⟨point', hsend, hat'⟩ := sendStep_of_resume hat hstep
  obtain rfl : point' = .thrown e := congrArg Prod.snd (Option.some.inj (hat'.symm.trans hthrown))
  generalize state'.shared = shared' at hsend
  cases hsend with
  | released e h => rfl
  | failed e h => cases hholds.symm.trans h

/-- The nonce that the call has or takes. -/
def PointTakes (nonces : Address → ℕ) (signer : Address) (count nonce : ℕ) : SendPoint → Prop
  | .gasPrice | .mutex _ | .polling _ => (resolveNonce nonces signer count).1 = nonce
  | .thrown _ => True
  | point => point.nonce? = some nonce

theorem SendStep.takes {dependencies : ServerDependencies} {nonce : ℕ}
    (h : SendStep dependencies id details shared point answer shared' point')
    (hcount : ∀ price reported, point = .polling price →
      answer = .transactionCount (.ok reported) → reported = count)
    (htakes : PointTakes shared.nonces details.signer count nonce point) :
    PointTakes shared'.nonces details.signer count nonce point' := by
  cases h with
  | @polled price reported =>
      obtain rfl := hcount price reported rfl rfl
      exact congrArg some htakes
  | signed hsignature =>
      obtain ⟨-, -, -, rfl⟩ := ServerDependencies.signatureOf_eq_ok_iff.mp hsignature
      exact htakes
  | priced | acquired | stored | accepted => exact htakes
  | released | failed => trivial

/-- A call that runs alone and has not used a nonce yet takes this one. -/
def CallTakes (signer : Address) (count nonce : ℕ) (id : CallId) (state : ServerState) : Prop :=
  ∀ call, state.calls[id]? = some call →
    (call.sending? = none → (resolveNonce state.shared.nonces signer count).1 = nonce) ∧
      ∀ sending, call.sending? = some sending → sending.1.signer = signer →
        PointTakes state.shared.nonces signer count nonce sending.2

theorem callTakes_started {signer : Address} {nonce : ℕ} {state : ServerState} (task : Task)
    (h : (resolveNonce state.shared.nonces signer count).1 = nonce) :
    CallTakes signer count nonce state.calls.length
      { state with calls := state.calls ++ [task.started server] } := by
  intro call hcall
  rw [List.getElem?_concat_length] at hcall
  obtain rfl := Option.some.inj hcall
  refine ⟨fun _ => h, fun sending hsending _ => ?_⟩
  rw [Task.sending?_started hsending]
  exact h

theorem CallTakes.step {signer : Address} {nonce : ℕ} {state state' : ServerState}
    (h : CallTakes signer count nonce id state)
    (hcount : ReportsOnly server signer count state (.resume id answer))
    (hstep : step server state (.resume id answer) = some state') :
    CallTakes signer count nonce id state' := by
  cases step_cases hstep with
  | @resume _ _ call call' shared hcall hcallStep =>
      obtain ⟨hidle, hsends⟩ := h call hcall
      intro next hnext
      rw [List.getElem?_set_self (List.getElem?_eq_some_iff.mp hcall).1] at hnext
      obtain rfl := Option.some.inj hnext
      cases hcallStep.nonceStep with
      | @sends details before after hsending hsending' hresume =>
          rw [hsending']
          refine ⟨fun hnone => (nomatch hnone), ?_⟩
          rintro _ ⟨⟩ rfl
          refine (SendPoint.resume_cases hresume).takes (fun price reported hpoint hanswer => ?_)
            (hsends (details, before) hsending rfl)
          exact hcount.eq_of_sending hcall (hpoint ▸ hsending) rfl hanswer
      | @polls polled reported hsending hsending' hpolls hanswer hshared =>
          subst hanswer hshared
          rw [hsending']
          refine ⟨fun _ => ?_, fun _ hnone => (nomatch hnone)⟩
          rw [← hidle hsending]
          rcases eq_or_ne signer polled with rfl | hne
          · obtain rfl := hcount.eq_of_polls hcall hpolls
            exact resolveNonce_again _ _ _
          · exact resolveNonce_congr (resolveNonce_of_ne reported hne) count
      | idles balance hsending hsending' hshared =>
          subst hshared
          refine ⟨fun _ => hidle hsending, fun sending hbegun _ => ?_⟩
          rw [hsending' sending hbegun]
          exact hidle hsending

theorem PointTakes.eq_of_nonce? {nonces : Address → ℕ} {signer : Address} {nonce used : ℕ}
    (h : PointTakes nonces signer count nonce point) (hused : point.nonce? = some used) :
    used = nonce := by
  cases point with
  | gasPrice | mutex | polling | thrown => cases hused
  | signing | storing | broadcasting | returned =>
      exact Option.some.inj (hused.symm.trans h)

theorem nextUses_of_resolveNonce {signer : Address} {nonce : ℕ} {state : ServerState}
    (h : (resolveNonce state.shared.nonces signer count).1 = nonce) :
    NextUses server signer count nonce state := by
  rintro task answers state' details point used hrun hcount hat rfl hused
  obtain ⟨started, hstarted, hrest⟩ := run_cons_eq_some_iff.mp hrun
  have hmine : Along (step server) (fun _ event => ∃ answer, event = .resume state.calls.length answer)
      started (answers.map (.resume state.calls.length)) :=
    along_of_forall fun event hevent _ => by
      obtain ⟨answer, -, rfl⟩ := List.mem_map.mp hevent
      exact ⟨answer, rfl⟩
  have htakes : CallTakes details.signer count nonce state.calls.length started := by
    cases hstarted
    exact callTakes_started task h
  have hlast := invariant_of_along (I := CallTakes details.signer count nonce state.calls.length)
    (fun s event s' hs hallowed hstep => by
      obtain ⟨⟨answer, rfl⟩, hcount⟩ := hallowed
      exact hs.step hcount hstep)
    htakes (hmine.and (hcount.2 started hstarted)) hrest
  obtain ⟨call, hcall, hsending⟩ := Option.bind_eq_some_iff.mp hat
  exact ((hlast call hcall).2 _ hsending rfl).eq_of_nonce? hused

theorem reportsOnly_of_answer {signer : Address} {state : ServerState}
    (h : ∀ reported, answer = .transactionCount (.ok reported) → reported = count) :
    ReportsOnly server signer count state (.resume id answer) := by
  rintro polled hpolled -
  unfold ServerState.polled? at hpolled
  split at hpolled
  next reported heq =>
      cases heq
      obtain ⟨-, -, rfl⟩ := Option.map_eq_some_iff.mp hpolled
      exact h reported rfl
  · cases hpolled

/-- A call that is started alone reaches the point at which it has its nonce. -/
theorem resolveNonce_of_nextUses {nonce : ℕ} {state : ServerState}
    (hfree : state.shared.nonceMutex = none)
    (h : NextUses server details.signer count nonce state) :
    (resolveNonce state.shared.nonces details.signer count).1 = nonce := by
  have hstarted : (state.calls ++ [(Task.sendTransaction details).started server])[
      state.calls.length]? = some (.sendTransaction details .gasPrice) :=
    List.getElem?_concat_length
  have hpolled : Runs.run (SendPoint.step server.dependencies state.calls.length details)
      (state.shared, .gasPrice)
      [.gasPrice (.ok 0), .acquired, .transactionCount (.ok count)] = some
        (({ state.shared with nonceMutex := some state.calls.length } : Shared).polled
          details.signer count, .signing 0 (resolveNonce state.shared.nonces details.signer count).1) := by
    simp [Runs.run, SendPoint.step, SendPoint.resume, hfree]
  have hrun := @run_resume server state.calls.length details _
    { state with calls := state.calls ++ [(Task.sendTransaction details).started server] } _ _ _
    hstarted hpolled
  refine h (.sendTransaction details) _ _ details (.signing 0 _) _
    (run_cons_eq_some_iff.mpr ⟨_, rfl, hrun⟩) ⟨?_, fun started _ => ?_⟩ ?_ rfl rfl
  · rintro polled ⟨⟩
  · apply along_of_forall
    intro event hevent s
    obtain ⟨answer, hanswer, rfl⟩ := List.mem_map.mp hevent
    apply reportsOnly_of_answer
    intro reported heq
    subst heq
    simpa using hanswer
  · rw [ServerState.sendingAt, List.getElem?_set_self]
    · rfl
    · simp

def SendPoint.isPast : SendPoint → Bool
  | broadcasting _ _ | returned _ | thrown _ => true
  | _ => false

theorem SendStep.txStore_cases {dependencies : ServerDependencies}
    (h : SendStep dependencies id details shared point answer shared' point') :
    shared'.txStore = shared.txStore ∨ point'.isPast = true := by
  cases h with
  | stored h => exact Or.inr rfl
  | priced | acquired | polled | signed | released | failed | accepted => exact Or.inl rfl

theorem SendStep.isPast {dependencies : ServerDependencies}
    (h : SendStep dependencies id details shared point answer shared' point')
    (hpast : point.isPast = true) : point'.isPast = true := by
  cases h with
  | priced | acquired | polled | signed | stored => cases hpast
  | released | failed | accepted => rfl

/-- The store has not been written by the call, or its critical section is over. -/
def KeepsStore (id : CallId) (details : SendTransactionDetails) (txStore : TxStore)
    (state : ServerState) : Prop :=
  ∃ point, state.sendingAt id = some (details, point) ∧
    (state.shared.txStore = txStore ∨ point.isPast = true)

theorem KeepsStore.step {txStore : TxStore} {state state' : ServerState}
    (h : KeepsStore id details txStore state)
    (hstep : step server state (.resume id answer) = some state') :
    KeepsStore id details txStore state' := by
  obtain ⟨point, hat, hkept⟩ := h
  obtain ⟨point', hsend, hat'⟩ := sendStep_of_resume hat hstep
  refine ⟨point', hat', ?_⟩
  rcases hkept with hsame | hpast
  · exact hsend.txStore_cases.imp_left (·.trans hsame)
  · exact Or.inr (hsend.isPast hpast)

/-- A call that throws in its critical section leaves the store, the mutex and its nonce
as they were exactly when it is not the write to the store that fails. The call is polled
in a reachable state; others go on meanwhile, and the node's pending count is the same. -/
theorem failed_send_keeps_nonce_iff {txStore : TxStore} {before during : List Event}
    {polled failing failed : ServerState} {price : ℕ} {e : String}
    (hreached : run (step server) (.initial txStore) before = some polled)
    (hpolling : polled.sendingAt id = some (details, .polling price))
    (hduring : run (step server) polled during = some failing)
    (hcount : Along (step server) (ReportsOnly server details.signer count) polled during)
    (hat : failing.sendingAt id = some (details, point)) (hholds : point.holdsMutex = true)
    (hfails : step server failing (.resume id answer) = some failed)
    (hthrown : failed.sendingAt id = some (details, .thrown e)) :
    (failed.shared.txStore = failing.shared.txStore ∧
        ((∀ event ∈ during, ∃ answer, event = .resume id answer) →
          failed.shared.txStore = polled.shared.txStore) ∧
        failed.shared.nonceMutex = none ∧
        NextUses server details.signer count
          (point.nonceWith failing.shared.nonces details.signer count) failed) ↔
      ∀ signedTransaction storedTx, point ≠ .storing signedTransaction storedTx := by
  have hshared := shared_of_thrown hat hholds hfails hthrown
  have hsection : InSection id details count failing :=
    invariant_of_along (fun _ _ _ h hallowed hstep => h.step hallowed hstep)
      ⟨run_nonceInvariant hreached, .polling price, hpolling, trivial⟩ hcount hduring
  obtain ⟨point', hat', hsettled⟩ := hsection.settled
  obtain rfl : point = point' := congrArg Prod.snd (Option.some.inj (hat.symm.trans hat'))
  have hstore : failed.shared.txStore = failing.shared.txStore := by
    rw [hshared, Shared.released]
  have hnonces : failed.shared.nonces = failing.shared.nonces := by
    rw [hshared, Shared.released]
  have hfree : failed.shared.nonceMutex = none := by
    rw [hshared, Shared.released]
  constructor
  · rintro ⟨-, -, -, hnext⟩ signedTransaction storedTx rfl
    have hagain := resolveNonce_of_nextUses hfree hnext
    rw [hnonces, resolveNonce_fst_of_lt (by rw [hsettled.1]; exact Nat.lt_succ_of_le hsettled.2),
      hsettled.1] at hagain
    exact Nat.succ_ne_self _ hagain
  · intro hnot
    refine ⟨hstore, fun hown => ?_, hfree, nextUses_of_resolveNonce ?_⟩
    · have hkept : KeepsStore id details polled.shared.txStore failing :=
        invariant_of_along (fun _ _ _ h hallowed hstep => by
          obtain ⟨answer, rfl⟩ := hallowed
          exact h.step hstep) ⟨_, hpolling, Or.inl rfl⟩
          (along_of_forall fun event hevent _ => hown event hevent) hduring
      obtain ⟨point', hat', hsame⟩ := hkept
      obtain rfl : point = point' := congrArg Prod.snd (Option.some.inj (hat.symm.trans hat'))
      rcases hsame with hsame | hpast
      · exact hstore.trans hsame
      · cases point <;> simp_all [SendPoint.isPast, SendPoint.holdsMutex]
    · rw [hnonces]
      cases point with
      | polling price => rfl
      | signing price nonce =>
          exact (resolveNonce_fst _ _ _).trans
            (by rw [resolveNonce_of_le (hsettled.le (Option.some_ne_none _) rfl)]; exact hsettled.1)
      | storing signedTransaction storedTx => exact absurd rfl (hnot _ _)
      | _ => cases hholds

/-- A relayed transaction up to its poll, the poll, and its signature. -/
def untilPoll : List Event :=
  [.start (.sendTransaction sampleRelayed), .resume 0 (.gasPrice (.ok 10)), .resume 0 .acquired]

def untilSigning : List Event := untilPoll ++ [.resume 0 (.transactionCount (.ok 0))]

def untilStoring : List Event := untilSigning ++ [.resume 0 (.signature none)]

def couldNotSign : Answer := .signature (some "could not sign")

theorem failed_signing_keeps_nonce_iff :
    ((stateAfter (untilSigning ++ [.resume 0 couldNotSign])).shared.txStore =
          (stateAfter untilSigning).shared.txStore ∧
        ((∀ event ∈ [Event.resume 0 (.transactionCount (.ok 0))],
            ∃ answer, event = .resume 0 answer) →
          (stateAfter (untilSigning ++ [.resume 0 couldNotSign])).shared.txStore =
            (stateAfter untilPoll).shared.txStore) ∧
        (stateAfter (untilSigning ++ [.resume 0 couldNotSign])).shared.nonceMutex = none ∧
        NextUses sampleServer sampleWorker 0 0 (stateAfter (untilSigning ++ [.resume 0 couldNotSign]))) ↔
      ∀ signedTransaction storedTx,
        SendPoint.signing 10 0 ≠ .storing signedTransaction storedTx :=
  @failed_send_keeps_nonce_iff sampleServer 0 couldNotSign sampleRelayed (.signing 10 0) 0 TxStore.empty
    untilPoll [.resume 0 (.transactionCount (.ok 0))] (stateAfter untilPoll)
    (stateAfter untilSigning) (stateAfter (untilSigning ++ [.resume 0 couldNotSign])) 10 "could not sign"
    rfl rfl rfl (by decide +kernel) rfl rfl rfl rfl

def noSpaceLeft : Answer := .stored (some "ENOSPC: no space left on device")

/-- The same transaction sent again, alone, with the same pending count. -/
def sentAgain : List Answer :=
  [.gasPrice (.ok 10), .acquired, .transactionCount (.ok 0), .signature none, .stored none,
    .broadcast (.ok "1/10")]

theorem failed_write_consumes_nonce :
    ¬ ∀ (server : RelayServer) (txStore : TxStore) (before during : List Event)
      (polled failing failed : ServerState) (id : CallId) (details : SendTransactionDetails)
      (point : SendPoint) (answer : Answer) (price count : ℕ) (e : String),
      run (step server) (.initial txStore) before = some polled →
      polled.sendingAt id = some (details, .polling price) →
      run (step server) polled during = some failing →
      Along (step server) (ReportsOnly server details.signer count) polled during →
      failing.sendingAt id = some (details, point) → point.holdsMutex = true →
      step server failing (.resume id answer) = some failed →
      failed.sendingAt id = some (details, .thrown e) →
      NextUses server details.signer count
        (point.nonceWith failing.shared.nonces details.signer count) failed := by
  intro h
  have hnext := h sampleServer TxStore.empty untilPoll
    [.resume 0 (.transactionCount (.ok 0)), .resume 0 (.signature none)] (stateAfter untilPoll)
    (stateAfter untilStoring) (stateAfter (untilStoring ++ [.resume 0 noSpaceLeft])) 0 sampleRelayed _
    noSpaceLeft 10 0 _ rfl rfl rfl (by decide +kernel) rfl rfl rfl rfl
  have hused := hnext (.sendTransaction sampleRelayed) sentAgain _ sampleRelayed (.returned _) 1 rfl
    (by decide +kernel) rfl rfl rfl
  exact absurd hused (by decide)

end RifRelayServer
