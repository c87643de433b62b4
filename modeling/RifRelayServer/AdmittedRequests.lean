import RifRelayServer.AdmissionRefinement

/-!
# Relayed transactions were admitted

Whatever else goes on, a request gets to its transaction through every check, in the
order of the source: it arrives at a ready server, is addressed to it at the gas price
of that moment, is in time by the clock, has a nonce left, and is verified and paid for.
-/

namespace RifRelayServer

open Runs

section Positions

variable {α : Type} {items news : List α} {item it : α} {n id : ℕ}

theorem getElem?_append_cases (h : (items ++ news)[n]? = some it) :
    items[n]? = some it ∨ items.length ≤ n ∧ it ∈ news := by
  rcases lt_or_ge n items.length with hlt | hge
  · rw [List.getElem?_append_left hlt] at h
    exact Or.inl h
  · rw [List.getElem?_append_right hge] at h
    exact Or.inr ⟨hge, List.mem_of_getElem? h⟩

theorem getElem?_concat_cases (h : (items ++ [item])[n]? = some it) :
    items[n]? = some it ∨ items.length = n ∧ it = item := by
  rcases getElem?_append_cases h with hold | ⟨hge, hnew⟩
  · exact Or.inl hold
  · have hlt := (List.getElem?_eq_some_iff.mp h).1
    rw [List.length_append, List.length_singleton] at hlt
    exact Or.inr ⟨by omega, List.mem_singleton.mp hnew⟩

theorem getElem?_set_cases (h : (items.set id item)[n]? = some it) :
    n = id ∧ it = item ∨ items[n]? = some it := by
  rcases eq_or_ne n id with rfl | hne
  · have hlt : n < items.length := by simpa using (List.getElem?_eq_some_iff.mp h).1
    rw [List.getElem?_set_self hlt] at h
    exact Or.inl ⟨rfl, (Option.some.inj h).symm⟩
  · rw [List.getElem?_set_ne hne.symm] at h
    exact Or.inr h

end Positions

variable {server : AdmittingServer} {id : CallId} {tx : EnvelopingTransaction}
  {point point' : RequestPoint} {state state' : AdmissionState} {event : AdmissionEvent}

/-- How a request came to be at a point: it was there, it has just arrived, or it took a step. -/
inductive RequestCame (server : AdmittingServer) (id : CallId) (tx : EnvelopingTransaction)
    (state : AdmissionState) : AdmissionEvent → RequestPoint → Prop
  | stayed {event : AdmissionEvent} {point : RequestPoint}
      (h : state.calls[id]? = some (.request tx point)) :
      RequestCame server id tx state event point
  | arrived (hid : state.calls.length = id) :
      RequestCame server id tx state (.arrive tx)
        (.arrived server state.isReady state.alerted state.gasPrice tx)
  | stepped {point point' : RequestPoint} {answer : RequestAnswer} {shared' : Shared}
      (hcall : state.calls[id]? = some (.request tx point))
      (h : RequestStep server id state.gasPrice tx state.shared point answer shared' point') :
      RequestCame server id tx state (.resumeRequest id answer) point'

theorem requestCame (h : admissionStep server state event = some state')
    (hcall : state'.calls[id]? = some (.request tx point)) :
    RequestCame server id tx state event point := by
  cases admissionStep_cases h with
  | arrive other =>
      rcases getElem?_concat_cases hcall with hold | ⟨hid, hnew⟩
      · exact .stayed hold
      · cases hnew
        exact .arrived hid
  | request hbefore hstep =>
      rcases getElem?_append_cases hcall with hset | ⟨-, hnew⟩
      · rcases getElem?_set_cases hset with ⟨rfl, heq⟩ | hold
        · cases heq
          exact .stepped hbefore hstep
        · exact .stayed hold
      · obtain ⟨task, -, htask⟩ := List.mem_map.mp hnew
        cases htask
  | start hrelay =>
      rcases getElem?_concat_cases hcall with hold | ⟨-, hnew⟩
      · exact .stayed hold
      · cases hnew
  | resume hbefore hresume =>
      rcases getElem?_set_cases hcall with ⟨-, heq⟩ | hold
      · cases heq
      · exact .stayed hold
  | write hwrite => exact .stayed hcall
  | refresh gasPrice isReady alerted => exact .stayed hcall

/-- The request is at such a point. -/
def RequestAt (id : CallId) (tx : EnvelopingTransaction) (P : RequestPoint → Prop)
    (state : AdmissionState) : Prop :=
  ∃ point, state.calls[id]? = some (.request tx point) ∧ P point

/-- The event at which a request comes to be at such a point: its arrival, or a step from a point
that is none. -/
inductive Enters (server : AdmittingServer) (id : CallId) (tx : EnvelopingTransaction)
    (P : RequestPoint → Prop) (state : AdmissionState) : AdmissionEvent → Prop
  | arrived (hid : state.calls.length = id)
      (h : P (.arrived server state.isReady state.alerted state.gasPrice tx)) :
      Enters server id tx P state (.arrive tx)
  | stepped {point point' : RequestPoint} {answer : RequestAnswer} {shared' : Shared}
      (hcall : state.calls[id]? = some (.request tx point))
      (h : RequestStep server id state.gasPrice tx state.shared point answer shared' point')
      (hbefore : ¬ P point) (hafter : P point') :
      Enters server id tx P state (.resumeRequest id answer)

theorem enters_of_requestAt {P : RequestPoint → Prop} {txStore : TxStore}
    {events : List AdmissionEvent} {m : ℕ}
    (hrun : run (admissionStep server) (.initial txStore) (events.take m) = some state)
    (hat : RequestAt id tx P state) :
    ∃ n < m, ∃ u event, Occurs (admissionStep server) (.initial txStore) events n u event ∧
      Enters server id tx P u event := by
  apply occurs_of_run (Q := RequestAt id tx P) _ _ hrun hat
  · rintro n u event u' - hstep ⟨point, hcall, hP⟩
    cases requestCame hstep hcall with
    | stayed hcall => exact Or.inl ⟨point, hcall, hP⟩
    | arrived hid => exact Or.inr (.arrived hid hP)
    | @stepped before _ answer shared' hcall hstep =>
        by_cases hbefore : P before
        · exact Or.inl ⟨before, hcall, hbefore⟩
        · exact Or.inr (.stepped hcall hstep hbefore hP)
  · rintro ⟨point, hcall, -⟩
    cases hcall

/-- Past the checks of `validateInput`. -/
def RequestPoint.isValidated : RequestPoint → Bool
  | polling | preparing | sending _ _ => true
  | sleeping | expiring | thrown _ => false

theorem RequestPoint.isValidated_arrived (server : AdmittingServer) (isReady alerted : Bool)
    (gasPrice : ℕ) (tx : EnvelopingTransaction) :
    (arrived server isReady alerted gasPrice tx).isValidated = false := by
  rcases arrived_cases server isReady alerted gasPrice tx with
    ⟨e, he⟩ | ⟨-, -, hsame | ⟨hsame, -⟩⟩
  · rw [he]
    rfl
  · rw [hsame]
    rfl
  · rw [hsame]
    rfl

theorem arrived_ne {isReady alerted : Bool} {gasPrice : ℕ} (hpoint : point.isValidated = true) :
    RequestPoint.arrived server isReady alerted gasPrice tx ≠ point := by
  rintro rfl
  rw [RequestPoint.isValidated_arrived] at hpoint
  cases hpoint

/-- The times at which a request was let through, and what it was judged by. -/
structure Admission where
  arrival : ℕ
  check : ℕ
  clock : ℕ
  poll : ℕ
  decision : ℕ
  arrived : AdmissionState
  checked : AdmissionState
  checking : AdmissionEvent
  timed : AdmissionState
  now : ℕ
  polled : AdmissionState
  count : ℕ
  prepared : AdmissionState
  world : RelayWorld
  call : RelayCall
  maxGas : MaxPossibleGas

/-- The request was let through in a run, at these times and by this evidence. -/
structure Admission.Holds (admission : Admission) (server : AdmittingServer) (txStore : TxStore)
    (events : List AdmissionEvent) (id : CallId) (tx : EnvelopingTransaction) : Prop where
  arrival_le : admission.arrival ≤ admission.check
  check_lt : admission.check < admission.clock
  clock_lt : admission.clock < admission.poll
  poll_lt : admission.poll < admission.decision
  arrives : Occurs (admissionStep server) (.initial txStore) events admission.arrival
    admission.arrived (.arrive tx)
  arrives_as : admission.arrived.calls.length = id
  isReady : admission.arrived.isReady = true
  typed : server.client.validateInputTypes tx.toHttpEnvelopingRequest = .ok ()
  checks : Occurs (admissionStep server) (.initial txStore) events admission.check
    admission.checked admission.checking
  /-- The checks are made at the arrival, or once the request has slept. -/
  checking : admission.checking = .arrive tx ∧ admission.check = admission.arrival ∨
    admission.checking = .resumeRequest id .slept ∧ admission.arrival < admission.check
  addressed : Addressed server admission.checked.gasPrice tx
  times : Occurs (admissionStep server) (.initial txStore) events admission.clock
    admission.timed (.resumeRequest id (.clock admission.now))
  inTime : InTime server admission.now tx
  polls : Occurs (admissionStep server) (.initial txStore) events admission.poll
    admission.polled (.resumeRequest id (.answer (.transactionCount (.ok admission.count))))
  nonce_le : tx.metadata.relayMaxNonce.isExceededBy
    (resolveNonce admission.polled.shared.nonces server.workerAddress admission.count).1 = false
  decides : Occurs (admissionStep server) (.initial txStore) events admission.decision
    admission.prepared (.resumeRequest id (.world admission.world))
  prepared : Prepared server admission.world tx admission.call admission.maxGas

section Gates

variable {txStore : TxStore} {events : List AdmissionEvent} {m : ℕ}
  (hrun : run (admissionStep server) (.initial txStore) (events.take m) = some state)

include hrun

theorem prepared_before {details : SendTransactionDetails}
    (hat : RequestAt id tx (fun point => ∃ sending, point = .sending details sending) state) :
    ∃ n < m, ∃ u world call, Occurs (admissionStep server) (.initial txStore) events n u
        (.resumeRequest id (.world world)) ∧
      RequestAt id tx (· = .preparing) u ∧ prepareRelayCall server world tx = .ok call ∧
      details = relayCallDetails server.toRelayServer tx.toHttpEnvelopingRequest call.method
        call.gasLimit call.currentBlock := by
  obtain ⟨n, hn, u, event, hoccurs, henters⟩ := enters_of_requestAt hrun hat
  cases henters with
  | arrived _ h =>
      obtain ⟨sending, hsending⟩ := h
      exact absurd hsending (arrived_ne rfl)
  | stepped hcall hstep hbefore hafter =>
      obtain ⟨sending, rfl⟩ := hafter
      cases hstep with
      | prepared hprepared =>
          exact ⟨n, hn, u, _, _, hoccurs, ⟨_, hcall, rfl⟩, hprepared, rfl⟩
      | sends hsends => exact absurd ⟨_, rfl⟩ hbefore

theorem polled_before (hat : RequestAt id tx (· = .preparing) state) :
    ∃ n < m, ∃ u count, Occurs (admissionStep server) (.initial txStore) events n u
        (.resumeRequest id (.answer (.transactionCount (.ok count)))) ∧
      RequestAt id tx (· = .polling) u ∧ tx.metadata.relayMaxNonce.isExceededBy
        (resolveNonce u.shared.nonces server.workerAddress count).1 = false := by
  obtain ⟨n, hn, u, event, hoccurs, henters⟩ := enters_of_requestAt hrun hat
  cases henters with
  | arrived _ h => exact absurd h (arrived_ne rfl)
  | stepped hcall hstep hbefore hafter =>
      subst hafter
      cases hstep with
      | polled count hpolled => exact ⟨n, hn, u, count, hoccurs, ⟨_, hcall, rfl⟩, hpolled⟩

theorem timed_before (hat : RequestAt id tx (· = .polling) state) :
    ∃ n < m, ∃ u now, Occurs (admissionStep server) (.initial txStore) events n u
        (.resumeRequest id (.clock now)) ∧
      RequestAt id tx (· = .expiring) u ∧ InTime server now tx := by
  obtain ⟨n, hn, u, event, hoccurs, henters⟩ := enters_of_requestAt hrun hat
  cases henters with
  | arrived _ h => exact absurd h (arrived_ne rfl)
  | stepped hcall hstep hbefore hafter =>
      subst hafter
      cases hstep with
      | timed now htimed => exact ⟨n, hn, u, now, hoccurs, ⟨_, hcall, rfl⟩, htimed⟩

theorem arrived_before (hat : RequestAt id tx (· = .sleeping) state) :
    ∃ n < m, ∃ u, Occurs (admissionStep server) (.initial txStore) events n u (.arrive tx) ∧
      u.calls.length = id ∧ u.isReady = true ∧
      server.client.validateInputTypes tx.toHttpEnvelopingRequest = .ok () := by
  obtain ⟨n, hn, u, event, hoccurs, henters⟩ := enters_of_requestAt hrun hat
  cases henters with
  | arrived hid h =>
      rcases RequestPoint.arrived_cases server u.isReady u.alerted u.gasPrice tx with
        ⟨e, he⟩ | ⟨hready, htyped, -⟩
      · rw [he] at h
        cases h
      · exact ⟨n, hn, u, hoccurs, hid, hready, htyped⟩
  | stepped hcall hstep hbefore hafter =>
      subst hafter
      cases hstep

theorem checked_before (hat : RequestAt id tx (· = .expiring) state) :
    ∃ n < m, ∃ k ≤ n, ∃ u u' event,
      Occurs (admissionStep server) (.initial txStore) events n u event ∧
      (event = .arrive tx ∧ n = k ∨ event = .resumeRequest id .slept ∧ k < n) ∧
      Addressed server u.gasPrice tx ∧
      Occurs (admissionStep server) (.initial txStore) events k u' (.arrive tx) ∧
      u'.calls.length = id ∧ u'.isReady = true ∧
      server.client.validateInputTypes tx.toHttpEnvelopingRequest = .ok () := by
  obtain ⟨n, hn, u, event, hoccurs, henters⟩ := enters_of_requestAt hrun hat
  cases henters with
  | arrived hid h =>
      rcases RequestPoint.arrived_cases server u.isReady u.alerted u.gasPrice tx with
        ⟨e, he⟩ | ⟨hready, htyped, hsame | ⟨-, haddressed⟩⟩
      · rw [he] at h
        cases h
      · rw [hsame] at h
        cases h
      · exact ⟨n, hn, n, le_rfl, u, u, _, hoccurs, Or.inl ⟨rfl, rfl⟩, haddressed, hoccurs, hid,
          hready, htyped⟩
  | stepped hcall hstep hbefore hafter =>
      subst hafter
      cases hstep with
      | validated haddressed =>
          obtain ⟨k, hk, u', hoccurs', hid, hready, htyped⟩ :=
            arrived_before hoccurs.reached ⟨_, hcall, rfl⟩
          exact ⟨n, hn, k, hk.le, u, u', _, hoccurs, Or.inr ⟨rfl, hk⟩, haddressed, hoccurs', hid,
            hready, htyped⟩

end Gates

/-- The transaction that an admitted request is sent with. -/
def Admission.details (admission : Admission) (server : AdmittingServer)
    (tx : EnvelopingTransaction) : SendTransactionDetails :=
  relayCallDetails server.toRelayServer tx.toHttpEnvelopingRequest admission.call.method
    admission.call.gasLimit admission.call.currentBlock

theorem admitted_before {txStore : TxStore} {events : List AdmissionEvent} {m : ℕ}
    {details : SendTransactionDetails} {sending : SendPoint}
    (hrun : run (admissionStep server) (.initial txStore) (events.take m) = some state)
    (hcall : state.calls[id]? = some (.request tx (.sending details sending))) :
    ∃ admission : Admission, admission.Holds server txStore events id tx ∧
      admission.decision < m ∧ details = admission.details server tx := by
  obtain ⟨decision, hdecision, prepared, world, call, hdecides, hpreparing, hcomputed, hdetails⟩ :=
    prepared_before hrun ⟨_, hcall, sending, rfl⟩
  obtain ⟨poll, hpoll, polled, count, hpolls, hpolling, hnonce⟩ :=
    polled_before hdecides.reached hpreparing
  obtain ⟨clock, hclock, timed, now, htimes, hexpiring, hinTime⟩ :=
    timed_before hpolls.reached hpolling
  obtain ⟨check, hcheck, arrival, harrival, checked, arrived, checking, hchecks, hchecking,
    haddressed, harrives, hid, hready, htyped⟩ := checked_before htimes.reached hexpiring
  obtain ⟨maxGas, hprepared⟩ := prepared_of_prepareRelayCall hcomputed
  exact ⟨⟨arrival, check, clock, poll, decision, arrived, checked, checking, timed, now, polled,
    count, prepared, world, call, maxGas⟩, ⟨harrival, hcheck, hclock, hpoll, harrives, hid, hready,
    htyped, hchecks, hchecking, haddressed, htimes, hinTime, hpolls, hnonce, hdecides, hprepared⟩,
    hdecision, hdetails⟩

/-- A request that has got to its transaction was let through by every check, in order, and
the transaction is the one that was prepared for it. -/
theorem sending_request_admitted {txStore : TxStore} {events : List AdmissionEvent}
    {details : SendTransactionDetails} {sending : SendPoint}
    (hrun : run (admissionStep server) (.initial txStore) events = some state)
    (hcall : state.calls[id]? = some (.request tx (.sending details sending))) :
    ∃ admission : Admission, admission.Holds server txStore events id tx ∧
      details = admission.details server tx := by
  rw [← List.take_length (l := events)] at hrun
  obtain ⟨admission, hholds, -, hdetails⟩ := admitted_before hrun hcall
  exact ⟨admission, hholds, hdetails⟩

def AdmittedCall.isSending : AdmittedCall → Bool
  | request _ (.sending _ _) => true
  | _ => false

theorem AdmittedCall.eq_of_isSending {call : AdmittedCall} (h : call.isSending = true) :
    ∃ tx details sending, call = .request tx (.sending details sending) := by
  unfold isSending at h
  split at h
  · exact ⟨_, _, _, rfl⟩
  · cases h

theorem exists_sending_rifRelayed :
    ∃ state tx details sending,
      run (admissionStep admittingServer) (.initial TxStore.empty) rifRelayed = some state ∧
        state.calls[0]? = some (.request tx (.sending details sending)) := by
  have hsending : ((run (admissionStep admittingServer) (.initial TxStore.empty) rifRelayed).any
      fun state => state.calls[0]?.any AdmittedCall.isSending) = true := by decide +kernel
  obtain ⟨state, hrun, hcall⟩ := (Option.any_eq_true _ _).mp hsending
  obtain ⟨call, hcall, hsending⟩ := (Option.any_eq_true _ _).mp hcall
  obtain ⟨tx, details, sending, rfl⟩ := AdmittedCall.eq_of_isSending hsending
  exact ⟨state, tx, details, sending, hrun, hcall⟩

theorem sending_request_admitted_rifRelayed :
    ∃ (tx : EnvelopingTransaction) (details : SendTransactionDetails) (admission : Admission),
      admission.Holds admittingServer TxStore.empty rifRelayed 0 tx ∧
      details = admission.details admittingServer tx := by
  obtain ⟨state, tx, details, sending, hrun, hcall⟩ := exists_sending_rifRelayed
  obtain ⟨admission, hholds⟩ := sending_request_admitted hrun hcall
  exact ⟨tx, details, admission, hholds⟩

/-- The payment of an admitted request covers all the gas it may take, with the fees, at the
price that its transaction is sent with, up to the rounding of the payment. That price is at
least the server's at the check. -/
theorem sending_request_paid {txStore : TxStore} {events : List AdmissionEvent}
    {details : SendTransactionDetails} {sending : SendPoint}
    (hrun : run (admissionStep server) (.initial txStore) events = some state)
    (hcall : state.calls[id]? = some (.request tx (.sending details sending))) :
    ∃ admission : Admission, admission.Holds server txStore events id tx ∧
      details.gasPrice = some tx.gasPrice ∧ admission.checked.gasPrice ≤ tx.gasPrice ∧
      ∀ currency, Pays admission.world.services server.appConfig currency
          tx.toHttpEnvelopingRequest →
        admission.maxGas.maxPossibleGasWithFee * tx.gasPrice - tx.gasPrice / (2 * 10 ^ 20) -
            currency.xRate / (2 * 10 ^ 2) ≤ currency.value tx.tokenAmount := by
  rw [← List.take_length (l := events)] at hrun
  obtain ⟨admission, hholds, -, rfl⟩ := admitted_before hrun hcall
  refine ⟨admission, hholds, rfl, hholds.addressed.price, fun currency hpays => ?_⟩
  have hreaches := (hpays.accepts_iff _).mp hholds.prepared.accepts
  have hrounded := (abs_le.mp (Currency.abs_roundedValue_sub_le hpays.isOf.xRate_nonneg
    (tx.tokenAmount : ℚ))).2
  linarith

theorem sending_request_paid_rifRelayed :
    ∃ (tx : EnvelopingTransaction) (admission : Admission),
      admission.Holds admittingServer TxStore.empty rifRelayed 0 tx ∧
      ∀ currency, Pays admission.world.services chargingConfig currency
          tx.toHttpEnvelopingRequest →
        admission.maxGas.maxPossibleGasWithFee * tx.gasPrice - tx.gasPrice / (2 * 10 ^ 20) -
            currency.xRate / (2 * 10 ^ 2) ≤ currency.value tx.tokenAmount := by
  obtain ⟨state, tx, details, sending, hrun, hcall⟩ := exists_sending_rifRelayed
  obtain ⟨admission, hholds, -, -, hpaid⟩ := sending_request_paid hrun hcall
  exact ⟨tx, admission, hholds, hpaid⟩

end RifRelayServer
