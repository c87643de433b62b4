import RifRelayServer.Refills
import RifRelayServer.SerialRounds

/-!
# Registrations in flight

A round looks for a pending registration and sends its own several awaits later.
No one but the round under way sends registrations, and what else happens to the
store meanwhile adds no pending one.
-/

namespace RifRelayServer

def ServerAction.isRegistration : ServerAction → Bool
  | registerServer | addWorker => true
  | _ => false

/-- An unmined transaction of the action. -/
def isPendingOf (serverAction : ServerAction) (tx : StoredTransaction) : Bool :=
  tx.minedBlockNumber.isNone && decide (tx.serverAction = serverAction)

/-- The call is on its way to store a transaction of the action. -/
def Call.isSendingOf (serverAction : ServerAction) (call : Call) : Bool :=
  call.sending?.any fun (details, point) =>
    decide (details.serverAction = serverAction) && point.isUnstored

/-- Of each registration action at most one transaction is pending or being sent. -/
structure Registering (state : ServerState) : Prop where
  flight : ∀ serverAction : ServerAction, serverAction.isRegistration = true →
    SingleFlight (isPendingOf serverAction) (Call.isSendingOf serverAction) state
  describes : ∀ call ∈ state.calls, ∀ details signedTransaction storedTx,
    call.sending? = some (details, .storing signedTransaction storedTx) → Describes details storedTx

def NoRegistration (calls : List Call) : Prop :=
  ∀ serverAction : ServerAction, serverAction.isRegistration = true →
    NoneSending (Call.isSendingOf serverAction) calls

/-- What the round under way relies on: entries stay, no one else sends registrations,
and none becomes pending that was not being sent. -/
structure Undisturbed (state state' : ServerState) : Prop where
  entries : ∀ tx ∈ state.shared.txStore, tx ∈ state'.shared.txStore
  sending : ∀ serverAction : ServerAction, serverAction.isRegistration = true →
    ∀ (id : CallId) (call : Call), state'.calls[id]? = some call →
      call.isSendingOf serverAction = true →
        ∃ before, state.calls[id]? = some before ∧ before.isSendingOf serverAction = true
  pending : ∀ serverAction : ServerAction, serverAction.isRegistration = true →
    NoneSending (Call.isSendingOf serverAction) state.calls →
      NonePending (isPendingOf serverAction) state.shared.txStore →
        NonePending (isPendingOf serverAction) state'.shared.txStore

variable {server : RelayServer} {id : CallId} {shared shared' : Shared} {call call' : Call}
  {answer : Answer} {details : SendTransactionDetails} {point point' : SendPoint}
  {serverAction : ServerAction} {state state' state'' : ServerState}

theorem nonePending_of_isActionPending {txStore : TxStore}
    (h : isActionPending txStore serverAction none = false) :
    NonePending (isPendingOf serverAction) txStore := by
  intro tx htx
  have hnone := List.any_eq_false.mp h tx (mem_getAll.mpr htx)
  simpa [isPendingOf] using hnone

theorem Call.isSendingOf_iff : call.isSendingOf serverAction = true ↔
    ∃ details point, call.sending? = some (details, point) ∧
      details.serverAction = serverAction ∧ point.isUnstored = true := by
  cases hsending : call.sending? with
  | none => simp [isSendingOf, hsending]
  | some sending => simp [isSendingOf, hsending, Prod.ext_iff]

theorem NoneSending.of_undisturbed (h : Undisturbed state state')
    (hregistration : serverAction.isRegistration = true)
    (hnone : NoneSending (Call.isSendingOf serverAction) state.calls) :
    NoneSending (Call.isSendingOf serverAction) state'.calls := by
  intro call hcall
  by_contra hsending
  obtain ⟨id, hid⟩ := List.mem_iff_getElem?.mp hcall
  obtain ⟨before, hbefore, hsent⟩ :=
    h.sending serverAction hregistration id call hid (Bool.not_eq_false _ ▸ hsending)
  simp [hnone before (List.mem_of_getElem? hbefore)] at hsent

theorem Undisturbed.refl (state : ServerState) : Undisturbed state state where
  entries _ h := h
  sending _ _ _ call hcall hsending := ⟨call, hcall, hsending⟩
  pending _ _ _ h := h

theorem Undisturbed.trans (h : Undisturbed state state') (h' : Undisturbed state' state'') :
    Undisturbed state state'' where
  entries tx htx := h'.entries tx (h.entries tx htx)
  sending serverAction hregistration id call hcall hsending := by
    obtain ⟨between, hbetween, hsent⟩ := h'.sending serverAction hregistration id call hcall hsending
    exact h.sending serverAction hregistration id between hbetween hsent
  pending serverAction hregistration hnone hstore :=
    h'.pending serverAction hregistration (hnone.of_undisturbed h hregistration)
      (h.pending serverAction hregistration hnone hstore)

/-- No call starts to send a registration in the middle of its way. -/
theorem CallStep.isSendingOf (h : CallStep server id shared call answer shared' call')
    (hregistration : serverAction.isRegistration = true)
    (hsending : call'.isSendingOf serverAction = true) : call.isSendingOf serverAction = true := by
  obtain ⟨details, point', hat, haction, hunstored⟩ := Call.isSendingOf_iff.mp hsending
  rcases h.sends_cases hat with ⟨point, hbefore, hstep⟩ |
    ⟨-, ⟨request, method, gasLimit, currentBlock, rfl⟩ | ⟨-, refill, currentBlock, rfl⟩⟩
  · exact Call.isSendingOf_iff.mpr ⟨details, point, hbefore, haction, hstep.isUnstored hunstored⟩
  · rw [← haction] at hregistration
    cases hregistration
  · rw [← haction] at hregistration
    cases hregistration

namespace Registering

theorem store_cases (h : Registering state) (hcall : state.calls[id]? = some call)
    (hstep : CallStep server id state.shared call answer shared' call') :
    NoNewPending (isPendingOf serverAction) state.shared.txStore shared'.txStore ∨
      call.isSendingOf serverAction = true ∧ call'.isSendingOf serverAction = false ∧
        ∃ storedTx, putTx state.shared.txStore storedTx false = .ok shared'.txStore := by
  rcases hstep.txStore_cases with hsame |
    ⟨details, signedTransaction, storedTx, txId, hsending, hsending', hput⟩
  · rw [hsame]
    exact Or.inl (.refl _)
  · have hdescribes := h.describes call (List.mem_of_getElem? hcall) _ _ _ hsending
    by_cases haction : details.serverAction = serverAction
    · refine Or.inr ⟨Call.isSendingOf_iff.mpr ⟨_, _, hsending, haction, rfl⟩, ?_, storedTx, hput⟩
      simp [Call.isSendingOf, hsending', SendPoint.isUnstored]
    · refine Or.inl (.of_putTx hput fun hpending => ?_)
      simp [isPendingOf, hdescribes.serverAction, haction] at hpending

theorem resumed (h : Registering state) (hcall : state.calls[id]? = some call)
    (hstep : CallStep server id state.shared call answer shared' call') :
    Registering ⟨shared', state.calls.set id call'⟩ where
  flight serverAction hregistration := by
    have hflight := h.flight serverAction hregistration
    refine hflight.resumed hcall ?_ fun hsending => Or.inl (hstep.isSendingOf hregistration hsending)
    refine (h.store_cases hcall hstep).imp_right fun ⟨hsending, hafter, storedTx, hput⟩ => ?_
    exact ⟨hsending, hafter, (hflight.nonePending call (List.mem_of_getElem? hcall)
      hsending).single_of_putTx hput⟩
  describes it hit details signedTransaction storedTx hsending := by
    rcases List.mem_or_eq_of_mem_set hit with hold | rfl
    · exact h.describes it hold details signedTransaction storedTx hsending
    · exact hstep.describes hsending

theorem undisturbed_resumed (h : Registering state) (hcall : state.calls[id]? = some call)
    (hstep : CallStep server id state.shared call answer shared' call') :
    Undisturbed state ⟨shared', state.calls.set id call'⟩ where
  entries tx htx := by
    rcases hstep.txStore_cases with hsame | ⟨_, _, storedTx, _, -, -, hput⟩
    · exact hsame ▸ htx
    · rcases putTx_cases hput with ⟨hnonce, hkey, hid, hinsert⟩ | ⟨hupdate, -⟩
      · simp only [hinsert, TxStore.mem_insert]
        exact Or.inl htx
      · cases hupdate
  sending serverAction hregistration other it hit hsending := by
    rcases getElem?_resumed hcall hit with ⟨rfl, rfl⟩ | ⟨-, hold⟩
    · exact ⟨call, hcall, hstep.isSendingOf hregistration hsending⟩
    · exact ⟨it, hold, hsending⟩
  pending serverAction hregistration hnone hstore := by
    rcases h.store_cases hcall hstep with hnew | ⟨hsending, -⟩
    · exact hnew.none hstore
    · simp [hnone call (List.mem_of_getElem? hcall)] at hsending

theorem started (h : Registering state)
    (hidle : ∀ details point, call.sending? = some (details, point) →
      point = .gasPrice ∧ details.serverAction.isRegistration = false) :
    Registering { state with calls := state.calls ++ [call] } ∧
      Undisturbed state { state with calls := state.calls ++ [call] } := by
  have hnot : ∀ serverAction : ServerAction, serverAction.isRegistration = true →
      call.isSendingOf serverAction = false := by
    intro serverAction hregistration
    by_contra hsending
    obtain ⟨details, point, hat, haction, -⟩ :=
      Call.isSendingOf_iff.mp (Bool.not_eq_false _ ▸ hsending)
    rw [← haction, (hidle details point hat).2] at hregistration
    cases hregistration
  refine ⟨⟨fun serverAction hregistration => (h.flight serverAction hregistration).started
    (hnot serverAction hregistration), fun it hit details signedTransaction storedTx hat => ?_⟩,
    ⟨fun _ htx => htx, fun serverAction hregistration other it hit hsending => ?_,
      fun _ _ _ hstore => hstore⟩⟩
  · rcases List.mem_append.mp hit with hold | hnew
    · exact h.describes it hold details signedTransaction storedTx hat
    · rw [List.mem_singleton.mp hnew] at hat
      cases (hidle _ _ hat).1
  · rcases getElem?_started hit with hold | rfl
    · exact ⟨it, hold, hsending⟩
    · simp [hnot serverAction hregistration] at hsending

/-- A registration may begin when there is neither a pending one nor one being sent. -/
theorem begun (h : Registering state)
    (hnone : NoneSending (Call.isSendingOf details.serverAction) state.calls)
    (hstore : NonePending (isPendingOf details.serverAction) state.shared.txStore) :
    Registering { state with calls := state.calls ++ [.sendTransaction details .gasPrice] } where
  flight serverAction hregistration := by
    by_cases haction : details.serverAction = serverAction
    · subst haction
      exact (h.flight details.serverAction hregistration).begun hnone hstore
    · exact (h.flight serverAction hregistration).started
        (by simp [Call.isSendingOf, Call.sending?, haction])
  describes it hit details signedTransaction storedTx hat := by
    rcases List.mem_append.mp hit with hold | hnew
    · exact h.describes it hold details signedTransaction storedTx hat
    · rw [List.mem_singleton.mp hnew] at hat
      cases hat

theorem written (h : Registering state) {txStore : TxStore}
    (hwrite : ∀ serverAction : ServerAction, serverAction.isRegistration = true →
      NoNewPending (isPendingOf serverAction) state.shared.txStore txStore) :
    Registering { state with shared := { state.shared with txStore } } where
  flight serverAction hregistration :=
    (h.flight serverAction hregistration).written (hwrite serverAction hregistration)
  describes := h.describes

end Registering

namespace Ticks

open Async Async.Program Async.Contract

/-- What the semaphore and the transactions depend on. -/
def TickState.flight (s : TickState) : List ℕ × Bool × ServerState :=
  (s.relay.active, s.relay.workerSemaphoreOn, s.calls)

/-- Registrations are sent by the round under way only. -/
def flightReliance (server : RelayServer) : Reliance server where
  Inv s := Registering s.calls ∧ (s.relay.active = [] → NoRegistration s.calls.calls)
  Rely s t := Undisturbed s.calls t.calls
  rely_refl s := .refl s.calls
  rely_trans h h' := h.trans h'

abbrev flightContract (server : RelayServer) : Contract (system server) :=
  (flightReliance server).contract

variable {server : RelayServer} {id : ℕ} {s t : TickState} {known : List ServerAction}
  {present : List StoredTransaction}

theorem flightContract_dependsOn : (flightContract server).DependsOn TickState.flight := by
  intro s t hs hpart
  simp only [TickState.flight, Prod.mk.injEq] at hpart
  obtain ⟨hactive, hflag, hcalls⟩ := hpart
  have ⟨hinv, hmoves, hleaves⟩ := Reliance.free hs hactive hflag
    (by simpa only [flightReliance, hactive, hcalls] using hs.2) trivial
    (by simpa only [flightReliance, hcalls] using Undisturbed.refl s.calls)
  exact ⟨hinv, hmoves, fun id => hleaves id trivial⟩

/-- What the round under way knows: it has no registration under way, none of the known
actions is pending, and the entries are still there. -/
structure Knows (id : ℕ) (known : List ServerAction) (present : List StoredTransaction)
    (s : TickState) : Prop where
  active : id ∈ s.relay.active
  noRegistration : NoRegistration s.calls.calls
  nonePending : ∀ serverAction ∈ known, serverAction.isRegistration = true ∧
    NonePending (isPendingOf serverAction) s.txStore
  present : ∀ tx ∈ present, tx ∈ s.txStore

theorem Knows.forget (h : Knows id known present s) : Knows id [] [] s :=
  ⟨h.active, h.noRegistration, by simp, by simp⟩

theorem Knows.subset {known' : List ServerAction} {present' : List StoredTransaction}
    (h : Knows id known present s) (hknown : known' ⊆ known) (hpresent : present' ⊆ present) :
    Knows id known' present' s :=
  ⟨h.active, h.noRegistration, fun serverAction hmem => h.nonePending serverAction (hknown hmem),
    fun tx htx => h.present tx (hpresent htx)⟩

theorem Knows.learn {serverAction : ServerAction} (h : Knows id known present s)
    (hregistration : serverAction.isRegistration = true)
    (hnone : NonePending (isPendingOf serverAction) s.txStore) :
    Knows id (serverAction :: known) present s := by
  refine ⟨h.active, h.noRegistration, fun it hit => ?_, h.present⟩
  rcases List.mem_cons.mp hit with rfl | hold
  · exact ⟨hregistration, hnone⟩
  · exact h.nonePending it hold

theorem stable_knows : (flightContract server).Stable id (Knows id known present) := by
  intro s t _ hleaves h
  have hrely : Undisturbed s.calls t.calls := hleaves.2.1 h.active
  refine ⟨hleaves.1.mpr h.active, fun serverAction hregistration =>
    (h.noRegistration serverAction hregistration).of_undisturbed hrely hregistration,
    fun serverAction hmem => ?_, fun tx htx => hrely.entries tx (h.present tx htx)⟩
  obtain ⟨hregistration, hnone⟩ := h.nonePending serverAction hmem
  exact ⟨hregistration, hrely.pending serverAction hregistration
    (h.noRegistration serverAction hregistration) hnone⟩

theorem Knows.of_eq (hpart : t.flight = s.flight) (h : Knows id known present s) :
    Knows id known present t := by
  simp only [TickState.flight, Prod.mk.injEq] at hpart
  obtain ⟨hactive, -, hcalls⟩ := hpart
  exact ⟨hactive ▸ h.active, hcalls ▸ h.noRegistration,
    by simpa only [TickState.txStore, hcalls] using h.nonePending,
    by simpa only [TickState.txStore, hcalls] using h.present⟩

/-- The program keeps the contract as a part of the round under way, which has no
registration under way when it goes on. -/
abbrev Registers {α : Type} (server : RelayServer) (id : ℕ) (Q : α → TickState → Prop)
    (program : TickM α) (s : TickState) : Prop :=
  (flightContract server).Sat id Q (fun _ t => Knows id [] [] t) program s

theorem registers_of_spares {α : Type} {program : TickM α} (hspares : program.Spares TickState.flight)
    (hs : (flightContract server).Inv s) (h : Knows id known present s) :
    Registers server id (fun _ t => Knows id known present t) program s :=
  (Sat.of_spares flightContract_dependsOn hspares (fun _ _ => Knows.of_eq) stable_knows hs h).mono hs
    (fun _ _ _ h => h) fun _ _ _ h => h.forget

theorem registers_receive {question : Question} (hs : (flightContract server).Inv s)
    (h : Knows id known present s) :
    Registers server id (fun _ t => Knows id known present t) (receive question) s :=
  registers_of_spares (spares_receive question) hs h

theorem registers_forEach {α : Type} {body : α → TickM Unit} (items : List α)
    (hbody : ∀ item t, (flightContract server).Inv t → Knows id known present t →
      Registers server id (fun _ u => Knows id known present u) (body item) t)
    (hs : (flightContract server).Inv s) (h : Knows id known present s) :
    Registers server id (fun _ t => Knows id known present t) (forEach body items) s := by
  induction items generalizing s with
  | nil => exact h
  | cons item items ih => exact Sat.bind (hbody item s hs h) hs fun _ t ht h => ih ht h

/-- What a look into the store tells the round. -/
theorem registers_findActionPending {serverAction : ServerAction}
    (hregistration : serverAction.isRegistration = true) (hs : (flightContract server).Inv s)
    (h : Knows id known present s) :
    Registers server id (fun pending t => Knows id known present t ∧
      (pending = false → Knows id (serverAction :: known) present t))
      (findActionPending serverAction) s := by
  refine Sat.bind (registers_receive hs h) hs fun _ t ht h => sat_bind.mpr (sat_get.mpr ?_)
  exact ⟨h, fun hnone => h.learn hregistration (nonePending_of_isActionPending hnone)⟩

theorem registers_startCall {call : Call} (hs : (flightContract server).Inv s)
    (h : Knows id known present s)
    (hidle : ∀ details point, call.sending? = some (details, point) →
      point = .gasPrice ∧ details.serverAction.isRegistration = false) :
    Registers server id (fun _ t => Knows id known present t) (startCall call) s := by
  obtain ⟨hregistering, hundisturbed⟩ := hs.2.1.started hidle
  have hcalls : NoRegistration (s.calls.calls ++ [call]) := fun serverAction hregistration =>
    (h.noRegistration serverAction hregistration).of_undisturbed hundisturbed hregistration
  exact ⟨Reliance.allows_held hs h.active rfl rfl ⟨hregistering, fun _ => hcalls⟩ trivial
    fun _ => trivial, h.active, hcalls, h.nonePending, h.present⟩

/-- A call that is no registration changes nothing that the round knows. -/
theorem registers_callAndWait {task : Task} (hs : (flightContract server).Inv s)
    (h : Knows id known present s)
    (htask : ∀ details, task = .sendTransaction details →
      details.serverAction.isRegistration = false) :
    Registers server id (fun _ t => Knows id known present t) (callAndWait server task) s := by
  have hidle : ∀ details point, (task.started server).sending? = some (details, point) →
      point = .gasPrice ∧ details.serverAction.isRegistration = false := by
    intro details point hsending
    cases task with
    | sendTransaction details =>
        cases hsending
        exact ⟨rfl, htask details rfl⟩
    | replenishStrategy currentBlock =>
        cases hcustom : server.customReplenish <;> simp [Task.started, hcustom, Call.sending?] at hsending
    | pollNonce | validateMaxNonce | createRelayTransaction => cases hsending
  refine sat_bind.mpr (sat_get.mpr ?_)
  apply Sat.bind (registers_startCall hs h hidle) hs
  intro _ t ht h
  refine Sat.bind (registers_receive ht h) ht fun _ u hu h => sat_bind.mpr (sat_get.mpr ?_)
  exact sat_ofExcept (fun _ _ => h) fun _ _ => h.forget

theorem outcome?_of_isSendingOf {call : Call} {serverAction : ServerAction}
    (h : call.isSendingOf serverAction = true) : outcome? call = none := by
  obtain ⟨details, point, hsending, -, hunstored⟩ := Call.isSendingOf_iff.mp h
  have hsend : sendOutcome? point = none := by
    cases point with
    | gasPrice | mutex | polling | signing | storing => rfl
    | broadcasting | returned | thrown => cases hunstored
  cases call with
  | sendTransaction details point =>
      cases hsending
      exact hsend
  | replenishStrategy currentBlock point =>
      cases point with
      | sending details point =>
          cases hsending
          exact hsend
      | readingManagerBalance | readingWorkerBalance | checkingPending | finished | thrown =>
          cases hsending
  | pollNonce | validateMaxNonce | createRelayTransaction => rfl

/-- What the round under way knows while it waits for its registration: the call is
the only one that sends any. -/
structure Sends (id : ℕ) (cid : CallId) (serverAction : ServerAction) (known : List ServerAction)
    (present : List StoredTransaction) (s : TickState) : Prop where
  active : id ∈ s.relay.active
  only : ∀ it : ServerAction, it.isRegistration = true → ∀ (other : CallId) (call : Call),
    s.calls.calls[other]? = some call → call.isSendingOf it = true → it = serverAction ∧ other = cid
  nonePending : ∀ it ∈ known, it.isRegistration = true ∧ NonePending (isPendingOf it) s.txStore
  unknown : serverAction ∉ known
  present : ∀ tx ∈ present, tx ∈ s.txStore

theorem stable_sends {cid : CallId} {serverAction : ServerAction} :
    (flightContract server).Stable id (Sends id cid serverAction known present) := by
  intro s t _ hleaves h
  have hrely : Undisturbed s.calls t.calls := hleaves.2.1 h.active
  refine ⟨hleaves.1.mpr h.active, fun it hregistration other call hcall hsending => ?_,
    fun it hit => ?_, h.unknown, fun tx htx => hrely.entries tx (h.present tx htx)⟩
  · obtain ⟨before, hbefore, hsent⟩ := hrely.sending it hregistration other call hcall hsending
    exact h.only it hregistration other before hbefore hsent
  · obtain ⟨hregistration, hnone⟩ := h.nonePending it hit
    refine ⟨hregistration, hrely.pending it hregistration (fun call hcall => ?_) hnone⟩
    by_contra hsending
    obtain ⟨other, hother⟩ := List.mem_iff_getElem?.mp hcall
    obtain ⟨rfl, -⟩ := h.only it hregistration other call hother (Bool.not_eq_false _ ▸ hsending)
    exact h.unknown hit

/-- Once the call has ended, no registration is under way. -/
theorem Sends.ended {cid : CallId} {serverAction : ServerAction}
    (h : Sends id cid serverAction known present s) (hended : isEnabled s (.call cid) = true) :
    Knows id known present s := by
  refine ⟨h.active, fun it hregistration call hcall => ?_, h.nonePending, h.present⟩
  by_contra hsending
  have hsent : call.isSendingOf it = true := Bool.not_eq_false _ ▸ hsending
  obtain ⟨other, hother⟩ := List.mem_iff_getElem?.mp hcall
  obtain ⟨-, rfl⟩ := h.only it hregistration other call hother hsent
  simp [isEnabled, ServerState.outcome?, hother, outcome?_of_isSendingOf hsent] at hended

theorem Knows.sends {call : Call} {serverAction : ServerAction}
    (h : Knows id (serverAction :: known) present s) (hunknown : serverAction ∉ known)
    (hcall : ∀ it : ServerAction, call.isSendingOf it = true → it = serverAction) :
    Sends id s.calls.calls.length serverAction known present (s.called call) := by
  refine ⟨h.active, fun it hit other its hat hsending => ?_,
    fun it hit => h.nonePending it (List.mem_cons_of_mem _ hit), hunknown, h.present⟩
  rcases getElem?_started_eq hat with hold | ⟨hlast, rfl⟩
  · simp [h.noRegistration it hit its (List.mem_of_getElem? hold)] at hsending
  · exact ⟨hcall it hsending, hlast⟩

/-- A registration is sent when none of its action is pending. -/
theorem registers_sendRegistration {serverAction : ServerAction} {currentBlock : ℕ}
    (hs : (flightContract server).Inv s) (h : Knows id (serverAction :: known) present s)
    (hunknown : serverAction ∉ known) :
    Registers server id (fun _ t => Knows id known present t)
      (sendRegistration server serverAction currentBlock) s := by
  apply Sat.bind (registers_receive hs h) hs
  intro populated t ht h
  have ⟨hregistration, hnone⟩ := h.nonePending serverAction List.mem_cons_self
  let details := registrationDetails server serverAction populated.1 populated.2 currentBlock
  have hregistering : Registering (t.called (.sendTransaction details .gasPrice)).calls :=
    ht.2.1.begun (h.noRegistration serverAction hregistration) hnone
  have hsends : Sends id t.calls.calls.length serverAction known present
      (t.called (.sendTransaction details .gasPrice)) := by
    apply h.sends hunknown
    intro it hsending
    obtain ⟨_, _, hat, haction, -⟩ := Call.isSendingOf_iff.mp hsending
    cases hat
    exact haction.symm
  have hallows : (flightContract server).Allows id t
      (t.called (.sendTransaction details .gasPrice)) :=
    Reliance.allows_held ht h.active rfl rfl
      ⟨hregistering, fun hnone => absurd h.active (hnone ▸ List.not_mem_nil)⟩ trivial fun _ => trivial
  refine sat_bind.mpr (sat_get.mpr (sat_bind.mpr ⟨hallows, sat_bind.mpr (sat_bind.mpr ?_)⟩))
  intro u hu hleaves hended answer _
  have hknows : Knows id known present u := (stable_sends hu hleaves hsends).ended hended
  refine sat_ofExcept (fun _ _ => sat_bind.mpr (sat_get.mpr ?_)) fun _ _ => hknows.forget
  exact sat_ofExcept (fun _ _ => hknows) fun _ _ => hknows.forget

theorem registers_withdrawAllFunds {withdrawManager : Bool} {currentBlock : ℕ}
    (hs : (flightContract server).Inv s) (h : Knows id known present s) :
    Registers server id (fun _ t => Knows id known present t)
      (withdrawAllFunds server withdrawManager currentBlock) s := by
  have hsend : ∀ signer t, (flightContract server).Inv t → Knows id known present t →
      Registers server id (fun _ u => Knows id known present u)
        (sendEthBalanceToOwner server signer currentBlock) t := by
    intro signer t ht h
    apply Sat.bind (registers_receive ht h) ht
    intro withdrawal u hu h
    cases withdrawal with
    | none => exact h
    | some withdrawal =>
        apply registers_callAndWait hu h
        intro details htask
        cases htask
        rfl
  apply Sat.bind (hsend _ s hs h) hs
  intro _ t ht h
  split
  · exact hsend _ t ht h
  · exact h

theorem registers_handleStakeEvent {currentBlock : ℕ} (event : ManagerEvent)
    (hs : (flightContract server).Inv s) (h : Knows id known present s) :
    Registers server id (fun _ t => Knows id known present t)
      (handleStakeEvent server currentBlock event) s := by
  apply Sat.bind (registers_receive hs h) hs
  intro _ t ht h
  split
  · exact registers_withdrawAllFunds ht h
  · exact h

theorem registers_attemptRegistration {view : RegistrationView} {currentBlock : ℕ}
    (hs : (flightContract server).Inv s) (h : Knows id [.registerServer] [] s) :
    Registers server id (fun _ t => Knows id [] [] t)
      (attemptRegistration server view currentBlock) s := by
  unfold attemptRegistration
  split
  · exact h.forget
  · apply Sat.bind (registers_findActionPending rfl hs h) hs
    intro addWorkersPending t ht h
    split
    next hadd =>
      have hnone : addWorkersPending = false := by simp_all
      exact Sat.bind (registers_sendRegistration ht (h.2 hnone) (by decide)) ht
        fun _ u hu h => registers_sendRegistration hu h (by decide)
    · exact registers_sendRegistration ht h.1 (by decide)

/-- What the decision to register again has found out. -/
def knownIf (forceRegistration : Bool) : List ServerAction :=
  if forceRegistration then [.registerServer] else []

theorem registers_shouldRegisterAgain {currentBlock : ℕ} (hs : (flightContract server).Inv s)
    (h : Knows id [] [] s) :
    Registers server id (fun force t => Knows id (knownIf force) [] t)
      (shouldRegisterAgain server currentBlock) s := by
  have hactivity : Registers server id (fun pending t => Knows id [] [] t ∧
      (pending = false → Knows id [.registerServer] [] t)) isActivityPending s := by
    have hrelay : Registers server id (fun _ t => Knows id [] [] t) (findActionPending .relayCall) s :=
      Sat.bind (registers_receive hs h) hs fun _ t _ h => sat_bind.mpr (sat_get.mpr h)
    apply Sat.bind hrelay hs
    intro isRelayPending t ht h
    split
    · exact ⟨h, fun hnone => nomatch hnone⟩
    · exact registers_findActionPending rfl ht h
  apply Sat.bind hactivity hs
  intro pending t ht h
  dsimp only
  split
  · exact h.1
  next hnone =>
    refine sat_bind.mpr (sat_get.mpr (sat_pure.mpr ?_))
    cases hforce : decide (server.dependencies.config.registrationBlockRate ≤
      (currentBlock : ℤ) - t.relay.latestTxBlockNumber) with
    | true => exact h.2 (by simp_all)
    | false => exact h.1

theorem registers_handlePastEvents {currentBlock : ℕ} {forceRegistration : Bool}
    (hs : (flightContract server).Inv s) (h : Knows id (knownIf forceRegistration) [] s) :
    Registers server id (fun _ t => Knows id [] [] t)
      (handlePastEvents server currentBlock forceRegistration) s := by
  apply Sat.bind (registers_receive hs h) hs
  intro decodedEvents t ht h
  refine Sat.bind (registers_forEach decodedEvents
    (fun event _ => registers_handleStakeEvent event) ht h) ht fun _ t ht h => ?_
  apply Sat.bind (registers_receive ht h) ht
  intro view t ht h
  refine Sat.bind (registers_forEach (List.range view.dueEvents)
    (fun _ _ => registers_withdrawAllFunds) ht h) ht fun _ t ht h => ?_
  apply Sat.bind (registers_findActionPending rfl ht h) ht
  intro isRegistrationPending t ht h
  split
  next hregister =>
    -- forced, or found not pending just now
    have hknown : Knows id [.registerServer] [] t := by
      cases forceRegistration with
      | true => exact h.1
      | false =>
          refine (h.2 ?_).subset (by simp) (by simp)
          simp_all
    exact Sat.bind (registers_attemptRegistration ht hknown) ht fun _ u _ h => h
  · exact h.1.forget

/-- A write of the round to the store that adds no pending registration. -/
theorem registers_setTxStore {txStore : TxStore} {kept : List StoredTransaction}
    (hs : (flightContract server).Inv s) (h : Knows id known present s)
    (hwrite : ∀ serverAction : ServerAction, serverAction.isRegistration = true →
      NoNewPending (isPendingOf serverAction) s.txStore txStore)
    (hkept : ∀ tx ∈ kept, tx ∈ txStore) :
    Registers server id (fun _ t => Knows id known kept t) (setTxStore txStore) s := by
  refine ⟨Reliance.allows_held hs h.active rfl rfl ⟨hs.2.1.written hwrite, hs.2.2⟩ trivial
    fun _ => trivial, h.active, h.noRegistration, fun serverAction hmem => ?_, hkept⟩
  obtain ⟨hregistration, hnone⟩ := h.nonePending serverAction hmem
  exact ⟨hregistration, (hwrite serverAction hregistration).none hnone⟩

/-- A record is written back pending only in the place of a pending one. -/
theorem registers_storeTx {tx : StoredTransaction} {kept : List StoredTransaction}
    (hs : (flightContract server).Inv s) (h : Knows id known present s)
    (htx : tx.minedBlockNumber = none → ∃ old ∈ present, old.nonceSigner = tx.nonceSigner ∧
      old.serverAction = tx.serverAction ∧ old.minedBlockNumber = none)
    (hkept : ∀ it ∈ kept, it ∈ present ∧ it.nonceSigner ≠ tx.nonceSigner) :
    Registers server id (fun _ t => Knows id known kept t) (storeTx tx) s := by
  refine Sat.bind (registers_receive hs h) hs fun _ t ht h => sat_bind.mpr (sat_get.mpr ?_)
  refine sat_bind.mpr (sat_ofExcept (fun txStore hput => ?_) fun _ _ => h.forget)
  refine registers_setTxStore ht h (fun serverAction _ => .of_putTx hput fun hpending => ?_)
    fun it hit => ?_
  · simp only [isPendingOf, Bool.and_eq_true, Option.isNone_iff_eq_none, decide_eq_true_eq] at hpending
    obtain ⟨old, hold, hkey, haction, hunmined⟩ := htx hpending.1
    exact ⟨old, h.present old hold, hkey, by simp [isPendingOf, hunmined, haction, hpending.2]⟩
  · obtain ⟨hpresent, hkey⟩ := hkept it hit
    exact (mem_of_putTx hput it).mpr (Or.inl ⟨h.present it hpresent, hkey⟩)

theorem registers_recheckTransaction {blockNumber : ℕ} (transaction : StoredTransaction)
    (hs : (flightContract server).Inv s) (h : Knows id known [] s) :
    Registers server id (fun _ t => Knows id known [] t)
      (recheckTransaction server blockNumber transaction) s := by
  unfold recheckTransaction
  split
  · exact h
  · apply Sat.bind (registers_receive hs h) hs
    intro receipt t ht h
    split
    · exact h
    · split
      · exact h
      · dsimp only
        split
        · exact registers_storeTx ht h (fun hunmined => nomatch hunmined) (by simp)
        · refine Sat.bind (registers_receive ht h) ht fun _ u hu h => sat_bind.mpr (sat_get.mpr ?_)
          exact registers_setTxStore hu h (fun _ _ => .removeTxsUntilNonce _ _ _) (by simp)

theorem registers_removeConfirmedTransactions {blockNumber : ℕ}
    (hs : (flightContract server).Inv s) (h : Knows id known [] s) :
    Registers server id (fun _ t => Knows id known [] t)
      (removeConfirmedTransactions server blockNumber) s := by
  refine Sat.bind (registers_receive hs h) hs fun _ t ht h => sat_bind.mpr (sat_get.mpr ?_)
  exact registers_forEach _ (fun transaction _ => registers_recheckTransaction transaction) ht h

theorem registers_resendTransaction {currentBlock newGasPrice : ℕ} {tx : StoredTransaction}
    {others : List StoredTransaction} (hs : (flightContract server).Inv s)
    (h : Knows id known (tx :: others) s)
    (hothers : ∀ it ∈ others, it.nonceSigner ≠ tx.nonceSigner) :
    Registers server id (fun _ t => Knows id known others t)
      (resendTransaction server currentBlock newGasPrice tx) s := by
  apply Sat.bind (registers_receive hs h) hs
  intro _ t ht h
  refine sat_bind.mpr (sat_ofExcept (fun signedTransaction _ => ?_) fun _ _ => h.forget)
  refine Sat.bind (registers_storeTx ht h (fun hunmined => ⟨tx, List.mem_cons_self, rfl, rfl, hunmined⟩)
    fun it hit => ⟨List.mem_cons_of_mem tx hit, hothers it hit⟩) ht fun _ u hu h =>
    sat_bind.mpr (sat_ofExcept (fun _ _ => ?_) fun _ _ => h.forget)
  apply Sat.bind (registers_receive hu h) hu
  intro _ v hv h
  apply Sat.bind (registers_receive hv h) hv
  intro hash w _ h
  split
  · exact h.forget
  · exact h

/-- Each entry is resent in its turn, and is still there by then. -/
theorem registers_resendTransactions {currentBlock newGasPrice : ℕ}
    {txs : List StoredTransaction} (hnodup : (txs.map (·.nonceSigner)).Nodup)
    (hs : (flightContract server).Inv s) (h : Knows id known txs s) :
    Registers server id (fun _ t => Knows id known [] t)
      (forEach (resendTransaction server currentBlock newGasPrice) txs) s := by
  induction txs generalizing s with
  | nil => exact h
  | cons tx txs ih =>
      rw [List.map_cons, List.nodup_cons] at hnodup
      refine Sat.bind (registers_resendTransaction hs h fun it hit heq => ?_) hs
        fun _ t ht h => ih hnodup.2 ht h
      exact hnodup.1 (heq ▸ List.mem_map_of_mem hit)

theorem nodup_nonceSigner_getAllBySigner (txStore : TxStore) (signer : Address)
    (keep : StoredTransaction → Bool) :
    (((getAllBySigner txStore signer).filter keep).map (·.nonceSigner)).Nodup := by
  have hperm : (getAllBySigner txStore signer).Perm
      (txStore.entries.filter fun it => toLowerCase it.fromAddress = toLowerCase signer) :=
    List.perm_insertionSort _ _
  have hsub : (((getAllBySigner txStore signer).filter keep).map (·.nonceSigner)).Sublist
      ((getAllBySigner txStore signer).map (·.nonceSigner)) :=
    List.filter_sublist.map _
  refine hsub.nodup ((hperm.map _).nodup_iff.mpr ?_)
  exact (List.filter_sublist.map _).nodup txStore.nodup_nonceSigner

theorem registers_boostStuckPendingTransactions {blockNumber : ℕ}
    (hs : (flightContract server).Inv s) (h : Knows id known [] s) :
    Registers server id (fun _ t => Knows id known [] t)
      (boostStuckPendingTransactions server blockNumber) s := by
  have hboost : ∀ signer t, (flightContract server).Inv t → Knows id known [] t →
      Registers server id (fun _ u => Knows id known [] u)
        (boostUnderpricedPendingTransactionsForSigner server signer blockNumber) t := by
    intro signer t ht h
    refine Sat.bind (registers_receive ht h) ht fun _ u hu h => sat_bind.mpr (sat_get.mpr ?_)
    dsimp only
    split
    · exact h
    · have hpresent : Knows id known (getAllBySigner u.txStore signer) u :=
        ⟨h.active, h.noRegistration, h.nonePending, fun tx htx => (mem_getAllBySigner.mp htx).1⟩
      apply Sat.bind (registers_receive hu hpresent) hu
      intro nonce v hv h
      split
      · exact h.subset (List.Subset.refl _) (by simp)
      · exact registers_resendTransactions (nodup_nonceSigner_getAllBySigner _ _ _) hv
          (h.subset (List.Subset.refl _) List.filter_sublist.subset)
  exact Sat.bind (hboost _ s hs h) hs fun _ t ht h => hboost _ t ht h

theorem registers_handleChanges {blockNumber : ℕ} (hs : (flightContract server).Inv s)
    (h : Knows id [] [] s) :
    Registers server id (fun _ t => Knows id [] [] t) (handleChanges server blockNumber) s := by
  have hevents : Registers server id (fun _ t => Knows id [] [] t)
      (handleEventsSinceLastScan server blockNumber) s := by
    apply Sat.bind (registers_receive hs h) hs
    intro hubEvents t ht h
    refine Sat.bind (registers_of_spares (spares_updateLatestTxBlockNumber (fun _ _ => rfl) hubEvents)
      ht h) ht fun _ t ht h => ?_
    apply Sat.bind (registers_shouldRegisterAgain ht h) ht
    intro force t ht h
    apply Sat.bind (registers_handlePastEvents ht h) ht
    intro view t ht h
    apply Sat.bind (registers_removeConfirmedTransactions ht h) ht
    intro _ t ht h
    exact Sat.bind (registers_boostStuckPendingTransactions ht h) ht fun _ t _ h => h
  have hready : ∀ isReady t, (flightContract server).Inv t → Knows id [] [] t →
      Registers server id (fun _ u => Knows id [] [] u) (setReadyState isReady) t :=
    fun isReady t ht h => registers_of_spares (spares_setReadyState (fun _ _ => rfl) isReady) ht h
  apply Sat.bind hevents hs
  intro changes t ht h
  refine Sat.bind (registers_of_spares (spares_updateRelay fun _ => rfl) ht h) ht fun _ t ht h => ?_
  unfold finishRound
  split
  · exact Sat.bind (hready false t ht h) ht fun _ _ _ h => h
  · refine Sat.bind (registers_of_spares (spares_handlePastHubEvents (fun _ _ _ => rfl) _ _) ht h) ht
      fun _ t ht h => ?_
    refine Sat.bind (registers_callAndWait ht h fun details htask => nomatch htask) ht
      fun _ t ht h => ?_
    apply Sat.bind (registers_receive ht h) ht
    intro workerBalance t ht h
    split
    · exact Sat.bind (hready false t ht h) ht fun _ _ _ h => h
    · exact Sat.bind (hready true t ht h) ht fun _ t ht h =>
        registers_of_spares (spares_leaveAlertedState server (fun _ _ _ => rfl) _) ht h

theorem registers_worker {blockNumber : ℕ} (hs : (flightContract server).Inv s)
    (h : Knows id [] [] s) :
    Registers server id (fun _ t => Knows id [] [] t) (worker server blockNumber) s := by
  have hscan : ∀ t, (flightContract server).Inv t → Knows id [] [] t →
      Registers server id (fun _ u => Knows id [] [] u) (scanBlock server blockNumber) t := by
    intro t ht h
    refine sat_bind.mpr (sat_get.mpr ?_)
    split
    · exact h
    · split
      · refine Sat.bind (registers_of_spares (spares_updateRelay fun _ => rfl) ht h) ht
          fun _ t ht h => ?_
        refine Sat.bind (registers_of_spares (spares_refreshGasPrice fun _ _ => rfl) ht h) ht
          fun _ t ht h => ?_
        apply Sat.bind (registers_receive ht h) ht
        intro managerBalance t ht h
        split
        · exact registers_of_spares (spares_setReadyState (fun _ _ => rfl) false) ht h
        · exact registers_handleChanges ht h
      · exact h
  refine sat_bind.mpr (sat_get.mpr ?_)
  split
  · exact Sat.bind (registers_of_spares (spares_init fun _ => rfl) hs h) hs fun _ t ht h => hscan t ht h
  · exact hscan s hs h

theorem flightContract_outside {event : Outside}
    (hs : (flightContract server).Inv s) (hstep : (system server).outside s event = some t) :
    (flightContract server).Inv t ∧ (flightContract server).Moves s t ∧
      ∀ id, (flightContract server).Leaves id s t := by
  obtain ⟨calls, hcalls, rfl⟩ := Option.map_eq_some_iff.mp hstep
  have hnext : Registering calls ∧ Undisturbed s.calls calls := by
    cases event with
    | resume cid answer =>
        cases step_cases hcalls with
        | resume hcall hcallStep =>
            exact ⟨hs.2.1.resumed hcall hcallStep, hs.2.1.undisturbed_resumed hcall hcallStep⟩
    | validateMaxNonce relayMaxNonce =>
        cases step_cases hcalls
        apply hs.2.1.started
        intro _ _ hsending
        cases hsending
    | pollNonce signer =>
        cases step_cases hcalls
        apply hs.2.1.started
        intro _ _ hsending
        cases hsending
    | replenishStrategy currentBlock =>
        cases step_cases hcalls
        apply hs.2.1.started
        intro _ _ hsending
        cases hcustom : server.customReplenish <;> simp [Task.started, hcustom, Call.sending?] at hsending
  obtain ⟨hinv, hmoves, hleaves⟩ := @Reliance.free server (flightReliance server) s { s with calls } hs
    rfl rfl ⟨hnext.1, fun hnone serverAction hregistration =>
      (hs.2.2 hnone serverAction hregistration).of_undisturbed hnext.2 hregistration⟩ trivial hnext.2
  exact ⟨hinv, hmoves, fun id => hleaves id trivial⟩

theorem flightContract_keeps : Keeps (system server) (flightContract server) where
  start job id s hs hidle := by
    have hspared : ∀ {α : Type} {program : TickM α} {s : TickState}, program.Spares TickState.flight →
        (flightContract server).Inv s → id ∉ s.relay.active →
          (flightContract server).Sat id (fun _ t => id ∉ t.relay.active)
            (fun _ t => id ∉ t.relay.active) program s := by
      intro α program s hspares hs hidle
      refine Sat.of_spares flightContract_dependsOn hspares (fun t u hpart h hid => ?_) stable_idle hs
        hidle
      simp only [TickState.flight, Prod.mk.injEq] at hpart
      exact h (hpart.1 ▸ hid)
    cases job with
    | init => exact hspared (spares_init fun _ => rfl) hs hidle
    | relayRequest request =>
        refine sat_bind.mpr (sat_get.mpr ?_)
        split
        · exact hidle
        · refine Sat.bind (hspared (spares_slowDown (fun _ _ => rfl) id) hs hidle) hs
            fun _ t ht hidle => Sat.bind (hspared (spares_validateInput request) ht hidle) ht
            fun _ t ht hidle => Sat.bind (hspared (spares_updateRelay fun _ => rfl) ht hidle) ht
            fun _ t ht hidle => ?_
          have ⟨hregistering, hundisturbed⟩ : Registering (t.called (.createRelayTransaction request
              .polling)).calls ∧ Undisturbed t.calls (t.called (.createRelayTransaction request
              .polling)).calls :=
            ht.2.1.started fun _ _ hsending => nomatch hsending
          exact ⟨Reliance.allows_free ht rfl rfl ⟨hregistering, fun hnone serverAction hregistration =>
            (ht.2.2 hnone serverAction hregistration).of_undisturbed hundisturbed hregistration⟩ trivial
            hundisturbed fun _ _ => trivial, hidle⟩
    | tick =>
        refine sat_intervalHandler hs hidle (fun t ht htidle => ⟨flightContract_dependsOn.allows ht rfl,
          htidle⟩) fun blockNumber t ht htidle _ => ?_
        refine sat_workerSemaphore (J := Knows id [] []) (K := Knows id [] []) htidle (fun hfree => ?_)
          (fun u hu h => registers_worker hu h)
          (fun u hu h => ⟨flightContract_dependsOn.allows hu rfl, h.active, h.noRegistration,
            h.nonePending, h.present⟩)
          (fun u hu h => ⟨flightContract_dependsOn.allows hu rfl, h.active, h.noRegistration,
            h.nonePending, h.present⟩)
          (fun u hu h => Reliance.allows_released hu h.active ⟨hu.2.1, fun _ => h.noRegistration⟩
            trivial fun _ => trivial) stable_knows stable_knows
        have hquiet := ht.2.2 (ht.1.active_eq_nil hfree)
        exact ⟨Reliance.allows_acquired ht hfree ⟨ht.2.1, fun _ => hquiet⟩ trivial fun _ => trivial,
          List.mem_cons_self, hquiet, by simp, by simp⟩
  outside _ _ _ hs hstep := flightContract_outside hs hstep

/-- From a store without two unmined registrations of one action there are never two,
however ticks, rounds that fail, requests and calls interleave. -/
theorem single_registration_in_flight {txStore : TxStore} {events : List TickEvent} {state : Ticking}
    (hrun : Runs.run (tickStep server) (launched server txStore) events = some state)
    (hregisterServer : SinglePending (isPendingOf .registerServer) txStore)
    (haddWorker : SinglePending (isPendingOf .addWorker) txStore) :
    SinglePending (isPendingOf .registerServer) state.shared.txStore ∧
      SinglePending (isPendingOf .addWorker) state.shared.txStore := by
  have hregistering : Registering (ServerState.initial txStore) := by
    refine ⟨fun serverAction hregistration => ⟨?_, fun id other call call' hcall => ?_,
      fun call hcall => ?_⟩, fun call hcall => ?_⟩
    · cases serverAction with
      | registerServer => exact hregisterServer
      | addWorker => exact haddWorker
      | relayCall | valueTransfer | depositWithdrawal | penalization => cases hregistration
    all_goals simp [ServerState.initial] at hcall
  have hkept : Kept (flightContract server) (launched server txStore) :=
    kept_initial ⟨Or.inl ⟨rfl, rfl⟩, hregistering, fun _ _ _ call hcall => by
      simp [TickState.initial, ServerState.initial] at hcall⟩ fun _ hid => by cases hid
  obtain ⟨hlast, -⟩ := hkept.run flightContract_keeps (along_permitted (fun _ _ _ => trivial) _ events)
    hrun
  exact ⟨(hlast.inv.2.1.flight .registerServer rfl).single, (hlast.inv.2.1.flight .addWorker rfl).single⟩

/-- The answers to a manager that has yet to register. -/
def unregisteredAnswers (blockNumber : ℕ) : ∀ question, Question.Answer question
  | .registrationView => .ok ⟨0, false, true, false, false⟩
  | question => quietAnswers blockNumber (.ok 7) question

def sendAnswers (count : ℕ) (broadcast : Except String Hash) : List RifRelayServer.Answer :=
  [.gasPrice (.ok 7), .acquired, .transactionCount (.ok count), .signature none, .stored none,
    .broadcast broadcast]

/-- A first round fails once its `addRelayWorkers` is stored, and the next one registers. -/
def registeredInTwoRounds : List TickEvent :=
  .start .tick :: resumed 0 13 (unregisteredAnswers 10) ++
    (sendAnswers 0 (.error "timeout")).map (.outside <| .resume 0 ·) ++
    resumed 0 2 (unregisteredAnswers 10) ++ .start .tick :: resumed 1 12 (unregisteredAnswers 20) ++
    (sendAnswers 0 (.ok "1/7")).map (.outside <| .resume 1 ·) ++ resumed 1 2 (unregisteredAnswers 20)

theorem single_registration_in_flight_twoRounds :
    (ticked registeredInTwoRounds).shared.txStore.entries.map (·.serverAction) =
        [.addWorker, .registerServer] ∧
      SinglePending (isPendingOf .addWorker) (ticked registeredInTwoRounds).shared.txStore :=
  ⟨by decide +kernel, (single_registration_in_flight
    (@run_ticked registeredInTwoRounds (by decide +kernel)) (fun _ h => absurd h (TxStore.not_mem_empty _))
    fun _ h => absurd h (TxStore.not_mem_empty _)).2⟩

end Ticks

end RifRelayServer
