import RifRelayServer.EventDelivery
import RifRelayServer.Calls
import Mathlib

/-!
# What a refill leaves

A refill brings the worker to its target balance, and the manager pays for the
transfer too. Whether it is decided on does not look at the price of gas, nor at how
the target compares with what the worker needs.
-/

namespace RifRelayServer

open Std.Do Keeping Runs

set_option mvcgen.warning false

/-- What `replenishStrategy` does before it sends a refill. -/
def decideRefill (server : RelayServer) (round : Round) : RoundM (Option ℤ) := do
  if server.customReplenish then throw noCustomReplenish
  let config := server.dependencies.config
  let managerBalance ← receive server round (·.getBalance server.managerAddress)
  let workerBalance ← receive server round (·.getBalance server.workerAddress)
  setWorkerBalance workerBalance
  let state ← get
  let isSatisfied := state.workerBalanceRequired.isSatisfied
  if config.managerTargetBalance < managerBalance ∧ isSatisfied = true then return none
  let isReplenishPendingForWorker ←
    findActionPending server round .valueTransfer (some server.workerAddress)
  if isSatisfied = false ∧ isReplenishPendingForWorker = false then
    let state ← get
    let refill := config.workerTargetBalance - state.workerBalanceRequired.currentValue
    if refill < managerBalance - config.managerMinBalance then return some refill
    else return none
  else return none

section Decision

variable {server : RelayServer} {round : Round} {currentBlock : ℕ}

theorem replenishStrategy_eq :
    replenishStrategy server round currentBlock =
      (do
        let decision ← decideRefill server round
        match decision with
        | none => return []
        | some refill =>
            let sent ← callManager server round
              (sendTransaction server.dependencies · (refillDetails server refill currentBlock))
            return [sent.txHash]) := by
  unfold replenishStrategy decideRefill
  cases server.customReplenish with
  | true => rfl
  | false =>
      simp only [Bool.false_eq_true, if_false, bind_assoc]
      apply bind_congr; intro managerBalance
      apply bind_congr; intro workerBalance
      apply bind_congr; intro _
      apply bind_congr; intro state
      split
      · rw [pure_bind]
      · rw [bind_assoc]
        apply bind_congr; intro isReplenishPendingForWorker
        split
        · rw [bind_assoc]
          apply bind_congr; intro state
          split <;> rw [pure_bind]
        · rw [pure_bind]

/-- What was read where a refill is decided on. -/
theorem decideRefill_spec {x : WorkerState} :
    ⦃fun state => ⌜state = x⌝⦄ decideRefill server round
    ⦃post⟨fun decision _ => ⌜∀ refill ∈ decision, ∃ managerBalance workerBalance : ℕ,
        (round.moments x.received).getBalance server.managerAddress = .ok managerBalance ∧
          (round.moments (x.received + 1)).getBalance server.workerAddress = .ok workerBalance ∧
          (workerBalance : ℤ) < x.workerBalanceRequired.requiredValue ∧
          refill = server.dependencies.config.workerTargetBalance - workerBalance ∧
          refill < managerBalance - server.dependencies.config.managerMinBalance⌝,
      fun _ _ => ⌜True⌝⟩⦄ := by
  mvcgen [-receive_keepsApart, -awaited_keepsApart, decideRefill, receive, awaited, setWorkerBalance]
    with grind [AmountRequired.isSatisfied]

end Decision

def PopulatedTransaction.maxCost (tx : PopulatedTransaction) : ℕ :=
  tx.gasLimit.getD 0 * tx.gasPrice.getD 0

/-- The refill is one, the worker has enough with it, and the manager without it. -/
structure RefillIsSafe (config : BlockchainConfig) (managerBalance workerBalance : ℤ)
    (tx : PopulatedTransaction) : Prop where
  positive : 0 < tx.value.getD 0
  sufficient : config.workerMinBalance ≤ workerBalance + tx.value.getD 0
  affordable : config.managerMinBalance ≤ managerBalance - tx.value.getD 0 - tx.maxCost

/-- The execution gives a refill to `sendTransaction`, and with the price that the node
answers this is what is to be signed. -/
def SendsRefill (server : RelayServer) (round : Round) (currentBlock : ℕ) (state : WorkerState)
    (price : ℕ) (tx : PopulatedTransaction) : Prop :=
  ∃ refill decided nonce, decideRefill server round state = .ok (some refill) decided ∧
    (round.moments decided.received).provider.getGasPrice = .ok price ∧
    tx = (refillDetails server refill currentBlock).txToSign price nonce

section Required

variable {server : RelayServer} {round : Round} {x : ℤ}

attribute [local spec] refreshGasPrice_keepsRoundView refreshBalance_keepsRoundView
  init_keepsRoundView updateLatestTxBlockNumber_sorts handleStakeEvents_keepBesideActed
  finishRound_keepsBesideAlert

/-- The program leaves what the worker needs as it is. -/
abbrev KeepsRequired {α : Type} (x : ℤ) (program : RoundM α) : Prop :=
  Keeps (fun state => state.workerBalanceRequired.requiredValue = x) program

@[local spec] theorem handlePastEvents_keepsRequired {hubEvents : List TypedEvent}
    {lastScannedBlock currentBlock : ℕ} {forceRegistration : Bool} :
    KeepsRequired x (handlePastEvents server round hubEvents lastScannedBlock currentBlock
      forceRegistration) := by
  mvcgen [handlePastEvents, noteHanded, fetchStakeEvents, noteStakeScan, extractDuePendingEvents,
    updateRegistrationManager] with grind

@[local spec] theorem getAllHubEventsSinceLastScan_keepsRequired :
    KeepsRequired x (getAllHubEventsSinceLastScan server round) := by
  mvcgen [getAllHubEventsSinceLastScan, noteHubScan] with grind

@[local spec] theorem handleChanges_keepsRequired {currentBlockNumber : ℕ} :
    KeepsRequired x (handleChanges server round currentBlockNumber) := by
  mvcgen [handleChanges, moveCursor] with grind

@[local spec] theorem worker_keepsRequired : KeepsRequired x (worker server round) := by
  mvcgen [worker, refreshGasPrice, refreshBalance, setReadyState, updateRegistrationManager]
    with grind

theorem requiredValue_of_workerStep {state state' : WorkerState} {event : WorkerEvent}
    (hstep : workerStep server state event = some state') :
    state'.workerBalanceRequired.requiredValue = state.workerBalanceRequired.requiredValue := by
  cases event with
  | tick round =>
      obtain rfl := Option.some.inj hstep
      have hkeeps : KeepsRequired state.workerBalanceRequired.requiredValue
          (intervalHandler server round) := by
        mvcgen [intervalHandler, startRound, workerSemaphore] with grind
      exact hkeeps.final rfl
  | _ => exact (WorkerState.eq_of_roundView (roundView_of_workerStep hstep (by simp))).2.2.1

/-- What the worker needs is what the server was constructed with. -/
theorem requiredValue_of_run {txStore : TxStore} {events : List WorkerEvent} {state : WorkerState}
    (hrun : run (workerStep server) (.constructed server.dependencies.config txStore) events =
      some state) :
    state.workerBalanceRequired.requiredValue = server.dependencies.config.workerMinBalance := by
  apply invariant_of_run (I := fun state : WorkerState =>
    state.workerBalanceRequired.requiredValue = server.dependencies.config.workerMinBalance) _ _ hrun
  · rintro state event state' h hstep
    exact (requiredValue_of_workerStep hstep).trans h
  · rfl

end Required

section Refill

variable {server : RelayServer} {round : Round} {currentBlock : ℕ} {state : WorkerState}

theorem exists_of_callManager_eq_ok {α : Type} {program : Provider → ManagerM α} {a : α}
    {state' : WorkerState} (h : callManager server round program state = .ok a state') :
    ∃ manager after, program (round.moments state.received).provider manager = .ok a after := by
  obtain ⟨provider, received, hreceive, h⟩ := exists_of_bind_eq_ok h
  cases hreceive
  unfold focus at h
  split at h
  next after hrun =>
    cases h
    exact ⟨_, after, hrun⟩
  · cases h

/-- An execution that returns a hash has sent a refill, and it is the hash of that. -/
theorem sendsRefill_of_returns {txHash : Hash} {txHashes : List Hash} {state' : WorkerState}
    (h : replenishStrategy server round currentBlock state = .ok (txHash :: txHashes) state') :
    ∃ price tx, SendsRefill server round currentBlock state price tx ∧
      txHash = server.dependencies.keccak256 (.ofPopulated server.managerAddress tx) := by
  rw [replenishStrategy_eq] at h
  obtain ⟨decision, decided, hdecides, h⟩ := exists_of_bind_eq_ok h
  cases decision with
  | none => cases h
  | some refill =>
      obtain ⟨sent, after, hcall, h⟩ := exists_of_bind_eq_ok h
      cases h
      obtain ⟨manager, manager', hsend⟩ := exists_of_callManager_eq_ok hcall
      obtain ⟨price, count, hash, hsends⟩ :=
        post_of_ok (sendTransaction_sends server.dependencies _ _ manager) rfl hsend
      obtain ⟨-, -, -, hsent⟩ := ServerDependencies.signatureOf_eq_ok_iff.mp hsends.signature
      exact ⟨price, (refillDetails server refill currentBlock).txToSign price
          (resolveNonce manager.nonces server.managerAddress count).1,
        ⟨refill, decided, _, hdecides, hsends.getGasPrice, rfl⟩,
        congrArg SignedTransactionDetails.txHash hsent⟩

/-- What the refill is short of is looked at nowhere: a target below what the worker
needs, and the price of gas. -/
theorem refill_isSafe_iff {managerBalance workerBalance price : ℕ} {tx : PopulatedTransaction}
    (hrequired : state.workerBalanceRequired.requiredValue =
      server.dependencies.config.workerMinBalance)
    (hmanager : (round.moments state.received).getBalance server.managerAddress =
      .ok managerBalance)
    (hworker : (round.moments (state.received + 1)).getBalance server.workerAddress =
      .ok workerBalance)
    (hsends : SendsRefill server round currentBlock state price tx) :
    RefillIsSafe server.dependencies.config managerBalance workerBalance tx ↔
      server.dependencies.config.workerMinBalance ≤
          server.dependencies.config.workerTargetBalance ∧
        (minTxGasCost * price : ℤ) ≤
          (managerBalance - server.dependencies.config.managerMinBalance) -
            (server.dependencies.config.workerTargetBalance - workerBalance) := by
  obtain ⟨refill, decided, nonce, hdecides, -, rfl⟩ := hsends
  obtain ⟨managerBalance', workerBalance', hmanager', hworker', hbelow, hrefill, -⟩ :=
    post_of_ok decideRefill_spec rfl hdecides refill rfl
  obtain rfl : managerBalance = managerBalance' := Except.ok.inj (hmanager.symm.trans hmanager')
  obtain rfl : workerBalance = workerBalance' := Except.ok.inj (hworker.symm.trans hworker')
  have hvalue : ((refillDetails server refill currentBlock).txToSign price nonce).value.getD 0 =
      server.dependencies.config.workerTargetBalance - workerBalance := hrefill
  have hcost : ((refillDetails server refill currentBlock).txToSign price nonce).maxCost =
      minTxGasCost * price := rfl
  rw [hrequired] at hbelow
  constructor
  · rintro ⟨-, hsufficient, haffordable⟩
    rw [hvalue] at hsufficient haffordable
    rw [hcost] at haffordable
    push_cast at haffordable
    constructor <;> linarith
  · rintro ⟨htarget, hgas⟩
    constructor
    · rw [hvalue]
      linarith
    · rw [hvalue]
      linarith
    · rw [hvalue, hcost]
      push_cast
      linarith

end Refill

/-- A server with the default balances. -/
def refillServer : RelayServer :=
  { sampleStakingServer with
    dependencies := { sampleDependencies with
      config := { sampleDependencies.config with
        managerTargetBalance := 3000000000000000
        managerMinBalance := 1000000000000000
        workerTargetBalance := 3000000000000000
        workerMinBalance := 1000000000000000 } } }

/-- The manager has the given balance, and the worker nothing. -/
def refillRound (managerBalance : ℕ) : Round :=
  { sampleRound answering with
    moments := fun _ => { sampleMoment with
      provider := { sampleProvider with getGasPrice := .ok 60000000 }
      getBalance := fun address => .ok (if address = sampleManager then managerBalance else 0) } }

def refillState : WorkerState :=
  .constructed refillServer.dependencies.config TxStore.empty

def refillTx : PopulatedTransaction :=
  (refillDetails refillServer 3000000000000000 6).txToSign 60000000 0

theorem refill_isSafe_iff_default :
    RefillIsSafe refillServer.dependencies.config (5000000000000000 : ℕ) (0 : ℕ) refillTx ↔
      refillServer.dependencies.config.workerMinBalance ≤
          refillServer.dependencies.config.workerTargetBalance ∧
        (minTxGasCost * (60000000 : ℕ) : ℤ) ≤
          ((5000000000000000 : ℕ) - refillServer.dependencies.config.managerMinBalance) -
            (refillServer.dependencies.config.workerTargetBalance - (0 : ℕ)) :=
  @refill_isSafe_iff _ (refillRound 5000000000000000) 6 refillState _ _ _ _ rfl rfl rfl
    ⟨3000000000000000, _, 0, rfl, rfl, rfl⟩

/-- The manager can spare one unit more than the refill, and nothing for its gas. -/
theorem refill_below_minimum :
    ¬ ∀ (server : RelayServer) (round : Round) (currentBlock : ℕ) (state : WorkerState)
        (managerBalance workerBalance price : ℕ) (tx : PopulatedTransaction),
      state.workerBalanceRequired.requiredValue = server.dependencies.config.workerMinBalance →
      (round.moments state.received).getBalance server.managerAddress = .ok managerBalance →
      (round.moments (state.received + 1)).getBalance server.workerAddress = .ok workerBalance →
      SendsRefill server round currentBlock state price tx →
      returns (replenishStrategy server round currentBlock) state = true →
      RefillIsSafe server.dependencies.config managerBalance workerBalance tx := by
  intro h
  have hsafe := h refillServer (refillRound 4000000000000001) 6 refillState 4000000000000001 0
    60000000 refillTx rfl rfl rfl ⟨3000000000000000, _, 0, rfl, rfl, rfl⟩ (by decide +kernel)
  exact absurd hsafe.affordable (by decide)

end RifRelayServer
