import RifRelayServer.RegistrationsInFlight
import RifRelayServer.RelayedTransactions
import RifRelayServer.StoreFrames

/-!
# Recorded until confirmed

The rounds rewrite entries of the store from what they read several awaits before. No
version of an entry is lost for that: only the round under way rewrites any. An entry
leaves the store once the node has reported a transaction of its signer confirmed that
has its nonce or a later one, and not before, however often the process is restarted.
-/

namespace RifRelayServer

/-- The entry is the other one, or what later boosts have made of it. -/
structure StoredTransaction.Supersedes (tx' tx : StoredTransaction) : Prop where
  payload : tx'.payload = tx.payload
  fromAddress : tx'.fromAddress = tx.fromAddress
  version : (tx'.attempts = tx.attempts ∧ tx'.txId = tx.txId ∧ tx'.gasPrice = tx.gasPrice) ∨
    tx.attempts < tx'.attempts ∧
      ∃ price price', tx.gasPrice = some price ∧ tx'.gasPrice = some price' ∧ price < price'

/-- The entry is of the signed transaction, at its price or a higher one. -/
structure StoredTransaction.StandsFor (tx : StoredTransaction) (signedTx : SignedTransaction) :
    Prop where
  fromAddress : tx.fromAddress = signedTx.fromAddress
  nonce : tx.nonce = some signedTx.nonce
  toAddress : tx.toAddress = signedTx.toAddress
  data : tx.data.getD "0x" = signedTx.data
  gasLimit : tx.gasLimit = some signedTx.gasLimit
  gasPrice : ∃ price, tx.gasPrice = some price ∧ signedTx.gasPrice ≤ price

namespace StoredTransaction

theorem Supersedes.refl (tx : StoredTransaction) : tx.Supersedes tx :=
  ⟨rfl, rfl, Or.inl ⟨rfl, rfl, rfl⟩⟩

theorem Supersedes.trans {tx tx' tx'' : StoredTransaction} (h : tx''.Supersedes tx')
    (h' : tx'.Supersedes tx) : tx''.Supersedes tx := by
  refine ⟨h.payload.trans h'.payload, h.fromAddress.trans h'.fromAddress, ?_⟩
  rcases h.version with ⟨hattempts, htxId, hprice⟩ | ⟨hattempts, price, price', hprice, hprice', hlt⟩ <;>
    rcases h'.version with
      ⟨hattempts', htxId', hsame⟩ | ⟨hattempts', first, second, hfirst, hsecond, hlt'⟩
  · exact Or.inl ⟨hattempts.trans hattempts', htxId.trans htxId', hprice.trans hsame⟩
  · exact Or.inr ⟨hattempts'.trans_eq hattempts.symm, first, second, hfirst, hprice.trans hsecond, hlt'⟩
  · exact Or.inr ⟨hattempts'.symm.trans_lt hattempts, price, price', hsame.symm.trans hprice, hprice',
      hlt⟩
  · obtain rfl := Option.some.inj (hsecond.symm.trans hprice)
    exact Or.inr ⟨hattempts'.trans hattempts, first, price', hfirst, hprice', hlt'.trans hlt⟩

theorem Supersedes.nonceSigner {tx tx' : StoredTransaction} (h : tx'.Supersedes tx) :
    tx'.nonceSigner = tx.nonceSigner :=
  congrArg Payload.nonceSigner h.payload

theorem supersedes_mined (tx : StoredTransaction) (minedBlockNumber : ℕ) :
    { tx with minedBlockNumber := some minedBlockNumber : StoredTransaction }.Supersedes tx :=
  ⟨rfl, rfl, Or.inl ⟨rfl, rfl, rfl⟩⟩

theorem supersedes_withAttempt {tx : StoredTransaction} {newGasPrice : ℕ}
    (hprice : tx.gasPrice.any (· < newGasPrice) = true) (txId : Hash) (currentBlock : ℕ) :
    (tx.withAttempt txId (tx.txToResend newGasPrice) currentBlock).Supersedes tx := by
  obtain ⟨price, hsome, hlt⟩ := (Option.any_eq_true _ _).mp hprice
  exact ⟨rfl, rfl, Or.inr ⟨Nat.lt_succ_self _, price, newGasPrice, hsome, rfl, of_decide_eq_true hlt⟩⟩

theorem StandsFor.of_supersedes {tx tx' : StoredTransaction} {signedTx : SignedTransaction}
    (h : tx.StandsFor signedTx) (hsupersedes : tx'.Supersedes tx) : tx'.StandsFor signedTx := by
  obtain ⟨price, hprice, hle⟩ := h.gasPrice
  refine ⟨hsupersedes.fromAddress.trans h.fromAddress,
    (congrArg (·.nonceSigner.1) hsupersedes.payload).trans h.nonce,
    (congrArg Payload.toAddress hsupersedes.payload).trans h.toAddress, ?_,
    (congrArg Payload.gasLimit hsupersedes.payload).trans h.gasLimit, ?_⟩
  · rw [← h.data]
    exact congrArg (fun payload : Payload => payload.data.getD "0x") hsupersedes.payload
  · rcases hsupersedes.version with ⟨-, -, hsame⟩ | ⟨-, first, second, hfirst, hsecond, hlt⟩
    · exact ⟨price, hsame.trans hprice, hle⟩
    · obtain rfl := Option.some.inj (hfirst.symm.trans hprice)
      exact ⟨second, hsecond, hle.trans hlt.le⟩

theorem StandsFor.nonceSigner {tx : StoredTransaction} {signedTx : SignedTransaction}
    (h : tx.StandsFor signedTx) :
    tx.nonceSigner = (some signedTx.nonce, toLowerCase signedTx.fromAddress) :=
  Prod.ext h.nonce (congrArg toLowerCase h.fromAddress)

end StoredTransaction

/-- What is signed for a call is what it stores. -/
theorem standsFor_signed {dependencies : ServerDependencies} {details : SendTransactionDetails}
    {price nonce : ℕ} {signedTransaction : SignedTransactionDetails}
    (h : dependencies.signatureOf (dependencies.keyManagerOf details.signer) details.signer
      (details.txToSign price nonce) = .ok signedTransaction) :
    (details.storedTx (details.txToSign price nonce) signedTransaction.txHash).StandsFor
      signedTransaction.signedTx := by
  obtain ⟨-, -, -, rfl⟩ := ServerDependencies.signatureOf_eq_ok_iff.mp h
  exact ⟨rfl, rfl, rfl, rfl, rfl, _, rfl, le_rfl⟩

variable {server : RelayServer} {state state' : ServerState} {event : Event}

theorem mem_storing_iff {storing : SignedTransactionDetails × StoredTransaction} :
    storing ∈ state.calls.filterMap Call.storing? ↔
      ∃ id details, state.sendingAt id = some (details, .storing storing.1 storing.2) := by
  simp only [List.mem_filterMap, ServerState.sendingAt, Option.bind_eq_some_iff]
  constructor
  · rintro ⟨call, hcall, hstoring⟩
    obtain ⟨details, hsending⟩ := Call.storing?_eq_some_iff.mp hstoring
    obtain ⟨id, hid⟩ := List.mem_iff_getElem?.mp hcall
    exact ⟨id, details, call, hid, hsending⟩
  · rintro ⟨id, details, call, hid, hsending⟩
    exact ⟨call, List.mem_of_getElem? hid, Call.storing?_eq_some_iff.mpr ⟨details, hsending⟩⟩

/-- No call rewrites or removes an entry. -/
theorem step_entries (hcalls : ∀ write, event ≠ .write write)
    (hstep : step server state event = some state') :
    ∀ tx ∈ state.shared.txStore, tx ∈ state'.shared.txStore := by
  intro tx htx
  cases step_cases hstep with
  | start task => exact htx
  | write hwrite => exact absurd rfl (hcalls _)
  | resume hcall hcallStep =>
      rcases hcallStep.txStore_cases with hsame | ⟨details, signedTransaction, storedTx, txId, -, -, hput⟩
      · exact hsame ▸ htx
      · rcases putTx_cases hput with ⟨hnonce, hkey, hid, hinsert⟩ | ⟨hupdate, -⟩
        · simp only [hinsert, TxStore.mem_insert]
          exact Or.inl htx
        · cases hupdate

namespace Ticks

open Async Async.Program Async.Contract Runs

/-- The answers that were given so far, and are to come. -/
abbrev Said := (question : Question) → question.Answer → Prop

/-- A tick was told that this is the latest block. -/
def Announced (said : Said) (blockNumber : ℕ) : Prop :=
  said .latestBlock (.ok blockNumber) ∨ said .latestBlockOrTimeout (.ok (some blockNumber))

/-- A transaction of the signer was reported that has the nonce or a later one, in a block deep
enough below one that was announced. -/
def SeenConfirmed (config : BlockchainConfig) (said : Said) (key : NonceSigner) : Prop :=
  ∃ txId receipt minedBlockNumber blockNumber,
    said (.transaction txId) (.ok (some receipt)) ∧ Announced said blockNumber ∧
      receipt.blockNumber = some minedBlockNumber ∧
      config.confirmationsNeeded ≤ (blockNumber : ℤ) - minedBlockNumber ∧
      key.1.any (· ≤ receipt.nonce) = true ∧ key.2 = toLowerCase receipt.fromAddress

def Advances (config : BlockchainConfig) (said : Said) (txStore txStore' : TxStore) : Prop :=
  ∀ tx ∈ txStore, (∃ tx' ∈ txStore', tx'.Supersedes tx) ∨ SeenConfirmed config said tx.nonceSigner

def Stands (config : BlockchainConfig) (said : Said) (txStore : TxStore)
    (signedTx : SignedTransaction) : Prop :=
  (∃ tx ∈ txStore, tx.StandsFor signedTx) ∨
    SeenConfirmed config said (some signedTx.nonce, toLowerCase signedTx.fromAddress)

section Stores

variable {config : BlockchainConfig} {said : Said} {txStore txStore' txStore'' : TxStore}

theorem advances_of_subset (h : ∀ tx ∈ txStore, tx ∈ txStore') :
    Advances config said txStore txStore' :=
  fun tx htx => Or.inl ⟨tx, h tx htx, .refl tx⟩

theorem Advances.trans (h : Advances config said txStore txStore')
    (h' : Advances config said txStore' txStore'') : Advances config said txStore txStore'' := by
  intro tx htx
  rcases h tx htx with ⟨tx', htx', hsupersedes⟩ | hconfirmed
  · rcases h' tx' htx' with ⟨tx'', htx'', hlater⟩ | hconfirmed
    · exact Or.inl ⟨tx'', htx'', hlater.trans hsupersedes⟩
    · exact Or.inr (hsupersedes.nonceSigner ▸ hconfirmed)
  · exact Or.inr hconfirmed

theorem Stands.advances {signedTx : SignedTransaction} (h : Stands config said txStore signedTx)
    (hadvances : Advances config said txStore txStore') : Stands config said txStore' signedTx := by
  rcases h with ⟨tx, htx, hstands⟩ | hconfirmed
  · rcases hadvances tx htx with ⟨tx', htx', hsupersedes⟩ | hconfirmed
    · exact Or.inl ⟨tx', htx', hstands.of_supersedes hsupersedes⟩
    · exact Or.inr (hstands.nonceSigner ▸ hconfirmed)
  · exact Or.inr hconfirmed

/-- An entry that the round has read is where it was, or needs no entry any more. -/
def Remains (config : BlockchainConfig) (said : Said) (txStore : TxStore)
    (tx : StoredTransaction) : Prop :=
  tx ∈ txStore ∨ SeenConfirmed config said tx.nonceSigner

theorem advances_of_putTx {tx tx' : StoredTransaction} (hput : putTx txStore tx' true = .ok txStore')
    (hremains : Remains config said txStore tx) (hsupersedes : tx'.Supersedes tx) :
    Advances config said txStore txStore' := by
  intro it hit
  by_cases hkey : it.nonceSigner = tx'.nonceSigner
  · rcases hremains with htx | hconfirmed
    · obtain rfl : it = tx :=
        TxStore.eq_of_nonceSigner hit htx (hkey.trans hsupersedes.nonceSigner)
      exact Or.inl ⟨tx', (mem_of_putTx hput tx').mpr (Or.inr rfl), hsupersedes⟩
    · rw [← hsupersedes.nonceSigner, ← hkey] at hconfirmed
      exact Or.inr hconfirmed
  · exact Or.inl ⟨it, (mem_of_putTx hput it).mpr (Or.inl ⟨hit, hkey⟩), .refl it⟩

theorem Remains.putTx {tx other : StoredTransaction} {updateExisting : Bool}
    (h : Remains config said txStore other)
    (hput : RifRelayServer.putTx txStore tx updateExisting = .ok txStore')
    (hkey : other.nonceSigner ≠ tx.nonceSigner) : Remains config said txStore' other :=
  h.imp_left fun hmem => (mem_of_putTx hput other).mpr (Or.inl ⟨hmem, hkey⟩)

/-- What a removal takes away was seen confirmed. -/
theorem Remains.removeTxsUntilNonce {tx : StoredTransaction} {receipt : TransactionResponse}
    (h : Remains config said txStore tx)
    (hconfirmed : ∀ key : NonceSigner, key.1.any (· ≤ receipt.nonce) = true →
      key.2 = toLowerCase receipt.fromAddress → SeenConfirmed config said key) :
    Remains config said (removeTxsUntilNonce txStore receipt.fromAddress receipt.nonce) tx := by
  rcases h with hmem | hseen
  · cases huntil : isUntilNonce receipt.fromAddress receipt.nonce tx with
    | false => exact Or.inl (mem_removeTxsUntilNonce.mpr ⟨hmem, huntil⟩)
    | true =>
        rw [isUntilNonce, Bool.and_eq_true, decide_eq_true_eq] at huntil
        exact Or.inr (hconfirmed tx.nonceSigner huntil.1 huntil.2)
  · exact Or.inr hseen

theorem advances_of_remains (h : ∀ tx ∈ txStore, Remains config said txStore' tx) :
    Advances config said txStore txStore' :=
  fun tx htx => (h tx htx).imp_left fun hmem => ⟨tx, hmem, .refl tx⟩

end Stores

/-- What the semaphore, the store and the transactions on their way to it depend on. -/
def TickState.records (s : TickState) :
    (List ℕ × Bool) × TxStore × List SignedTransaction ×
      List (SignedTransactionDetails × StoredTransaction) :=
  ((s.relay.active, s.relay.workerSemaphoreOn), s.txStore, s.calls.shared.sent,
    s.calls.calls.filterMap Call.storing?)

/-- Each transaction that was signed and stored stands in the store or was seen confirmed. -/
structure Durable (config : BlockchainConfig) (said : Said) (s : TickState) : Prop where
  sent : ∀ signedTx ∈ s.calls.shared.sent, Stands config said s.txStore signedTx
  storing : ∀ storing ∈ s.calls.calls.filterMap Call.storing?, storing.2.StandsFor storing.1.signedTx

/-- Only the round under way rewrites or removes entries. -/
def recordReliance (server : RelayServer) (said : Said) : Reliance server where
  Inv s := Durable server.dependencies.config said s
  Moves s t := Advances server.dependencies.config said s.txStore t.txStore
  Rely s t := ∀ tx ∈ s.txStore, tx ∈ t.txStore
  Permits _ := said
  moves_refl _ := advances_of_subset fun _ htx => htx
  moves_trans h h' := h.trans h'
  rely_refl _ _ htx := htx
  rely_trans h h' tx htx := h' tx (h tx htx)

abbrev recordContract (server : RelayServer) (said : Said) : Contract (system server) :=
  (recordReliance server said).contract

variable {server : RelayServer} {said : Said} {id blockNumber : ℕ} {s t : TickState}

theorem recordContract_dependsOn : (recordContract server said).DependsOn TickState.records := by
  intro s t hs hpart
  simp only [TickState.records, Prod.mk.injEq] at hpart
  obtain ⟨⟨hactive, hflag⟩, hstore, hsent, hstoring⟩ := hpart
  have ⟨hinv, hmoves, hleaves⟩ := @Reliance.free server (recordReliance server said) s t hs hactive
    hflag ⟨by simpa only [hsent, hstore] using hs.2.sent, by simpa only [hstoring] using hs.2.storing⟩
    (advances_of_subset (by simp [hstore])) (by simp [recordReliance, hstore])
  exact ⟨hinv, hmoves, fun id => hleaves id trivial⟩

theorem records_called (s : TickState) (call : Call) (h : call.storing? = none) :
    (s.called call).records = s.records := by
  simp [TickState.records, TickState.called, TickState.txStore, h]

/-- What the round under way knows: the entries that it has read remain. -/
structure Holds (server : RelayServer) (said : Said) (id : ℕ) (present : List StoredTransaction)
    (s : TickState) : Prop where
  active : id ∈ s.relay.active
  present : ∀ tx ∈ present, Remains server.dependencies.config said s.txStore tx

variable {present others : List StoredTransaction} {tx tx' : StoredTransaction}

theorem Holds.forget (h : Holds server said id present s) : Holds server said id [] s :=
  ⟨h.active, by simp⟩

theorem stable_holds : (recordContract server said).Stable id (Holds server said id present) :=
  fun _ _ _ hleaves h => ⟨hleaves.1.mpr h.active,
    fun tx htx => (h.present tx htx).imp_left (hleaves.2.1 h.active tx)⟩

theorem Holds.of_eq (hpart : t.records = s.records) (h : Holds server said id present s) :
    Holds server said id present t := by
  simp only [TickState.records, Prod.mk.injEq] at hpart
  exact ⟨hpart.1.1 ▸ h.active, hpart.2.1 ▸ h.present⟩

/-- The program keeps the contract as a part of the round under way. -/
abbrev Records {α : Type} (server : RelayServer) (said : Said) (id : ℕ) (Q : α → TickState → Prop)
    (program : TickM α) (s : TickState) : Prop :=
  (recordContract server said).Sat id Q (fun _ t => Holds server said id [] t) program s

theorem records_of_spares {α : Type} {program : TickM α} (hspares : program.Spares TickState.records)
    (hs : (recordContract server said).Inv s) (h : Holds server said id present s) :
    Records server said id (fun _ t => Holds server said id present t) program s :=
  (Sat.of_spares recordContract_dependsOn hspares (fun _ _ => Holds.of_eq) stable_holds hs h).mono hs
    (fun _ _ _ h => h) fun _ _ _ h => h.forget

theorem records_receive {question : Question} (h : Holds server said id present s) :
    Records server said id
      (fun a t => Holds server said id present t ∧ said question (.ok a)) (receive question) s := by
  refine sat_bind.mpr fun t ht hleaves _ answer hsaid => ?_
  have hlater := stable_holds ht hleaves h
  refine sat_ofExcept (fun a hanswer => ?_) fun _ _ => hlater.forget
  exact ⟨hlater, hanswer ▸ hsaid⟩

theorem records_setTxStore {txStore : TxStore} (hs : (recordContract server said).Inv s)
    (h : Holds server said id present s)
    (hadvances : Advances server.dependencies.config said s.txStore txStore)
    (hothers : ∀ it ∈ others, Remains server.dependencies.config said txStore it) :
    Records server said id (fun _ t => Holds server said id others t) (setTxStore txStore) s :=
  ⟨Reliance.allows_held hs h.active rfl rfl
    ⟨fun signedTx hsent => (hs.2.sent signedTx hsent).advances hadvances, hs.2.storing⟩ hadvances
    fun _ => trivial, h.active, hothers⟩

/-- A record is written back in the place of the entry that was read, or of none that counts. -/
theorem records_storeTx (hs : (recordContract server said).Inv s)
    (h : Holds server said id (tx :: others) s) (hsupersedes : tx'.Supersedes tx)
    (hothers : ∀ it ∈ others, it.nonceSigner ≠ tx.nonceSigner) :
    Records server said id (fun _ t => Holds server said id others t) (storeTx tx') s := by
  refine Sat.bind (records_receive h) hs fun _ t ht h => sat_bind.mpr (sat_get.mpr ?_)
  refine sat_bind.mpr (sat_ofExcept (fun txStore hput => ?_) fun _ _ => h.1.forget)
  refine records_setTxStore ht h.1
    (advances_of_putTx hput (h.1.present tx List.mem_cons_self) hsupersedes) fun it hit => ?_
  refine (h.1.present it (List.mem_cons_of_mem tx hit)).putTx hput ?_
  exact hsupersedes.nonceSigner ▸ hothers it hit

/-- What is removed was reported deep enough below the block of the round. -/
theorem records_recheckTransaction (hannounced : Announced said blockNumber)
    (hs : (recordContract server said).Inv s) (h : Holds server said id (tx :: others) s)
    (hothers : ∀ it ∈ others, it.nonceSigner ≠ tx.nonceSigner) :
    Records server said id (fun _ t => Holds server said id others t)
      (recheckTransaction server blockNumber tx) s := by
  have hskip : ∀ {t}, Holds server said id (tx :: others) t → Holds server said id others t :=
    fun h => ⟨h.active, fun it hit => h.present it (List.mem_cons_of_mem tx hit)⟩
  unfold recheckTransaction
  split
  · exact hskip h
  next hdue =>
    apply Sat.bind (records_receive h) hs
    rintro receipt t ht ⟨h, hsaid⟩
    split
    · exact hskip h
    next receipt =>
      split
      · exact hskip h
      next minedBlockNumber hmined =>
        dsimp only
        split
        · exact records_storeTx ht h (tx.supersedes_mined minedBlockNumber) hothers
        next hdeep =>
          have hconfirmations : server.dependencies.config.confirmationsNeeded ≤
              (blockNumber : ℤ) - minedBlockNumber := by
            by_cases hsame : some minedBlockNumber = tx.minedBlockNumber
            · simpa [shouldRecheck, ← hsame] using hdue
            · exact not_lt.mp fun hlt => hdeep ⟨hsame, hlt⟩
          have hconfirmed : ∀ key : NonceSigner, key.1.any (· ≤ receipt.nonce) = true →
              key.2 = toLowerCase receipt.fromAddress →
                SeenConfirmed server.dependencies.config said key :=
            fun key hnonce hsigner => ⟨tx.txId, receipt, minedBlockNumber, blockNumber, hsaid,
              hannounced, hmined, hconfirmations, hnonce, hsigner⟩
          refine Sat.bind (records_receive h) ht fun _ u hu h => sat_bind.mpr (sat_get.mpr ?_)
          refine records_setTxStore hu h.1 (advances_of_remains fun it hit => ?_) fun it hit => ?_
          · exact Remains.removeTxsUntilNonce (Or.inl hit) hconfirmed
          · exact ((hskip h.1).present it hit).removeTxsUntilNonce hconfirmed

theorem records_resendTransaction {currentBlock newGasPrice : ℕ}
    (hprice : tx.gasPrice.any (· < newGasPrice) = true) (hs : (recordContract server said).Inv s)
    (h : Holds server said id (tx :: others) s)
    (hothers : ∀ it ∈ others, it.nonceSigner ≠ tx.nonceSigner) :
    Records server said id (fun _ t => Holds server said id others t)
      (resendTransaction server currentBlock newGasPrice tx) s := by
  apply Sat.bind (records_receive h) hs
  rintro _ t ht ⟨h, -⟩
  refine sat_bind.mpr (sat_ofExcept (fun signedTransaction _ => ?_) fun _ _ => h.forget)
  refine Sat.bind (records_storeTx ht h (StoredTransaction.supersedes_withAttempt hprice _ _) hothers)
    ht fun _ u hu h => sat_bind.mpr (sat_ofExcept (fun _ _ => ?_) fun _ _ => h.forget)
  apply Sat.bind (records_receive h) hu
  rintro _ v hv ⟨h, -⟩
  apply Sat.bind (records_receive h) hv
  rintro hash w _ ⟨h, -⟩
  split
  · exact h.forget
  · exact h

/-- Each entry has its turn, and remains until then. -/
theorem records_forEach {body : StoredTransaction → TickM Unit} {txs : List StoredTransaction}
    (hnodup : (txs.map (·.nonceSigner)).Nodup)
    (hbody : ∀ tx ∈ txs, ∀ others t, (recordContract server said).Inv t →
      Holds server said id (tx :: others) t → (∀ it ∈ others, it.nonceSigner ≠ tx.nonceSigner) →
        Records server said id (fun _ u => Holds server said id others u) (body tx) t)
    (hs : (recordContract server said).Inv s) (h : Holds server said id txs s) :
    Records server said id (fun _ t => Holds server said id [] t) (forEach body txs) s := by
  induction txs generalizing s with
  | nil => exact h
  | cons tx txs ih =>
      rw [List.map_cons, List.nodup_cons] at hnodup
      refine Sat.bind (hbody tx List.mem_cons_self txs s hs h fun it hit heq => ?_) hs fun _ t ht h =>
        ih hnodup.2 (fun it hit => hbody it (List.mem_cons_of_mem tx hit)) ht h
      exact hnodup.1 (heq ▸ List.mem_map_of_mem hit)

theorem nodup_nonceSigner_getAll (txStore : TxStore) :
    ((getAll txStore).map (·.nonceSigner)).Nodup :=
  ((List.perm_insertionSort _ _).map _).nodup_iff.mpr txStore.nodup_nonceSigner

theorem records_removeConfirmedTransactions (hannounced : Announced said blockNumber)
    (hs : (recordContract server said).Inv s) (h : Holds server said id [] s) :
    Records server said id (fun _ t => Holds server said id [] t)
      (removeConfirmedTransactions server blockNumber) s := by
  refine Sat.bind (records_receive h) hs fun _ t ht h => sat_bind.mpr (sat_get.mpr ?_)
  exact records_forEach (nodup_nonceSigner_getAll t.txStore)
    (fun _ _ _ _ => records_recheckTransaction hannounced) ht
    ⟨h.1.active, fun tx htx => Or.inl (mem_getAll.mp htx)⟩

theorem records_boostStuckPendingTransactions (hs : (recordContract server said).Inv s)
    (h : Holds server said id [] s) :
    Records server said id (fun _ t => Holds server said id [] t)
      (boostStuckPendingTransactions server blockNumber) s := by
  have hboost : ∀ signer t, (recordContract server said).Inv t → Holds server said id [] t →
      Records server said id (fun _ u => Holds server said id [] u)
        (boostUnderpricedPendingTransactionsForSigner server signer blockNumber) t := by
    intro signer t ht h
    refine Sat.bind (records_receive h) ht fun _ u hu h => sat_bind.mpr (sat_get.mpr ?_)
    dsimp only
    split
    · exact h.1
    · have hpresent : Holds server said id (getAllBySigner u.txStore signer) u :=
        ⟨h.1.active, fun tx htx => Or.inl (mem_getAllBySigner.mp htx).1⟩
      apply Sat.bind (records_receive hpresent) hu
      rintro nonce v hv ⟨h, -⟩
      split
      · exact h.forget
      · exact records_forEach (nodup_nonceSigner_getAllBySigner _ _ _)
          (fun tx htx _ _ => records_resendTransaction (List.mem_filter.mp htx).2) hv
          ⟨h.active, fun tx htx => h.present tx (List.mem_filter.mp htx).1⟩
  exact Sat.bind (hboost _ s hs h) hs fun _ t ht h => hboost _ t ht h

theorem spares_finishRound_records (hubEvents : List TypedEvent) (isRegistered : Bool) :
    (finishRound server blockNumber hubEvents isRegistered).Spares TickState.records := by
  have hready : ∀ isReady, (setReadyState isReady).Spares TickState.records :=
    spares_setReadyState fun _ _ => rfl
  unfold finishRound
  split
  · exact (hready false).bind fun _ => spares_pure ()
  · refine (spares_handlePastHubEvents (fun _ _ _ => rfl) _ _).bind fun _ =>
      (spares_call records_called _).bind fun _ => (spares_receive _).bind fun workerBalance => ?_
    split
    · exact (hready false).bind fun _ => spares_pure ()
    · exact (hready true).bind fun _ => spares_leaveAlertedState server (fun _ _ _ => rfl) _

theorem records_handleChanges (hannounced : Announced said blockNumber)
    (hs : (recordContract server said).Inv s) (h : Holds server said id [] s) :
    Records server said id (fun _ t => Holds server said id [] t) (handleChanges server blockNumber)
      s := by
  have hevents : Records server said id (fun _ t => Holds server said id [] t)
      (handleEventsSinceLastScan server blockNumber) s := by
    apply Sat.bind (records_receive h) hs
    rintro hubEvents t ht ⟨h, -⟩
    refine Sat.bind (records_of_spares (spares_updateLatestTxBlockNumber (fun _ _ => rfl) hubEvents)
      ht h) ht fun _ t ht h => ?_
    refine Sat.bind (records_of_spares (spares_registerAgain blockNumber) ht h) ht
      fun force t ht h => ?_
    refine Sat.bind (records_of_spares (spares_pastEvents records_called blockNumber force) ht h) ht
      fun view t ht h => ?_
    apply Sat.bind (records_removeConfirmedTransactions hannounced ht h) ht
    intro _ t ht h
    exact Sat.bind (records_boostStuckPendingTransactions ht h) ht fun _ t _ h => h
  apply Sat.bind hevents hs
  intro changes t ht h
  refine Sat.bind (records_of_spares (spares_updateRelay fun _ => rfl) ht h) ht fun _ t ht h => ?_
  exact records_of_spares (spares_finishRound_records _ _) ht h

theorem records_worker (hannounced : Announced said blockNumber)
    (hs : (recordContract server said).Inv s) (h : Holds server said id [] s) :
    Records server said id (fun _ t => Holds server said id [] t) (worker server blockNumber) s := by
  have hscan : ∀ t, (recordContract server said).Inv t → Holds server said id [] t →
      Records server said id (fun _ u => Holds server said id [] u) (scanBlock server blockNumber)
        t := by
    intro t ht h
    refine sat_bind.mpr (sat_get.mpr ?_)
    split
    · exact h
    · split
      · refine Sat.bind (records_of_spares (spares_updateRelay fun _ => rfl) ht h) ht
          fun _ t ht h => ?_
        refine Sat.bind (records_of_spares (spares_refreshGasPrice fun _ _ => rfl) ht h) ht
          fun _ t ht h => ?_
        apply Sat.bind (records_receive h) ht
        rintro managerBalance t ht ⟨h, -⟩
        split
        · exact records_of_spares (spares_setReadyState (fun _ _ => rfl) false) ht h
        · exact records_handleChanges hannounced ht h
      · exact h
  refine sat_bind.mpr (sat_get.mpr ?_)
  split
  · exact Sat.bind (records_of_spares (spares_init fun _ => rfl) hs h) hs fun _ t ht h => hscan t ht h
  · exact hscan s hs h

/-- The block of a tick that starts a round was announced to it. -/
theorem records_intervalHandler (hs : (recordContract server said).Inv s)
    (hidle : id ∉ s.relay.active)
    (hround : ∀ blockNumber t, Announced said blockNumber → (recordContract server said).Inv t →
      id ∉ t.relay.active → (recordContract server said).Sat id (fun _ u => id ∉ u.relay.active)
        (fun _ u => id ∉ u.relay.active) (workerSemaphore server id blockNumber) t) :
    (recordContract server said).Sat id (fun _ t => id ∉ t.relay.active)
      (fun _ t => id ∉ t.relay.active) (intervalHandler server id) s := by
  have hlatest : (recordContract server said).Sat id
      (fun answer t => id ∉ t.relay.active ∧ ∀ blockNumber, answer = .ok blockNumber →
        Announced said blockNumber) (fun _ t => id ∉ t.relay.active) latestBlock s := by
    refine sat_bind.mpr fun t ht hleaves _ answer hsaid => ?_
    have htidle : id ∉ t.relay.active := fun hid => hidle (hleaves.1.mp hid)
    rcases answer with e | _ | blockNumber
    · exact ⟨htidle, fun _ h => by cases h⟩
    · refine sat_bind.mpr ⟨recordContract_dependsOn.allows ht rfl, ?_⟩
      intro u _ hleaves _ answer hsaid
      exact ⟨fun hid => htidle (hleaves.1.mp hid), fun blockNumber h => Or.inl (h ▸ hsaid)⟩
    · exact ⟨htidle, fun _ h => Or.inr (Except.ok.inj h ▸ hsaid)⟩
  apply Sat.bind hlatest hs
  rintro answer t ht ⟨htidle, hannounced⟩
  cases answer with
  | error e => exact sat_bind.mpr ⟨recordContract_dependsOn.allows ht rfl, htidle⟩
  | ok blockNumber =>
      refine sat_bind.mpr (sat_get.mpr ?_)
      split
      · exact hround blockNumber t (hannounced blockNumber rfl) ht htidle
      · exact htidle

theorem Durable.step {config : BlockchainConfig} {calls : ServerState} {event : RifRelayServer.Event}
    (h : Durable config said s) (hentries : ∀ tx ∈ s.txStore, tx ∈ calls.shared.txStore)
    (hstep : RifRelayServer.step server s.calls event = some calls) :
    Durable config said { s with calls } := by
  have hstands : ∀ signedTx ∈ s.calls.shared.sent, Stands config said calls.shared.txStore signedTx :=
    fun signedTx hsent => (h.sent signedTx hsent).advances (advances_of_subset hentries)
  obtain ⟨shared, calls⟩ := calls
  cases step_sendingChange hstep with
  | others hsent hat =>
      refine ⟨fun signedTx hmem => hstands signedTx (hsent ▸ hmem), fun storing hmem => ?_⟩
      obtain ⟨cid, details, hstoring⟩ := mem_storing_iff.mp hmem
      rcases hat cid _ hstoring with hold | hnew
      · exact h.storing storing (mem_storing_iff.mpr ⟨cid, details, hold⟩)
      · cases hnew
  | sends hat hsend hat' =>
      refine ⟨fun signedTx hmem => ?_, fun storing hmem => ?_⟩
      · cases hsend with
        | @stored signedTransaction storedTx txStore hput =>
            rcases List.mem_append.mp hmem with hold | hnew
            · exact hstands signedTx hold
            · obtain rfl := List.mem_singleton.mp hnew
              refine Or.inl ⟨storedTx, (mem_of_putTx hput storedTx).mpr (Or.inr rfl), ?_⟩
              exact h.storing (signedTransaction, storedTx) (mem_storing_iff.mpr ⟨_, _, hat⟩)
        | priced | acquired | polled | signed | released | failed | accepted =>
            exact hstands signedTx hmem
      · obtain ⟨signed, stored⟩ := storing
        obtain ⟨cid, details', hstoring⟩ := mem_storing_iff.mp hmem
        dsimp only at hstoring
        rcases sendingAt_cases hat' hstoring with ⟨rfl, heq⟩ | ⟨-, hold⟩
        · cases heq
          cases hsend with
          | signed hsigned => exact standsFor_signed hsigned
        · exact h.storing (signed, stored) (mem_storing_iff.mpr ⟨cid, details', hold⟩)

theorem recordContract_outside {event : Outside} (hs : (recordContract server said).Inv s)
    (hstep : (system server).outside s event = some t) :
    (recordContract server said).Inv t ∧ (recordContract server said).Moves s t ∧
      ∀ id, (recordContract server said).Leaves id s t := by
  obtain ⟨calls, hcalls, rfl⟩ := Option.map_eq_some_iff.mp hstep
  have hentries : ∀ tx ∈ s.txStore, tx ∈ calls.shared.txStore := by
    refine step_entries (fun write hwrite => ?_) hcalls
    cases event <;> cases hwrite
  have ⟨hinv, hmoves, hleaves⟩ := @Reliance.free server (recordReliance server said) s
    { s with calls } hs rfl rfl (hs.2.step hentries hcalls) (advances_of_subset hentries) hentries
  exact ⟨hinv, hmoves, fun id => hleaves id trivial⟩

theorem recordContract_keeps (server : RelayServer) (said : Said) :
    Async.Keeps (system server) (recordContract server said) where
  start job id s hs hidle := by
    have hspared : ∀ {program : TickM Unit}, program.Spares TickState.records →
        (recordContract server said).Sat id (fun _ t => id ∉ t.relay.active)
          (fun _ t => id ∉ t.relay.active) program s := by
      intro program hspares
      refine Sat.of_spares recordContract_dependsOn hspares (fun t u hpart h hid => ?_) stable_idle hs
        hidle
      simp only [TickState.records, Prod.mk.injEq] at hpart
      exact h (hpart.1.1 ▸ hid)
    cases job with
    | init => exact hspared (spares_init fun _ => rfl)
    | relayRequest request =>
        apply hspared
        apply spares_get.bind
        intro s
        split
        · exact spares_fail _
        · exact (spares_slowDown (fun _ _ => rfl) id).bind fun _ =>
            (spares_validateInput request).bind fun _ => (spares_updateRelay fun _ => rfl).bind fun _ =>
            spares_modify fun s => records_called s _ rfl
    | tick =>
        refine records_intervalHandler hs hidle fun blockNumber t hannounced ht htidle => ?_
        have hsame : ∀ {u} {update : Relay → Relay}, (recordContract server said).Inv u →
            Holds server said id [] u → (u.updated update).records = u.records →
              (recordContract server said).Allows id u (u.updated update) ∧
                Holds server said id [] (u.updated update) :=
          fun hu h hpart => ⟨recordContract_dependsOn.allows hu hpart, h.of_eq hpart⟩
        refine sat_workerSemaphore (J := Holds server said id []) (K := Holds server said id []) htidle
          (fun hfree => ?_) (fun u hu h => records_worker hannounced hu h)
          (fun u hu h => hsame hu h rfl) (fun u hu h => hsame hu h rfl)
          (fun u hu h => Reliance.allows_released hu h.active ⟨hu.2.sent, hu.2.storing⟩
            (advances_of_subset fun _ htx => htx) fun _ => trivial) stable_holds stable_holds
        exact ⟨Reliance.allows_acquired ht hfree ⟨ht.2.sent, ht.2.storing⟩
          (advances_of_subset fun _ htx => htx) fun _ => trivial, List.mem_cons_self, by simp⟩
  outside _ _ _ hs hstep := recordContract_outside hs hstep

abbrev ServiceEvent := LifeEvent Job Question.Answer Outside

/-- A restarted process finds the store of the one before, and nothing else. In the development
mode it would find no store either. -/
def restarted (server : RelayServer) (s : TickState) : TickState :=
  .initial server.dependencies.config s.txStore

abbrev serviceStep (server : RelayServer) : Ticking → ServiceEvent → Option Ticking :=
  lifeStep (system server) (restarted server)

/-- What the ticks of a run were told. -/
abbrev Told (server : RelayServer) (txStore : TxStore) (events : List ServiceEvent) : Said :=
  SaidAlong (system server) (restarted server) (launched server txStore) events

variable {txStore : TxStore} {earlier later : List ServiceEvent} {state state' : Ticking}

theorem kept_records (server : RelayServer) (said : Said) (txStore : TxStore) :
    Kept (recordContract server said) (launched server txStore) := by
  refine kept_initial ⟨Or.inl ⟨rfl, rfl⟩, ⟨fun _ hsent => ?_, fun _ hstoring => ?_⟩⟩
    fun _ hid => by cases hid
  · cases hsent
  · cases hstoring

/-- From one moment of the service to a later one the store advances. -/
theorem run_advances (hrun : run (serviceStep server) (launched server txStore) earlier = some state)
    (hlater : run (serviceStep server) state later = some state') :
    Durable server.dependencies.config (Told server txStore (earlier ++ later)) state.shared ∧
      Advances server.dependencies.config (Told server txStore (earlier ++ later))
        state.shared.txStore state'.shared.txStore := by
  have hanswered : Along (serviceStep server) (LifePermitted (Told server txStore (earlier ++ later)))
      (launched server txStore) (earlier ++ later) := along_answered
  obtain ⟨hbefore, hafter⟩ := hanswered.append hrun
  have hrestart : ∀ s, (recordContract server (Told server txStore (earlier ++ later))).Inv s →
      (recordContract server (Told server txStore (earlier ++ later))).Inv (restarted server s) ∧
        Advances server.dependencies.config (Told server txStore (earlier ++ later)) s.txStore
          (restarted server s).txStore ∧ ∀ id, id ∉ (restarted server s).relay.active := by
    intro s _
    refine ⟨(kept_records server _ s.txStore).inv, advances_of_subset fun _ htx => htx, fun id hid => ?_⟩
    cases hid
  obtain ⟨hkept, -⟩ := (kept_records server _ txStore).lives (recordContract_keeps server _)
    (fun _ _ _ h => h) hrestart hbefore hrun
  obtain ⟨-, hmoves⟩ := hkept.lives (recordContract_keeps server _) (fun _ _ _ h => h) hrestart hafter
    hlater
  exact ⟨hkept.inv.2, hmoves⟩

/-- From any moment to any later one, whatever ticks, requests and calls interleave and however
often the process is restarted, an entry is still in the store as it was or as boosts have made it,
or a transaction of its signer with its nonce or a later one was reported confirmed. -/
theorem recorded_until_confirmed
    (hrun : run (serviceStep server) (launched server txStore) earlier = some state)
    (hlater : run (serviceStep server) state later = some state') {tx : StoredTransaction}
    (htx : tx ∈ state.shared.txStore) :
    (∃ tx' ∈ state'.shared.txStore, tx'.Supersedes tx) ∨
      SeenConfirmed server.dependencies.config (Told server txStore (earlier ++ later))
        tx.nonceSigner :=
  (run_advances hrun hlater).2 tx htx

/-- The worker that was added is reported confirmed, and the registration is boosted. -/
def confirmingAnswers : ∀ question, Question.Answer question
  | .transaction _ => .ok (some ⟨sampleManager, 0, some 25⟩)
  | question => quietAnswers 40 (.ok 7) question

def registeredEarlier : List ServiceEvent := registeredInTwoRounds.map .goesOn

def boostedLater : List ServiceEvent :=
  .restart :: (.start .tick :: resumed 0 20 confirmingAnswers).map .goesOn

def served (events : List ServiceEvent) : Ticking :=
  (run (serviceStep sampleServer) (launched sampleServer .empty) events).getD
    (launched sampleServer .empty)

theorem run_served (events : List ServiceEvent)
    (h : (run (serviceStep sampleServer) (launched sampleServer .empty) events).isSome = true) :
    run (serviceStep sampleServer) (launched sampleServer .empty) events = some (served events) := by
  obtain ⟨state, hstate⟩ := Option.isSome_iff_exists.mp h
  rw [served, hstate, Option.getD_some]

theorem run_registeredEarlier : run (serviceStep sampleServer) (launched sampleServer .empty)
    registeredEarlier = some (served registeredEarlier) :=
  run_served registeredEarlier (by decide +kernel)

theorem run_boostedLater : run (serviceStep sampleServer) (served registeredEarlier) boostedLater =
    some (served (registeredEarlier ++ boostedLater)) := by
  obtain ⟨state, hearlier, hlater⟩ := run_append_eq_some_iff.mp
    (run_served (registeredEarlier ++ boostedLater) (by decide +kernel))
  rw [run_registeredEarlier] at hearlier
  obtain rfl := Option.some.inj hearlier
  exact hlater

theorem recorded_until_confirmed_boostedLater :
    (served (registeredEarlier ++ boostedLater)).shared.txStore.entries.map
        (fun tx => (tx.txId, tx.attempts)) = [("1/8", 2)] ∧
      ∀ tx ∈ (served registeredEarlier).shared.txStore,
        (∃ tx' ∈ (served (registeredEarlier ++ boostedLater)).shared.txStore, tx'.Supersedes tx) ∨
          SeenConfirmed sampleServer.dependencies.config
            (Told sampleServer .empty (registeredEarlier ++ boostedLater)) tx.nonceSigner :=
  ⟨by decide +kernel, fun _ htx =>
    recorded_until_confirmed run_registeredEarlier run_boostedLater htx⟩

/-- What the server has signed and stored stands in the store, at its price or a higher one, until
it is reported confirmed. -/
theorem sent_until_confirmed
    (hrun : run (serviceStep server) (launched server txStore) earlier = some state)
    (hlater : run (serviceStep server) state later = some state') {signedTx : SignedTransaction}
    (hsent : signedTx ∈ state.shared.calls.shared.sent) :
    (∃ tx ∈ state'.shared.txStore, tx.StandsFor signedTx) ∨
      SeenConfirmed server.dependencies.config (Told server txStore (earlier ++ later))
        (some signedTx.nonce, toLowerCase signedTx.fromAddress) :=
  have ⟨hdurable, hadvances⟩ := run_advances hrun hlater
  (hdurable.sent signedTx hsent).advances hadvances

theorem sent_until_confirmed_boostedLater :
    (served registeredEarlier).shared.calls.shared.sent.map (·.nonce) = [0, 1] ∧
      ∀ signedTx ∈ (served registeredEarlier).shared.calls.shared.sent,
        (∃ tx ∈ (served (registeredEarlier ++ boostedLater)).shared.txStore,
          tx.StandsFor signedTx) ∨
          SeenConfirmed sampleServer.dependencies.config
            (Told sampleServer .empty (registeredEarlier ++ boostedLater))
            (some signedTx.nonce, toLowerCase signedTx.fromAddress) :=
  ⟨by decide +kernel, fun _ hsent =>
    sent_until_confirmed run_registeredEarlier run_boostedLater hsent⟩

end Ticks

end RifRelayServer
