import RifRelayServer.Resending
import Mathlib

/-!
# A boost of what is underpriced

The oldest entry of a signer sets the price. What is priced below it is re-sent in the
order of the nonces while the store is rewritten: each key is written once, from the
entry that was under it when the loop began.
-/

namespace RifRelayServer

open Keeping

/-- The round-half-up multiple of a price, under the cap. -/
def BlockchainConfig.boostPrice (config : BlockchainConfig) (oldGasPrice : Option ℕ) : ℕ :=
  min (HalfUp.toInt (config.retryGasPriceFactor * (oldGasPrice.getD 0 : ℕ))).toNat
    config.maxGasPrice

theorem resolveNewGasPrice_fst (config : BlockchainConfig) (oldGasPrice : Option ℕ) :
    (resolveNewGasPrice config oldGasPrice).1 = config.boostPrice oldGasPrice := by
  unfold resolveNewGasPrice BlockchainConfig.boostPrice
  dsimp only
  split
  next h => exact (min_eq_right h.le).symm
  next h => exact (min_eq_left (not_lt.mp h)).symm

/-- Mined by the count of the account, or sent too few blocks ago. -/
def StillAwaited (config : BlockchainConfig) (oldest : StoredTransaction)
    (accountNonce currentBlockHeight : ℕ) : Prop :=
  (∃ nonce, oldest.nonce = some nonce ∧ nonce ≠ 0 ∧ nonce < accountNonce) ∨
    (currentBlockHeight : ℤ) -
      (oldest.boostBlockNumber.getD oldest.creationBlockNumber : ℕ) <
        config.pendingTransactionTimeoutBlocks

theorem isAwaited_iff {config : BlockchainConfig} {oldest : StoredTransaction}
    {accountNonce currentBlockHeight : ℕ} :
    isAwaited config oldest accountNonce currentBlockHeight = true ↔
      StillAwaited config oldest accountNonce currentBlockHeight := by
  unfold isAwaited StillAwaited
  rw [Bool.or_eq_true, decide_eq_true_iff, Option.any_eq_true]
  simp

def underpricedTransactions (store : TxStore) (signer : Address) (newGasPrice : ℕ) :
    List StoredTransaction :=
  (getAllBySigner store signer).filter fun it => it.gasPrice.any (· < newGasPrice)

section Order

variable {store : TxStore} {signer : Address} {newGasPrice : ℕ} {tx : StoredTransaction}

theorem nodup_getAllBySigner (store : TxStore) (signer : Address) :
    (getAllBySigner store signer).Nodup :=
  (contents_listedBy_getAllBySigner store signer).nodup

/-- Two entries of one signer have two nonces. -/
theorem getAllBySigner_strictly_ascending (store : TxStore) (signer : Address) :
    (getAllBySigner store signer).Pairwise fun tx1 tx2 =>
      tx1.nonce.getD 0 < tx2.nonce.getD 0 := by
  have hle := (contents_listedBy_getAllBySigner store signer).ascending
  apply (hle.and (nodup_getAllBySigner store signer)).imp_of_mem
  rintro tx1 tx2 h1 h2 ⟨hle, hne⟩
  obtain ⟨h1, hsigner1⟩ := mem_getAllBySigner.mp h1
  obtain ⟨h2, hsigner2⟩ := mem_getAllBySigner.mp h2
  obtain ⟨nonce1, hnonce1⟩ := Option.ne_none_iff_exists'.mp (store.nonce_ne_none tx1 h1)
  obtain ⟨nonce2, hnonce2⟩ := Option.ne_none_iff_exists'.mp (store.nonce_ne_none tx2 h2)
  refine lt_of_le_of_ne hle fun heq => hne (TxStore.eq_of_nonceSigner h1 h2 ?_)
  rw [hnonce1, hnonce2, Option.getD_some, Option.getD_some] at heq
  rw [StoredTransaction.nonceSigner, StoredTransaction.nonceSigner, hnonce1, hnonce2, heq,
    hsigner1, hsigner2]

theorem underpricedTransactions_strictly_ascending (store : TxStore) (signer : Address)
    (newGasPrice : ℕ) :
    (underpricedTransactions store signer newGasPrice).Pairwise fun tx1 tx2 =>
      tx1.nonce.getD 0 < tx2.nonce.getD 0 :=
  (getAllBySigner_strictly_ascending store signer).sublist List.filter_sublist

end Order

section Loop

variable {dependencies : ServerDependencies} {provider : Provider} {currentBlock newGasPrice : ℕ}

/-- The entry after a loop over `txs`. -/
def ServerDependencies.replaceIn (dependencies : ServerDependencies) (currentBlock newGasPrice : ℕ)
    (txs : List StoredTransaction) (it : StoredTransaction) : StoredTransaction :=
  if it ∈ txs then dependencies.resentTx currentBlock newGasPrice it else it

theorem replaceIn_replaceIn {store : TxStore} {tx it : StoredTransaction}
    {txs : List StoredTransaction} (hnodup : (tx :: txs).Nodup)
    (hmem : ∀ other ∈ tx :: txs, other ∈ store) (hit : it ∈ store) :
    dependencies.replaceIn currentBlock newGasPrice txs
        (dependencies.replaceIn currentBlock newGasPrice [tx] it) =
      dependencies.replaceIn currentBlock newGasPrice (tx :: txs) it := by
  obtain ⟨hfresh, -⟩ := List.nodup_cons.mp hnodup
  unfold ServerDependencies.replaceIn
  rcases eq_or_ne it tx with rfl | hne
  · have hgone : dependencies.resentTx currentBlock newGasPrice it ∉ txs := by
      intro h
      have heq := TxStore.eq_of_nonceSigner (hmem _ (List.mem_cons_of_mem _ h)) hit rfl
      rw [heq] at h
      exact hfresh h
    rw [if_pos (List.mem_singleton_self it), if_pos List.mem_cons_self, if_neg hgone]
  · rw [if_neg fun h => hne (List.mem_singleton.mp h)]
    simp only [List.mem_cons, hne, false_or]

end Loop

section Boost

variable {dependencies : ServerDependencies} {provider : Provider} {signer : Address}
  {currentBlockHeight accountNonce : ℕ} {before : TransactionManager}
  {oldest : StoredTransaction}

theorem boost_of_empty (hempty : getAllBySigner before.txStore signer = []) :
    boostUnderpricedPendingTransactionsForSigner dependencies provider signer currentBlockHeight
      before = .ok [] before := by
  simp only [boostUnderpricedPendingTransactionsForSigner, bind, EStateM.bind, get, getThe,
    MonadStateOf.get, EStateM.get, hempty]
  rfl

/-- A boost when the signer has an entry, once the node has answered. -/
theorem boost_of_oldest (holdest : (getAllBySigner before.txStore signer).head? = some oldest)
    (hcount : provider.getTransactionCount signer = .ok accountNonce) :
    boostUnderpricedPendingTransactionsForSigner dependencies provider signer currentBlockHeight
        before =
      if isAwaited dependencies.config oldest accountNonce currentBlockHeight then .ok [] before
      else
        resendTransactions dependencies provider currentBlockHeight
          (dependencies.config.boostPrice oldest.gasPrice)
          (underpricedTransactions before.txStore signer
            (dependencies.config.boostPrice oldest.gasPrice)) before := by
  obtain ⟨others, hsorted⟩ := List.head?_eq_some_iff.mp holdest
  rw [underpricedTransactions, ← resolveNewGasPrice_fst]
  simp only [boostUnderpricedPendingTransactionsForSigner, bind, EStateM.bind, get, getThe,
    MonadStateOf.get, EStateM.get, hsorted, hcount, await, pure, EStateM.pure]
  split <;> rfl

end Boost

end RifRelayServer
