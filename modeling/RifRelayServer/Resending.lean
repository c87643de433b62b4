import RifRelayServer.Boosting
import RifRelayServer.StoreContents
import Mathlib

/-!
# One boost of a transaction

The entry is rewritten with the new hash, price and attempt before the transaction is
broadcast. Whatever fails after the write leaves the entry with what was never sent: the
log of the boost, which takes no price from `Number.MAX_SAFE_INTEGER` on, or the node.
-/

namespace RifRelayServer

open Keeping

/-- The key manager of the entry's signer and its wallet accept the transaction again. -/
def ServerDependencies.signs (dependencies : ServerDependencies) (tx : StoredTransaction) : Bool :=
  (dependencies.keyManagerOf tx.fromAddress).isSigner tx.fromAddress &&
    (dependencies.walletRefuses tx.toAddress tx.data).isNone

/-- The entry has a gas price that the log of a boost takes. -/
def StoredTransaction.SafelyPriced (tx : StoredTransaction) : Prop :=
  ∃ gasPrice < maxSafeInteger, tx.gasPrice = some gasPrice

theorem safelyPriced_iff {tx : StoredTransaction} :
    tx.SafelyPriced ↔ printBoostedTransactionLog tx.gasPrice = .ok () := by
  unfold StoredTransaction.SafelyPriced printBoostedTransactionLog
  cases tx.gasPrice with
  | none => simp
  | some gasPrice =>
      rcases lt_or_ge gasPrice maxSafeInteger with hlt | hge
      · simp [hlt, hlt.not_ge]
      · simp [hge, hge.not_gt]

def ServerDependencies.resentDetails (dependencies : ServerDependencies) (tx : StoredTransaction)
    (newGasPrice : ℕ) : SignedTransactionDetails where
  txHash := dependencies.keccak256 (resigned tx newGasPrice)
  signedTx := resigned tx newGasPrice

/-- The entry once it is boosted. -/
def ServerDependencies.resentTx (dependencies : ServerDependencies) (currentBlock newGasPrice : ℕ)
    (tx : StoredTransaction) : StoredTransaction :=
  tx.withAttempt (dependencies.resentDetails tx newGasPrice).txHash (tx.txToResend newGasPrice)
    currentBlock

def TransactionManager.withSigned (manager : TransactionManager) (signed : SignedTransaction) :
    TransactionManager :=
  { manager with signed := manager.signed ++ [signed] }

def TransactionManager.withBroadcast (manager : TransactionManager) (signed : SignedTransaction) :
    TransactionManager :=
  { manager with broadcast := manager.broadcast ++ [signed] }

section Resend

variable (dependencies : ServerDependencies) (provider : Provider) (tx : StoredTransaction)
  (currentBlock newGasPrice : ℕ) (manager : TransactionManager)

/-- How `resendTransaction` ends. -/
inductive Resends :
    EStateM.Result String TransactionManager SignedTransactionDetails → Prop
  | unsigned (e : String) (hsigns : dependencies.signs tx = false) : Resends (.error e manager)
  | unstored (e : String) (hsigns : dependencies.signs tx = true)
      (hput : putTx manager.txStore (dependencies.resentTx currentBlock newGasPrice tx) true =
        .error e) :
      Resends (.error e (manager.withSigned (resigned tx newGasPrice)))
  | unlogged (e : String) (txStore : TxStore) (hsigns : dependencies.signs tx = true)
      (hput : putTx manager.txStore (dependencies.resentTx currentBlock newGasPrice tx) true =
        .ok txStore)
      (hlog : printBoostedTransactionLog tx.gasPrice = .error e) :
      Resends (.error e { manager.withSigned (resigned tx newGasPrice) with txStore })
  | uncounted (e : String) (txStore : TxStore) (hsigns : dependencies.signs tx = true)
      (hput : putTx manager.txStore (dependencies.resentTx currentBlock newGasPrice tx) true =
        .ok txStore)
      (hlog : printBoostedTransactionLog tx.gasPrice = .ok ())
      (hcount : provider.getTransactionCount tx.fromAddress = .error e) :
      Resends (.error e { manager.withSigned (resigned tx newGasPrice) with txStore })
  | refused (e : String) (count : ℕ) (txStore : TxStore) (hsigns : dependencies.signs tx = true)
      (hput : putTx manager.txStore (dependencies.resentTx currentBlock newGasPrice tx) true =
        .ok txStore)
      (hlog : printBoostedTransactionLog tx.gasPrice = .ok ())
      (hcount : provider.getTransactionCount tx.fromAddress = .ok count)
      (hsend : provider.sendTransaction (resigned tx newGasPrice) = .error e) :
      Resends (.error e { manager.withSigned (resigned tx newGasPrice) with txStore })
  | mismatched (e : String) (count : ℕ) (hash : Hash) (txStore : TxStore)
      (hsigns : dependencies.signs tx = true)
      (hput : putTx manager.txStore (dependencies.resentTx currentBlock newGasPrice tx) true =
        .ok txStore)
      (hlog : printBoostedTransactionLog tx.gasPrice = .ok ())
      (hcount : provider.getTransactionCount tx.fromAddress = .ok count)
      (hsend : provider.sendTransaction (resigned tx newGasPrice) = .ok hash) :
      Resends (.error e { (manager.withSigned (resigned tx newGasPrice)).withBroadcast
        (resigned tx newGasPrice) with txStore })
  | accepted (count : ℕ) (hash : Hash) (txStore : TxStore)
      (hsigns : dependencies.signs tx = true)
      (hput : putTx manager.txStore (dependencies.resentTx currentBlock newGasPrice tx) true =
        .ok txStore)
      (hlog : printBoostedTransactionLog tx.gasPrice = .ok ())
      (hcount : provider.getTransactionCount tx.fromAddress = .ok count)
      (hsend : provider.sendTransaction (resigned tx newGasPrice) = .ok hash) :
      Resends (.ok (dependencies.resentDetails tx newGasPrice)
        { (manager.withSigned (resigned tx newGasPrice)).withBroadcast
          (resigned tx newGasPrice) with txStore })

variable {dependencies tx newGasPrice}

theorem signatureOf_txToResend_eq_ok_iff {details : SignedTransactionDetails} :
    dependencies.signatureOf (dependencies.keyManagerOf tx.fromAddress) tx.fromAddress
        (tx.txToResend newGasPrice) = .ok details ↔
      dependencies.signs tx = true ∧ details = dependencies.resentDetails tx newGasPrice := by
  rw [ServerDependencies.signatureOf_eq_ok_iff, ServerDependencies.signs, Bool.and_eq_true,
    Option.isNone_iff_eq_none, and_assoc]
  simp only [StoredTransaction.txToResend, Option.any_none, true_and]
  rfl

theorem signatureOf_txToResend_of_signs (h : dependencies.signs tx = true) (newGasPrice : ℕ) :
    dependencies.signatureOf (dependencies.keyManagerOf tx.fromAddress) tx.fromAddress
      (tx.txToResend newGasPrice) = .ok (dependencies.resentDetails tx newGasPrice) :=
  signatureOf_txToResend_eq_ok_iff.mpr ⟨h, rfl⟩

theorem storeTx_of_error {manager : TransactionManager} {updateExisting : Bool} {e : String}
    (h : putTx manager.txStore tx updateExisting = .error e) :
    storeTx tx updateExisting manager = .error e manager := by
  simp only [storeTx, bind, EStateM.bind, get, getThe, MonadStateOf.get, EStateM.get, h]
  rfl

theorem storeTx_of_ok {manager : TransactionManager} {updateExisting : Bool} {txStore : TxStore}
    (h : putTx manager.txStore tx updateExisting = .ok txStore) :
    storeTx tx updateExisting manager = .ok () { manager with txStore } := by
  simp only [storeTx, bind, EStateM.bind, get, getThe, MonadStateOf.get, EStateM.get, h]
  rfl

theorem await_ok_bind {α β : Type} (a : α) (next : α → ManagerM β)
    (manager : TransactionManager) : (await (.ok a) >>= next) manager = next a manager := rfl

theorem broadcastTransaction_of_error {details : SignedTransactionDetails} {txId : Hash}
    {e : String} (h : provider.sendTransaction details.signedTx = .error e)
    (manager : TransactionManager) :
    broadcastTransaction provider details txId manager = .error e manager := by
  rw [broadcastTransaction, h]
  rfl

theorem broadcastTransaction_of_ok {details : SignedTransactionDetails} {txId hash : Hash}
    (h : provider.sendTransaction details.signedTx = .ok hash) (manager : TransactionManager) :
    broadcastTransaction provider details txId manager =
      if toLowerCase hash = toLowerCase txId then
        .ok details (manager.withBroadcast details.signedTx)
      else .error (txHashMismatch hash txId) (manager.withBroadcast details.signedTx) := by
  rw [broadcastTransaction, h, await_ok_bind]
  by_cases hhash : toLowerCase hash = toLowerCase txId
  · rw [if_pos hhash, if_neg (not_not.mpr hhash)]
    rfl
  · rw [if_neg hhash, if_pos hhash]
    rfl

/-- What is left of the boost of a transaction once it is signed. -/
theorem resendTransaction_of_signs (h : dependencies.signs tx = true) :
    resendTransaction dependencies provider tx currentBlock newGasPrice manager =
      (do
        storeTx (dependencies.resentTx currentBlock newGasPrice tx) true
        await (printBoostedTransactionLog tx.gasPrice)
        let _ ← await (provider.getTransactionCount tx.fromAddress)
        broadcastTransaction provider (dependencies.resentDetails tx newGasPrice)
          (dependencies.resentDetails tx newGasPrice).txHash)
        (manager.withSigned (resigned tx newGasPrice)) := by
  unfold resendTransaction signTransaction
  rw [signatureOf_txToResend_of_signs h]
  simp only [updateTransactionWithAttempt, bind_assoc, pure_bind]
  rfl

theorem resendTransaction_cases :
    Resends dependencies provider tx currentBlock newGasPrice manager
      (resendTransaction dependencies provider tx currentBlock newGasPrice manager) := by
  cases hsigns : dependencies.signs tx with
  | false =>
      unfold resendTransaction signTransaction
      cases hsignature : dependencies.signatureOf (dependencies.keyManagerOf tx.fromAddress)
          tx.fromAddress (tx.txToResend newGasPrice) with
      | ok details =>
          rw [(signatureOf_txToResend_eq_ok_iff.mp hsignature).1] at hsigns
          cases hsigns
      | error e => exact .unsigned e hsigns
  | true =>
      rw [resendTransaction_of_signs provider currentBlock manager hsigns]
      cases hput : putTx manager.txStore (dependencies.resentTx currentBlock newGasPrice tx) true with
      | error e =>
          have hstore : storeTx _ true (manager.withSigned (resigned tx newGasPrice)) = .error e _ :=
            storeTx_of_error hput
          rw [bind_of_error hstore]
          exact .unstored e hsigns hput
      | ok txStore =>
          have hstore : storeTx _ true (manager.withSigned (resigned tx newGasPrice)) = .ok () _ :=
            storeTx_of_ok hput
          rw [bind_of_ok hstore]
          cases hlog : printBoostedTransactionLog tx.gasPrice with
          | error e => exact .unlogged e txStore hsigns hput hlog
          | ok =>
              rw [await_ok_bind]
              cases hcount : provider.getTransactionCount tx.fromAddress with
              | error e => exact .uncounted e txStore hsigns hput hlog hcount
              | ok count =>
                  rw [await_ok_bind]
                  cases hsend : provider.sendTransaction (resigned tx newGasPrice) with
                  | error e =>
                      rw [broadcastTransaction_of_error provider hsend]
                      exact .refused e count txStore hsigns hput hlog hcount hsend
                  | ok hash =>
                      rw [broadcastTransaction_of_ok provider hsend]
                      split
                      · exact .accepted count hash txStore hsigns hput hlog hcount hsend
                      · exact .mismatched _ count hash txStore hsigns hput hlog hcount hsend

end Resend

section Record

variable {dependencies : ServerDependencies} {provider : Provider} {tx : StoredTransaction}
  {currentBlock newGasPrice : ℕ} {manager : TransactionManager}

theorem find?_of_putTx_resentTx {txStore : TxStore} (hmem : tx ∈ manager.txStore)
    (hput : putTx manager.txStore (dependencies.resentTx currentBlock newGasPrice tx) true =
      .ok txStore) :
    txStore.find? tx.nonceSigner = some (dependencies.resentTx currentBlock newGasPrice tx) := by
  rcases putTx_cases hput with ⟨-, hkey, -, -⟩ | ⟨-, -, hnonce, hid, rfl⟩
  · exact absurd rfl (hkey tx hmem)
  · have hkey : tx.nonceSigner =
        (dependencies.resentTx currentBlock newGasPrice tx).nonceSigner := rfl
    rw [find?_update hmem hkey, hkey, Function.update_self]

theorem resentTx_ne (tx : StoredTransaction) :
    dependencies.resentTx currentBlock newGasPrice tx ≠ tx := by
  intro h
  have hattempts : tx.attempts + 1 = tx.attempts :=
    congrArg (fun it : StoredTransaction => it.attempts) h
  omega

/-- A boost that throws before its transaction is broadcast leaves the record as it was
exactly when the record is not written, or the old price can be logged and both calls of
the node after it succeed. -/
theorem record_kept_iff (hmem : tx ∈ manager.txStore) :
    (∀ e after, resendTransaction dependencies provider tx currentBlock newGasPrice manager =
        .error e after → after.broadcast = manager.broadcast →
        after.txStore.find? tx.nonceSigner = some tx) ↔
      ¬ (dependencies.signs tx = true ∧ ∃ txStore, putTx manager.txStore
          (dependencies.resentTx currentBlock newGasPrice tx) true = .ok txStore) ∨
        tx.SafelyPriced ∧ (∃ count, provider.getTransactionCount tx.fromAddress = .ok count) ∧
          ∃ hash, provider.sendTransaction (resigned tx newGasPrice) = .ok hash := by
  have hfound : manager.txStore.find? tx.nonceSigner = some tx :=
    TxStore.find?_eq_some_iff.mpr ⟨hmem, rfl⟩
  have hrewritten : ∀ txStore, putTx manager.txStore
      (dependencies.resentTx currentBlock newGasPrice tx) true = .ok txStore →
      txStore.find? tx.nonceSigner ≠ some tx := by
    intro txStore hput hkept
    exact resentTx_ne tx (Option.some.inj ((find?_of_putTx_resentTx hmem hput).symm.trans hkept))
  have hcases := @resendTransaction_cases dependencies provider tx currentBlock newGasPrice manager
  generalize resendTransaction dependencies provider tx currentBlock newGasPrice manager = result
    at hcases
  cases hcases with
  | unsigned e hsigns =>
      refine iff_of_true ?_ (Or.inl fun h => ?_)
      · rintro _ _ ⟨⟩ -
        exact hfound
      · exact Bool.false_ne_true (hsigns.symm.trans h.1)
  | unstored e hsigns hput =>
      refine iff_of_true ?_ (Or.inl ?_)
      · rintro _ _ ⟨⟩ -
        exact hfound
      · rintro ⟨-, txStore, hstored⟩
        cases hput.symm.trans hstored
  | unlogged e txStore hsigns hput hlog =>
      apply iff_of_false (fun h => hrewritten txStore hput (h _ _ rfl rfl))
      rintro (hunwritten | ⟨hpriced, -⟩)
      · exact hunwritten ⟨hsigns, txStore, hput⟩
      · cases hlog.symm.trans (safelyPriced_iff.mp hpriced)
  | uncounted e txStore hsigns hput hlog hcount =>
      apply iff_of_false (fun h => hrewritten txStore hput (h _ _ rfl rfl))
      rintro (hunwritten | ⟨-, ⟨count, hcounted⟩, -⟩)
      · exact hunwritten ⟨hsigns, txStore, hput⟩
      · cases hcount.symm.trans hcounted
  | refused e count txStore hsigns hput hlog hcount hsend =>
      apply iff_of_false (fun h => hrewritten txStore hput (h _ _ rfl rfl))
      rintro (hunwritten | ⟨-, -, hash, hsent⟩)
      · exact hunwritten ⟨hsigns, txStore, hput⟩
      · cases hsend.symm.trans hsent
  | mismatched e count hash txStore hsigns hput hlog hcount hsend =>
      refine iff_of_true ?_ (Or.inr ⟨safelyPriced_iff.mpr hlog, ⟨count, hcount⟩, hash, hsend⟩)
      rintro _ _ ⟨⟩ hbroadcast
      exact absurd hbroadcast (by simp [TransactionManager.withBroadcast,
        TransactionManager.withSigned])
  | accepted count hash txStore hsigns hput hlog hcount hsend =>
      refine iff_of_true ?_ (Or.inr ⟨safelyPriced_iff.mpr hlog, ⟨count, hcount⟩, hash, hsend⟩)
      rintro _ _ ⟨⟩

end Record

/-- What the store has of the refill. -/
def sampleRefillTx : StoredTransaction where
  txId := "0/10"
  fromAddress := sampleManager
  attempts := 1
  serverAction := .valueTransfer
  creationBlockNumber := 100
  toAddress := some sampleWorker
  gasLimit := some 21000
  gasPrice := some 10
  data := none
  nonce := some 0

/-- A node that does not take the replacement. -/
def sampleRefusingProvider : Provider :=
  { sampleProvider with sendTransaction _ := .error "replacement transaction underpriced" }

theorem mem_sampleRefilled : sampleRefillTx ∈ sampleRefilled.txStore :=
  List.mem_singleton_self sampleRefillTx

theorem refill_record_kept_iff :
    (∀ e after, resendTransaction sampleDependencies sampleRefusingProvider sampleRefillTx 110 11
        sampleRefilled = .error e after → after.broadcast = sampleRefilled.broadcast →
        after.txStore.find? sampleRefillTx.nonceSigner = some sampleRefillTx) ↔
      ¬ (sampleDependencies.signs sampleRefillTx = true ∧ ∃ txStore,
          putTx sampleRefilled.txStore (sampleDependencies.resentTx 110 11 sampleRefillTx) true =
            .ok txStore) ∨
        sampleRefillTx.SafelyPriced ∧
          (∃ count, sampleRefusingProvider.getTransactionCount sampleManager = .ok count) ∧
          ∃ hash, sampleRefusingProvider.sendTransaction (resigned sampleRefillTx 11) = .ok hash :=
  record_kept_iff mem_sampleRefilled

theorem refused_boost_rewrites_record :
    ¬ ∀ (dependencies : ServerDependencies) (provider : Provider) (tx : StoredTransaction)
      (currentBlock newGasPrice : ℕ) (manager after : TransactionManager) (e : String),
      tx ∈ manager.txStore →
      resendTransaction dependencies provider tx currentBlock newGasPrice manager =
        .error e after →
      provider.sendTransaction (resigned tx newGasPrice) = .error e →
      after.txStore.find? tx.nonceSigner = some tx := by
  intro h
  have hkept := h sampleDependencies sampleRefusingProvider sampleRefillTx 110 11 sampleRefilled
    (final (resendTransaction sampleDependencies sampleRefusingProvider sampleRefillTx 110 11)
      sampleRefilled) "replacement transaction underpriced" mem_sampleRefilled rfl rfl
  exact absurd hkept (by decide +kernel)

end RifRelayServer
