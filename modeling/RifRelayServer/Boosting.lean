import RifRelayServer.TransactionManager
import Mathlib

/-!
# What is kept of a transaction that is boosted

A stored transaction has no value, so a boost signs one without it. Everything
else that was signed first is signed again, for any number of boosts and
whatever else the manager does in between.
-/

namespace RifRelayServer

open Std.Do Keeping

set_option mvcgen.warning false

section Loops

variable {dependencies : ServerDependencies} {provider : Provider} {I : TransactionManager → Prop}

/-- The loop over the transactions to boost keeps what each boost keeps. -/
theorem keeps_resendTransactions {currentBlock newGasPrice : ℕ} (txs : List StoredTransaction)
    (h : ∀ tx ∈ txs, Keeps I (resendTransaction dependencies provider tx currentBlock newGasPrice)) :
    Keeps I (resendTransactions dependencies provider currentBlock newGasPrice txs) := by
  induction txs with
  | nil => mvcgen [resendTransactions]
  | cons tx txs ih =>
      have hresend := h tx List.mem_cons_self
      have hothers := ih fun tx htx => h tx (List.mem_cons_of_mem _ htx)
      mvcgen [resendTransactions, hresend, hothers]

/-- The loop over the transactions to recheck keeps what each recheck keeps. -/
theorem keeps_recheckTransactions {blockNumber : ℕ} (txs : List StoredTransaction)
    (h : ∀ tx ∈ txs, Keeps I (recheckTransaction dependencies provider blockNumber tx)) :
    Keeps I (recheckTransactions dependencies provider blockNumber txs) := by
  induction txs with
  | nil => mvcgen [recheckTransactions]
  | cons tx txs ih =>
      have hrecheck := h tx List.mem_cons_self
      have hothers := ih fun tx htx => h tx (List.mem_cons_of_mem _ htx)
      mvcgen [recheckTransactions, hrecheck, hothers]

/-- A call of the manager keeps what its methods keep. -/
theorem keeps_call (call : ManagerCall)
    (hsend : ∀ provider details, Keeps I (sendTransaction dependencies provider details))
    (hpoll : ∀ provider signer, Keeps I (pollNonce provider signer))
    (hresend : ∀ provider signer nonce currentBlock newGasPrice,
      Keeps I (resendStoredTransaction dependencies provider signer nonce currentBlock newGasPrice))
    (hboost : ∀ provider signer currentBlockHeight,
      Keeps I (boostUnderpricedPendingTransactionsForSigner dependencies provider signer
        currentBlockHeight))
    (hremove : ∀ provider blockNumber,
      Keeps I (removeConfirmedTransactions dependencies provider blockNumber)) :
    Keeps I (call.program dependencies) := by
  cases call with
  | sendTransaction provider details => exact (hsend provider details).ignore
  | pollNonce provider signer => exact (hpoll provider signer).ignore
  | resendTransaction provider signer nonce currentBlock newGasPrice =>
      exact hresend provider signer nonce currentBlock newGasPrice
  | boostUnderpricedPendingTransactionsForSigner provider signer currentBlockHeight =>
      exact (hboost provider signer currentBlockHeight).ignore
  | removeConfirmedTransactions provider blockNumber => exact hremove provider blockNumber

end Loops

/-- The record keeps what `signed` was signed with, but for its prices and its value. -/
structure Records (signed : SignedTransaction) (tx : StoredTransaction) : Prop where
  toAddress : tx.toAddress = signed.toAddress
  data : tx.data.getD "0x" = signed.data
  gasLimit : tx.gasLimit.getD 0 = signed.gasLimit

def RecordsIfSame (signed : SignedTransaction) (tx : StoredTransaction) : Prop :=
  tx.fromAddress = signed.fromAddress → tx.nonce = some signed.nonce → Records signed tx

def SameButGasPrice (signed again : SignedTransaction) : Prop :=
  { again with gasPrice := signed.gasPrice } = signed

/-- What holds from the moment `signed` has been sent, at which `count`
transactions had been signed. -/
structure Boosted (signed : SignedTransaction) (count : ℕ) (manager : TransactionManager) :
    Prop where
  nonce_lt : signed.nonce < manager.nonces signed.fromAddress
  records : ∀ tx ∈ manager.txStore, RecordsIfSame signed tx
  same : ∀ again ∈ manager.signed.drop count, again.fromAddress = signed.fromAddress →
    again.nonce = signed.nonce → SameButGasPrice signed again

namespace Boosted

variable {signed : SignedTransaction} {count : ℕ} {manager : TransactionManager}

theorem sign (h : Boosted signed count manager) {again : SignedTransaction}
    (hsame : again.fromAddress = signed.fromAddress → again.nonce = signed.nonce →
      SameButGasPrice signed again) :
    Boosted signed count { manager with signed := manager.signed ++ [again] } where
  nonce_lt := h.nonce_lt
  records := h.records
  same := by
    intro t ht
    rw [List.drop_append] at ht
    rcases List.mem_append.mp ht with hold | hnew
    · exact h.same t hold
    · rw [List.mem_singleton.mp (List.mem_of_mem_drop hnew)]
      exact hsame

theorem put (h : Boosted signed count manager) {tx : StoredTransaction}
    (htx : RecordsIfSame signed tx) {updateExisting : Bool} {txStore : TxStore}
    (hput : putTx manager.txStore tx updateExisting = .ok txStore) :
    Boosted signed count { manager with txStore } where
  nonce_lt := h.nonce_lt
  records := by
    intro it hit
    rcases (mem_of_putTx hput it).mp hit with ⟨hold, -⟩ | rfl
    · exact h.records it hold
    · exact htx
  same := h.same

theorem remove (h : Boosted signed count manager) (signer : Address) (nonce : ℕ) :
    Boosted signed count
      { manager with txStore := removeTxsUntilNonce manager.txStore signer nonce } where
  nonce_lt := h.nonce_lt
  records := fun it hit => h.records it (mem_removeTxsUntilNonce.mp hit).1
  same := h.same

theorem raise (h : Boosted signed count manager) {nonces : Address → ℕ}
    (hle : manager.nonces signed.fromAddress ≤ nonces signed.fromAddress) :
    Boosted signed count { manager with nonces } where
  nonce_lt := h.nonce_lt.trans_le hle
  records := h.records
  same := h.same

theorem send (h : Boosted signed count manager) (broadcast : List SignedTransaction) :
    Boosted signed count { manager with broadcast } :=
  ⟨h.nonce_lt, h.records, h.same⟩

end Boosted

theorem resolveNonce_le (nonces : Address → ℕ) (signer other : Address) (pending : ℕ) :
    nonces other ≤ (resolveNonce nonces signer pending).2 other := by
  unfold resolveNonce
  split
  · exact le_rfl
  next h =>
    rcases eq_or_ne other signer with rfl | hne
    · simpa using h
    · simp [hne]

theorem resolveNonce_fst (nonces : Address → ℕ) (signer : Address) (pending : ℕ) :
    (resolveNonce nonces signer pending).1 = (resolveNonce nonces signer pending).2 signer := by
  unfold resolveNonce
  split
  · rfl
  · simp

section Keeps

variable {dependencies : ServerDependencies} {provider : Provider} {signed : SignedTransaction}
  {count : ℕ}

theorem storeTx_keeps {tx : StoredTransaction} {updateExisting : Bool}
    (htx : RecordsIfSame signed tx) :
    Keeps (Boosted signed count) (storeTx tx updateExisting) := by
  mvcgen [storeTx, await]
  next hput => exact Boosted.put ‹_› htx hput

theorem broadcastTransaction_keeps {details : SignedTransactionDetails} {txId : Hash} :
    Keeps (Boosted signed count) (broadcastTransaction provider details txId) := by
  mvcgen [broadcastTransaction, await]
  · exact Boosted.send ‹_› _
  · exact Boosted.send ‹_› _

theorem signTransaction_keeps {keyManager : KeyManager} {address : Address}
    {utx : PopulatedTransaction}
    (hsame : address = signed.fromAddress → utx.nonce.getD 0 = signed.nonce →
      SameButGasPrice signed (SignedTransaction.ofPopulated address utx)) :
    Keeps (Boosted signed count) (signTransaction dependencies keyManager address utx) := by
  mvcgen [signTransaction, await]
  next h _ hsignature _ =>
    obtain ⟨-, -, -, rfl⟩ := ServerDependencies.signatureOf_eq_ok_iff.mp hsignature
    exact h.sign hsame

theorem pollNonce_keeps {signer : Address} :
    ⦃fun manager => ⌜Boosted signed count manager⌝⦄ pollNonce provider signer
    ⦃post⟨fun nonce manager => ⌜Boosted signed count manager ∧ nonce = manager.nonces signer⌝,
      fun _ manager => ⌜Boosted signed count manager⌝⟩⦄ := by
  mvcgen [pollNonce, await]
  exact ⟨Boosted.raise ‹_› (resolveNonce_le _ _ _ _), resolveNonce_fst _ _ _⟩

theorem RecordsIfSame.copy {tx copy : StoredTransaction} (htx : RecordsIfSame signed tx)
    (hfrom : copy.fromAddress = tx.fromAddress) (hnonce : copy.nonce = tx.nonce)
    (hto : copy.toAddress = tx.toAddress) (hdata : copy.data = tx.data)
    (hgas : copy.gasLimit = tx.gasLimit) : RecordsIfSame signed copy := by
  intro hsigner hsame
  have h := htx (hfrom.symm.trans hsigner) (hnonce.symm.trans hsame)
  exact ⟨hto.trans h.toAddress, hdata ▸ h.data, hgas ▸ h.gasLimit⟩

theorem sameButGasPrice_resent {tx : StoredTransaction} (hvalue : signed.value = 0)
    (htx : RecordsIfSame signed tx) (hnonce : tx.nonce ≠ none) (gasPrice : ℕ)
    (hsigner : tx.fromAddress = signed.fromAddress) (hsame : tx.nonce.getD 0 = signed.nonce) :
    SameButGasPrice signed (SignedTransaction.ofPopulated tx.fromAddress
      ⟨tx.toAddress, tx.data, none, tx.gasLimit, some gasPrice, tx.nonce⟩) := by
  obtain ⟨nonce, hsome⟩ := Option.ne_none_iff_exists'.mp hnonce
  rw [hsome, Option.getD_some] at hsame
  have h := htx hsigner (by rw [hsome, hsame])
  simp only [SameButGasPrice, SignedTransaction.ofPopulated, hsigner, h.toAddress, h.data,
    h.gasLimit, hsome, hsame, Option.getD_some, Option.getD_none, Int.toNat_zero]
  rw [← hvalue]

theorem resendTransaction_keeps {tx : StoredTransaction} {currentBlock newGasPrice : ℕ}
    (hvalue : signed.value = 0) (htx : RecordsIfSame signed tx) (hnonce : tx.nonce ≠ none) :
    Keeps (Boosted signed count)
      (resendTransaction dependencies provider tx currentBlock newGasPrice) := by
  mvcgen [resendTransaction, updateTransactionWithAttempt, await, signTransaction_keeps,
    storeTx_keeps, broadcastTransaction_keeps]
  · exact sameButGasPrice_resent hvalue htx hnonce newGasPrice
  · exact htx.copy rfl rfl rfl rfl rfl

theorem resendTransactions_keeps {currentBlock newGasPrice : ℕ} (hvalue : signed.value = 0)
    (txs : List StoredTransaction) (htxs : ∀ tx ∈ txs, RecordsIfSame signed tx ∧ tx.nonce ≠ none) :
    Keeps (Boosted signed count)
      (resendTransactions dependencies provider currentBlock newGasPrice txs) := by
  apply keeps_resendTransactions txs
  intro tx htx
  exact resendTransaction_keeps hvalue (htxs tx htx).1 (htxs tx htx).2

theorem boost_keeps {signer : Address} {currentBlockHeight : ℕ} (hvalue : signed.value = 0) :
    Keeps (Boosted signed count)
      (boostUnderpricedPendingTransactionsForSigner dependencies provider signer
        currentBlockHeight) := by
  have hloop : ∀ newGasPrice txs, (∀ tx ∈ txs, RecordsIfSame signed tx ∧ tx.nonce ≠ none) →
      Keeps (Boosted signed count)
        (resendTransactions dependencies provider currentBlockHeight newGasPrice txs) :=
    fun newGasPrice => resendTransactions_keeps hvalue
  mvcgen [boostUnderpricedPendingTransactionsForSigner, await, hloop]
  next manager h _ oldest others heq _ _ _ _ =>
    intro tx htx
    have hmem := (mem_getAllBySigner.mp (heq ▸ List.mem_of_mem_filter htx)).1
    exact ⟨h.records tx hmem, manager.txStore.nonce_ne_none tx hmem⟩

theorem recheckTransaction_keeps {blockNumber : ℕ} {tx : StoredTransaction}
    (htx : RecordsIfSame signed tx) :
    Keeps (Boosted signed count)
      (recheckTransaction dependencies provider blockNumber tx) := by
  mvcgen [recheckTransaction, updateTransactionWithMinedBlock, await, storeTx_keeps]
  · exact htx.copy rfl rfl rfl rfl rfl
  · exact Boosted.remove ‹_› _ _

theorem recheckTransactions_keeps {blockNumber : ℕ} (txs : List StoredTransaction)
    (htxs : ∀ tx ∈ txs, RecordsIfSame signed tx) :
    Keeps (Boosted signed count)
      (recheckTransactions dependencies provider blockNumber txs) :=
  keeps_recheckTransactions txs fun tx htx => recheckTransaction_keeps (htxs tx htx)

theorem removeConfirmedTransactions_keeps {blockNumber : ℕ} :
    Keeps (Boosted signed count)
      (removeConfirmedTransactions dependencies provider blockNumber) := by
  mvcgen [removeConfirmedTransactions, recheckTransactions_keeps]
  next h =>
    intro tx htx
    exact h.records tx (mem_getAll.mp htx)

theorem Boosted.nonce_ne {manager : TransactionManager} (h : Boosted signed count manager)
    {signer : Address} {nonce : ℕ} (hpolled : nonce = manager.nonces signer)
    (hsigner : signer = signed.fromAddress) : nonce ≠ signed.nonce := by
  rw [hpolled, hsigner]
  exact h.nonce_lt.ne'

theorem sendTransaction_keeps {details : SendTransactionDetails} :
    Keeps (Boosted signed count) (sendTransaction dependencies provider details) := by
  mvcgen [sendTransaction, await, pollNonce_keeps, signTransaction_keeps, storeTx_keeps,
    broadcastTransaction_keeps]
  next h =>
    intro hsigner hsame
    exact absurd hsame (h.1.nonce_ne h.2 hsigner)
  next h => exact h.1
  next hpolled _ _ _ _ _ =>
    intro hsigner hsame
    exact absurd (Option.some.inj hsame) (hpolled.1.nonce_ne hpolled.2 hsigner)
  next manager h _ =>
    apply h.raise
    rcases eq_or_ne signed.fromAddress details.signer with heq | hne
    · simp [heq]
    · simp [hne]

theorem resendStoredTransaction_keeps {signer : Address} {nonce currentBlock newGasPrice : ℕ}
    (hvalue : signed.value = 0) :
    Keeps (Boosted signed count)
      (resendStoredTransaction dependencies provider signer nonce currentBlock newGasPrice) := by
  have hresend : ∀ tx, RecordsIfSame signed tx ∧ tx.nonce ≠ none →
      Keeps (Boosted signed count)
        (resendTransaction dependencies provider tx currentBlock newGasPrice) :=
    fun tx h => resendTransaction_keeps hvalue h.1 h.2
  mvcgen [resendStoredTransaction, hresend]
  next manager h tx hfind =>
    have hmem := (TxStore.find?_eq_some_iff.mp hfind).1
    exact ⟨h.records tx hmem, manager.txStore.nonce_ne_none tx hmem⟩

theorem pollNonce_keeps' {signer : Address} :
    Keeps (Boosted signed count) (pollNonce provider signer) := by
  mvcgen [pollNonce, await]
  exact Boosted.raise ‹_› (resolveNonce_le _ _ _ _)

end Keeps

/-- Once a transaction without a value has been sent, every call keeps what it was. -/
theorem call_keeps {dependencies : ServerDependencies} {signed : SignedTransaction} {count : ℕ}
    (hvalue : signed.value = 0) (call : ManagerCall) :
    Keeps (Boosted signed count) (call.program dependencies) :=
  keeps_call call (fun _ _ => sendTransaction_keeps) (fun _ _ => pollNonce_keeps')
    (fun _ _ _ _ _ => resendStoredTransaction_keeps hvalue) (fun _ _ _ => boost_keeps hvalue)
    fun _ _ => removeConfirmedTransactions_keeps

structure SentAs (dependencies : ServerDependencies) (details : SendTransactionDetails)
    (signed : SignedTransaction) (manager : TransactionManager) : Prop where
  signer : signed.fromAddress = details.signer
  value : signed.value = details.value.getD 0
  isSigner : (dependencies.keyManagerOf details.signer).isSigner details.signer = true
  accepted : dependencies.walletRefuses (some details.destination) details.method = none
  nonce_lt : signed.nonce < manager.nonces details.signer
  stored : ∃ tx ∈ manager.txStore, tx.fromAddress = details.signer ∧
    tx.nonce = some signed.nonce ∧ tx.toAddress = some details.destination ∧
    tx.data = details.method ∧ Records signed tx

theorem sendTransaction_sentAs (dependencies : ServerDependencies) (provider : Provider)
    (details : SendTransactionDetails) :
    ⦃fun _ => ⌜True⌝⦄ sendTransaction dependencies provider details
    ⦃post⟨fun result manager => ⌜SentAs dependencies details result.signedTx manager⌝,
      fun _ _ => ⌜True⌝⟩⦄ := by
  mvcgen [sendTransaction, await, pollNonce, signTransaction, storeTx, broadcastTransaction]
  next txToSign _ hsignature _ storedTx _ _ hput _ _ _ _ _ =>
    obtain ⟨hmanaged, hvalue, haccepted, rfl⟩ :=
      ServerDependencies.signatureOf_eq_ok_iff.mp hsignature
    have hnonneg : 0 ≤ details.value.getD 0 := by
      simpa [txToSign, SendTransactionDetails.txToSign] using hvalue
    refine ⟨rfl, Int.toNat_of_nonneg hnonneg, hmanaged, haccepted, ?_, ?_⟩
    · exact ((resolveNonce_fst _ _ _).trans_lt (Nat.lt_succ_self _)).trans_eq
        (Function.update_self (β := fun _ => ℕ) _ _ _).symm
    · exact ⟨storedTx, (mem_of_putTx hput storedTx).mpr (Or.inr rfl), rfl, rfl, rfl, rfl,
        ⟨rfl, rfl, rfl⟩⟩

def SignedTransaction.nonceSigner (signed : SignedTransaction) : NonceSigner :=
  (some signed.nonce, toLowerCase signed.fromAddress)

theorem SentAs.boosted {dependencies : ServerDependencies} {details : SendTransactionDetails}
    {signed : SignedTransaction} {manager : TransactionManager}
    (h : SentAs dependencies details signed manager) :
    Boosted signed manager.signed.length manager where
  nonce_lt := by
    rw [h.signer]
    exact h.nonce_lt
  records := by
    obtain ⟨tx, htx, hfrom, hnonce, -, -, hrecords⟩ := h.stored
    intro it hit hsigner hsame
    have hkey : it.nonceSigner = tx.nonceSigner := by
      rw [StoredTransaction.nonceSigner, StoredTransaction.nonceSigner, hsame, hnonce, hsigner,
        hfrom, h.signer]
    rwa [TxStore.eq_of_nonceSigner hit htx hkey]
  same := by simp

section Signs

variable {dependencies : ServerDependencies} {history : List SignedTransaction}

theorem signTransaction_signs {keyManager : KeyManager} {address : Address}
    {utx : PopulatedTransaction} (hmanaged : keyManager.isSigner address = true)
    (hvalue : utx.value.any (· < 0) = false)
    (haccepted : dependencies.walletRefuses utx.toAddress utx.data = none) :
    ⦃fun manager => ⌜manager.signed = history⌝⦄
    signTransaction dependencies keyManager address utx
    ⦃post⟨fun _ manager => ⌜manager.signed = history ++ [SignedTransaction.ofPopulated address utx]⌝,
      fun _ _ => ⌜False⌝⟩⦄ := by
  have hsignature := ServerDependencies.signatureOf_eq_ok_iff.mpr ⟨hmanaged, hvalue, haccepted, rfl⟩
  mvcgen [signTransaction, await]
  next h _ hanswer _ =>
    obtain rfl := Except.ok.inj (hanswer.symm.trans hsignature)
    exact congrArg (· ++ [_]) h
  next hanswer => exact nomatch hanswer.symm.trans hsignature

theorem storeTx_signed {tx : StoredTransaction} {updateExisting : Bool} :
    Keeps (fun manager => manager.signed = history) (storeTx tx updateExisting) := by
  mvcgen [storeTx, await]

theorem broadcastTransaction_signed {provider : Provider} {details : SignedTransactionDetails}
    {txId : Hash} :
    Keeps (fun manager => manager.signed = history)
      (broadcastTransaction provider details txId) := by
  mvcgen [broadcastTransaction, await]

/-- What a boost of `tx` signs: the record, and no value. -/
def resigned (tx : StoredTransaction) (newGasPrice : ℕ) : SignedTransaction :=
  .ofPopulated tx.fromAddress
    ⟨tx.toAddress, tx.data, none, tx.gasLimit, some newGasPrice, tx.nonce⟩

theorem resendTransaction_signs {provider : Provider} {tx : StoredTransaction}
    {currentBlock newGasPrice : ℕ}
    (hmanaged : (dependencies.keyManagerOf tx.fromAddress).isSigner tx.fromAddress = true)
    (haccepted : dependencies.walletRefuses tx.toAddress tx.data = none) :
    ⦃fun manager => ⌜manager.signed = history⌝⦄
    resendTransaction dependencies provider tx currentBlock newGasPrice
    ⦃post⟨fun _ manager => ⌜manager.signed = history ++ [resigned tx newGasPrice]⌝,
      fun _ manager => ⌜manager.signed = history ++ [resigned tx newGasPrice]⌝⟩⦄ := by
  have hsign := fun utx (hvalue : utx.value.any (· < 0) = false)
      (h : dependencies.walletRefuses utx.toAddress utx.data = none) =>
    @signTransaction_signs dependencies history _ _ utx hmanaged hvalue h
  mvcgen [resendTransaction, updateTransactionWithAttempt, await, hsign, storeTx_signed,
    broadcastTransaction_signed]
  next h _ _ _ hstored _ _ _ _ => exact hstored.trans h
  next h _ _ _ hstored _ _ _ _ => exact hstored.trans h
  next h _ _ _ hstored _ _ => exact hstored.trans h
  next h _ _ _ => exact fun hstored => hstored.trans h

theorem resendStoredTransaction_signs {provider : Provider} {signer : Address}
    {nonce currentBlock newGasPrice : ℕ} {manager : TransactionManager} {tx : StoredTransaction}
    (hfind : manager.txStore.find? (some nonce, toLowerCase signer) = some tx)
    (hmanaged : (dependencies.keyManagerOf tx.fromAddress).isSigner tx.fromAddress = true)
    (haccepted : dependencies.walletRefuses tx.toAddress tx.data = none) :
    (final (resendStoredTransaction dependencies provider signer nonce currentBlock newGasPrice)
      manager).signed = manager.signed ++ [resigned tx newGasPrice] := by
  have hresend := @resendTransaction_signs dependencies manager.signed provider tx currentBlock
    newGasPrice hmanaged haccepted
  have hrun : resendStoredTransaction dependencies provider signer nonce currentBlock newGasPrice
      manager = ignore (resendTransaction dependencies provider tx currentBlock newGasPrice)
        manager := by
    simp only [resendStoredTransaction, bind, EStateM.bind, get, getThe, MonadStateOf.get,
      EStateM.get, hfind]
    rfl
  have hfinal := final_ignore (resendTransaction dependencies provider tx currentBlock newGasPrice)
    manager
  rw [final, ← hrun] at hfinal
  rw [final, hfinal]
  exact final_post hresend rfl

end Signs

/-- After a successful send, everything that is signed again for its nonce is
what was signed, but for the gas price, exactly when nothing was sent with it. -/
theorem boosts_keep_transaction_iff {dependencies : ServerDependencies} {provider : Provider}
    {details : SendTransactionDetails} {before after : TransactionManager}
    {result : SignedTransactionDetails}
    (hsend : sendTransaction dependencies provider details before = .ok result after) :
    (∀ calls : List ManagerCall,
        ∀ again ∈ (runCalls dependencies calls after).signed.drop after.signed.length,
          again.fromAddress = result.signedTx.fromAddress →
          again.nonce = result.signedTx.nonce → SameButGasPrice result.signedTx again) ↔
      details.value.getD 0 = 0 := by
  have hsent : SentAs dependencies details result.signedTx after :=
    post_of_ok (sendTransaction_sentAs dependencies provider details) trivial hsend
  constructor
  · intro hsame
    obtain ⟨tx, htx, hfrom, hnonce, hto, hdata, -⟩ := hsent.stored
    have hfind : after.txStore.find? (some result.signedTx.nonce, toLowerCase details.signer) =
        some tx := by
      rw [TxStore.find?_eq_some_iff]
      exact ⟨htx, by rw [StoredTransaction.nonceSigner, hnonce, hfrom]⟩
    have hsigned := @resendStoredTransaction_signs dependencies provider details.signer
      result.signedTx.nonce 0 0 after tx hfind (by rw [hfrom]; exact hsent.isSigner)
      (by rw [hto, hdata]; exact hsent.accepted)
    have hagain := hsame
      [.resendTransaction provider details.signer result.signedTx.nonce 0 0] (resigned tx 0) (by
        show _ ∈ (final (resendStoredTransaction _ _ _ _ _ _) after).signed.drop _
        simp [hsigned])
      (hfrom.trans hsent.signer.symm) (by simp [resigned, SignedTransaction.ofPopulated, hnonce])
    have hvalue : result.signedTx.value = 0 := (congrArg SignedTransaction.value hagain).symm
    rw [← hsent.value, hvalue, Nat.cast_zero]
  · intro hvalue calls
    have hboosted := hsent.boosted
    have hkeeps : Boosted result.signedTx after.signed.length (runCalls dependencies calls after) := by
      refine keeps_finalAll ?_ hboosted
      intro program hprogram
      obtain ⟨call, -, rfl⟩ := List.mem_map.mp hprogram
      exact call_keeps (Nat.cast_eq_zero.mp (hsent.value.trans hvalue)) call
    exact hkeeps.same

def sampleManager : Address := "0x04A6b6ab6dB6eB1B9a2E2A8AC8cD1F0B4d1D2F01"

def sampleWorker : Address := "0x7b5f6e8e9C1c8a3D4f0B2D9E1A6c5B4A3f2e1D02"

/-- One manager and one worker, and hashes that tell nonces and gas prices apart. -/
def sampleDependencies : ServerDependencies where
  managerKeyManager := ⟨[sampleManager]⟩
  workersKeyManager := ⟨[sampleWorker]⟩
  walletRefuses _ _ := none
  keccak256 signed := toString signed.nonce ++ "/" ++ toString signed.gasPrice
  config := {
    confirmationsNeeded := 12
    pendingTransactionTimeoutBlocks := 3
    retryGasPriceFactor := 6 / 5
    maxGasPrice := 1000
    managerTargetBalance := 1000
    managerMinBalance := 100
    workerTargetBalance := 500
    workerMinBalance := 100 }

def sampleProvider : Provider where
  getGasPrice := .ok 10
  getTransactionCount _ := .ok 0
  getPendingTransactionCount _ := .ok 0
  getTransaction _ := .ok none
  sendTransaction signed := .ok (sampleDependencies.keccak256 signed)

def sampleRefill : SendTransactionDetails where
  signer := sampleManager
  serverAction := .valueTransfer
  method := none
  destination := sampleWorker
  value := some 1000000
  gasLimit := 21000
  creationBlockNumber := 100

def sampleSent : SignedTransactionDetails where
  txHash := "0/10"
  signedTx := ⟨sampleManager, some sampleWorker, "0x", 1000000, 21000, 10, 0⟩

def sampleRefilled : TransactionManager :=
  final (sendTransaction sampleDependencies sampleProvider sampleRefill) .initial

theorem sendTransaction_sampleRefill :
    sendTransaction sampleDependencies sampleProvider sampleRefill .initial =
      .ok sampleSent sampleRefilled := by
  rfl

theorem boosts_keep_refill_iff :
    (∀ calls : List ManagerCall,
        ∀ again ∈ (runCalls sampleDependencies calls sampleRefilled).signed.drop
            sampleRefilled.signed.length,
          again.fromAddress = sampleSent.signedTx.fromAddress →
          again.nonce = sampleSent.signedTx.nonce → SameButGasPrice sampleSent.signedTx again) ↔
      sampleRefill.value.getD 0 = 0 :=
  boosts_keep_transaction_iff sendTransaction_sampleRefill

/-- The refill is boosted ten blocks later, and signed again without its value. -/
theorem boost_drops_value :
    ¬ ∀ (dependencies : ServerDependencies) (provider : Provider) (details : SendTransactionDetails)
      (before after : TransactionManager) (result : SignedTransactionDetails),
      sendTransaction dependencies provider details before = .ok result after →
      ∀ calls : List ManagerCall,
        ∀ again ∈ (runCalls dependencies calls after).signed.drop after.signed.length,
          again.fromAddress = result.signedTx.fromAddress →
          again.nonce = result.signedTx.nonce → SameButGasPrice result.signedTx again := by
  intro h
  have hsame := h sampleDependencies sampleProvider sampleRefill .initial sampleRefilled sampleSent
    sendTransaction_sampleRefill
    [.boostUnderpricedPendingTransactionsForSigner sampleProvider sampleManager 110]
    ⟨sampleManager, some sampleWorker, "0x", 0, 21000, 12, 0⟩ (by decide +kernel) rfl rfl
  exact absurd (congrArg SignedTransaction.value hsame) (by decide)

end RifRelayServer
