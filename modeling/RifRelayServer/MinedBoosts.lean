import RifRelayServer.UnderpricedBoosts
import Mathlib

/-!
# Boosts of mined transactions

A boost signs the underpriced entries from the first on and stops where one fails. Its
guard looks at the oldest entry only, and lets nonce zero through: what is mined is
signed again just when the guard lets a mined nonce zero through.
-/

namespace RifRelayServer

open Keeping

variable {dependencies : ServerDependencies} {provider : Provider} {signer : Address}

/-- What a loop over `txs` signs, and what of it it broadcasts. -/
structure SignsSome (dependencies : ServerDependencies) (newGasPrice : ℕ)
    (txs signed sent : List StoredTransaction) (before after : TransactionManager) : Prop where
  isPrefix : signed <+: txs
  sublist : sent.Sublist signed
  signed_eq : after.signed = before.signed ++ signed.map (resigned · newGasPrice)
  broadcast_eq : after.broadcast = before.broadcast ++ sent.map (resigned · newGasPrice)
  signs : ∀ tx ∈ signed, dependencies.signs tx = true
  head_mem : ∀ tx, txs.head? = some tx → dependencies.signs tx = true → tx ∈ signed

theorem signsSome_nil (newGasPrice : ℕ) (before : TransactionManager) :
    SignsSome dependencies newGasPrice [] [] [] before before :=
  ⟨List.nil_prefix, List.nil_sublist _, by simp, by simp, by simp, by simp⟩

theorem SignsSome.cons {newGasPrice : ℕ} {tx : StoredTransaction}
    {txs signed sent : List StoredTransaction} {before after : TransactionManager}
    {txStore : TxStore} (hsigns : dependencies.signs tx = true)
    (h : SignsSome dependencies newGasPrice txs signed sent
      { (before.withSigned (resigned tx newGasPrice)).withBroadcast (resigned tx newGasPrice) with
        txStore } after) :
    SignsSome dependencies newGasPrice (tx :: txs) (tx :: signed) (tx :: sent) before after where
  isPrefix := List.cons_prefix_cons.mpr ⟨rfl, h.isPrefix⟩
  sublist := h.sublist.cons_cons tx
  signed_eq := by
    rw [h.signed_eq]
    simp [TransactionManager.withSigned, TransactionManager.withBroadcast]
  broadcast_eq := by
    rw [h.broadcast_eq]
    simp [TransactionManager.withSigned, TransactionManager.withBroadcast]
  signs := List.forall_mem_cons.mpr ⟨hsigns, h.signs⟩
  head_mem other hother _ := by
    rw [← Option.some.inj hother]
    exact List.mem_cons_self

/-- The boost that fails is signed or not, and broadcast or not. -/
theorem signsSome_of_error {currentBlock newGasPrice : ℕ} {tx : StoredTransaction}
    {txs : List StoredTransaction} {before after : TransactionManager} {e : String}
    (h : Resends dependencies provider tx currentBlock newGasPrice before (.error e after)) :
    ∃ signed sent, SignsSome dependencies newGasPrice (tx :: txs) signed sent before after := by
  have hone : ∀ sent, sent.Sublist [tx] → dependencies.signs tx = true →
      after.signed = before.signed ++ [resigned tx newGasPrice] →
      after.broadcast = before.broadcast ++ sent.map (resigned · newGasPrice) →
      SignsSome dependencies newGasPrice (tx :: txs) [tx] sent before after := by
    intro sent hsent hsigns hsigned hbroadcast
    refine ⟨⟨txs, rfl⟩, hsent, hsigned, hbroadcast, by simpa using hsigns, ?_⟩
    rintro other hother -
    rw [← Option.some.inj hother]
    exact List.mem_singleton_self tx
  cases h with
  | unsigned _ hsigns =>
      refine ⟨[], [], List.nil_prefix, List.nil_sublist _, by simp, by simp, by simp, ?_⟩
      intro other hother hsigned
      rw [← Option.some.inj hother, hsigns] at hsigned
      cases hsigned
  | unstored _ hsigns => exact ⟨_, _, hone [] (List.nil_sublist _) hsigns rfl (by simp; rfl)⟩
  | unlogged _ _ hsigns => exact ⟨_, _, hone [] (List.nil_sublist _) hsigns rfl (by simp; rfl)⟩
  | uncounted _ _ hsigns => exact ⟨_, _, hone [] (List.nil_sublist _) hsigns rfl (by simp; rfl)⟩
  | refused _ _ _ hsigns => exact ⟨_, _, hone [] (List.nil_sublist _) hsigns rfl (by simp; rfl)⟩
  | mismatched _ _ _ _ hsigns => exact ⟨_, _, hone [tx] (List.Sublist.refl _) hsigns rfl rfl⟩

theorem resendTransactions_signsSome {currentBlock newGasPrice : ℕ}
    (txs : List StoredTransaction) (before : TransactionManager) :
    ∃ signed sent, SignsSome dependencies newGasPrice txs signed sent before
      (final (resendTransactions dependencies provider currentBlock newGasPrice txs) before) := by
  induction txs generalizing before with
  | nil => exact ⟨[], [], signsSome_nil newGasPrice before⟩
  | cons tx txs ih =>
      unfold resendTransactions
      have hcases := @resendTransaction_cases dependencies provider tx currentBlock newGasPrice before
      cases hresend : resendTransaction dependencies provider tx currentBlock newGasPrice before with
      | error e after =>
          rw [hresend] at hcases
          rw [final_bind_of_throws (returns_of_error hresend), final, hresend]
          exact signsSome_of_error hcases
      | ok boosted middle =>
          rw [hresend] at hcases
          rw [final_bind_of_ok hresend]
          obtain ⟨signed, sent, hrest⟩ := ih middle
          rw [final_bind_pure]
          cases hcases with
          | accepted _ _ _ hsigns => exact ⟨_, _, hrest.cons hsigns⟩

variable {currentBlockHeight accountNonce : ℕ} {before : TransactionManager}

/-- A mined entry is signed again: the oldest one has nonce zero and has timed out, and the
first one below the price it sets is mined and can be signed. -/
def ResignsMined (dependencies : ServerDependencies) (signer : Address)
    (accountNonce currentBlockHeight : ℕ) (store : TxStore) : Prop :=
  ∃ oldest next, (getAllBySigner store signer).head? = some oldest ∧
    oldest.nonce = some 0 ∧
    dependencies.config.pendingTransactionTimeoutBlocks ≤ (currentBlockHeight : ℤ) -
      (oldest.boostBlockNumber.getD oldest.creationBlockNumber : ℕ) ∧
    (underpricedTransactions store signer
      (dependencies.config.boostPrice oldest.gasPrice)).head? = some next ∧
    next.nonce.getD 0 < accountNonce ∧ dependencies.signs next = true

theorem le_of_head?_ascending {txs : List StoredTransaction} {head tx : StoredTransaction}
    (hascending : txs.Pairwise fun tx1 tx2 => tx1.nonce.getD 0 < tx2.nonce.getD 0)
    (hhead : txs.head? = some head) (htx : tx ∈ txs) : head.nonce.getD 0 ≤ tx.nonce.getD 0 := by
  obtain ⟨others, rfl⟩ := List.head?_eq_some_iff.mp hhead
  rcases List.mem_cons.mp htx with rfl | hother
  · exact le_rfl
  · exact (List.rel_of_pairwise_cons hascending hother).le

theorem head?_eq_of_prefix {txs signed : List StoredTransaction} {tx : StoredTransaction}
    (hinitial : signed <+: txs) (htx : tx ∈ signed) :
    ∃ head ∈ signed, txs.head? = some head := by
  obtain ⟨others, rfl⟩ := hinitial
  cases signed with
  | nil => cases htx
  | cons head signed => exact ⟨head, List.mem_cons_self, rfl⟩

/-- An oldest entry that is mined and not awaited has nonce zero. -/
theorem nonce_eq_zero_of_not_awaited {oldest : StoredTransaction}
    (hnonce : oldest.nonce ≠ none) (hmined : oldest.nonce.getD 0 < accountNonce)
    (htimedOut : ¬ StillAwaited dependencies.config oldest accountNonce currentBlockHeight) :
    oldest.nonce = some 0 := by
  obtain ⟨nonce, hsome⟩ := Option.ne_none_iff_exists'.mp hnonce
  rw [hsome, Option.getD_some] at hmined
  by_contra hne
  exact htimedOut (Or.inl ⟨nonce, hsome, fun hzero => hne (hzero ▸ hsome), hmined⟩)

theorem boost_signsSome {oldest : StoredTransaction}
    (holdest : (getAllBySigner before.txStore signer).head? = some oldest)
    (hcount : provider.getTransactionCount signer = .ok accountNonce)
    (hawaited : isAwaited dependencies.config oldest accountNonce currentBlockHeight = false) :
    ∃ signed sent, SignsSome dependencies (dependencies.config.boostPrice oldest.gasPrice)
      (underpricedTransactions before.txStore signer
        (dependencies.config.boostPrice oldest.gasPrice)) signed sent before
      (final (boostUnderpricedPendingTransactionsForSigner dependencies provider signer
        currentBlockHeight) before) := by
  have hrun : boostUnderpricedPendingTransactionsForSigner dependencies provider signer
      currentBlockHeight before =
      resendTransactions dependencies provider currentBlockHeight
        (dependencies.config.boostPrice oldest.gasPrice)
        (underpricedTransactions before.txStore signer
          (dependencies.config.boostPrice oldest.gasPrice)) before := by
    rw [boost_of_oldest holdest hcount, if_neg (ne_true_of_eq_false hawaited)]
  rw [final, hrun, ← final]
  exact resendTransactions_signsSome _ before

/-- What is signed starts with the first underpriced entry, which has the lowest nonce. -/
theorem accountNonce_le_of_signed {oldest tx : StoredTransaction}
    {newGasPrice : ℕ} {signed : List StoredTransaction}
    (holdest : (getAllBySigner before.txStore signer).head? = some oldest)
    (hprice : newGasPrice = dependencies.config.boostPrice oldest.gasPrice)
    (hwaits : ¬ StillAwaited dependencies.config oldest accountNonce currentBlockHeight)
    (hinitial : signed <+: underpricedTransactions before.txStore signer newGasPrice)
    (hsigns : ∀ tx ∈ signed, dependencies.signs tx = true)
    (hnot : ¬ ResignsMined dependencies signer accountNonce currentBlockHeight before.txStore)
    (htx : tx ∈ signed) : accountNonce ≤ tx.nonce.getD 0 := by
  by_contra hmined
  obtain ⟨head, hmem, hhead⟩ := head?_eq_of_prefix hinitial htx
  have hhead_le := le_of_head?_ascending (underpricedTransactions_strictly_ascending _ _ _) hhead
    (hinitial.subset htx)
  have holdest_le := le_of_head?_ascending (getAllBySigner_strictly_ascending _ _) holdest
    (List.mem_of_mem_filter (List.mem_of_mem_head? hhead))
  have hstored := (mem_getAllBySigner.mp (List.mem_of_mem_head? holdest)).1
  have hzero := nonce_eq_zero_of_not_awaited (before.txStore.nonce_ne_none oldest hstored)
    (by omega) hwaits
  exact hnot ⟨oldest, head, holdest, hzero, not_lt.mp fun hrecent => hwaits (Or.inr hrecent),
    hprice ▸ hhead, by omega, hsigns head hmem⟩

/-- No mined transaction is signed again or broadcast, exactly when no mined nonce zero
gets past the guard to an entry that can be signed. -/
theorem no_mined_resigned_iff (hcount : provider.getTransactionCount signer = .ok accountNonce) :
    ((∀ again ∈ (final (boostUnderpricedPendingTransactionsForSigner dependencies provider signer
          currentBlockHeight) before).signed.drop before.signed.length,
        accountNonce ≤ again.nonce) ∧
      ∀ again ∈ (final (boostUnderpricedPendingTransactionsForSigner dependencies provider signer
          currentBlockHeight) before).broadcast.drop before.broadcast.length,
        accountNonce ≤ again.nonce) ↔
      ¬ ResignsMined dependencies signer accountNonce currentBlockHeight before.txStore := by
  cases holdest : (getAllBySigner before.txStore signer).head? with
  | none =>
      have hempty := List.head?_eq_none_iff.mp holdest
      rw [final, boost_of_empty hempty]
      apply iff_of_true (by simp)
      rintro ⟨oldest, -, hsome, -⟩
      cases holdest.symm.trans hsome
  | some oldest =>
      cases hawaited : isAwaited dependencies.config oldest accountNonce currentBlockHeight with
      | true =>
          rw [final, boost_of_oldest holdest hcount, if_pos hawaited]
          apply iff_of_true (by simp)
          rintro ⟨oldest', next, holdest', hzero, htimedOut, -⟩
          obtain rfl := Option.some.inj (holdest.symm.trans holdest')
          rcases isAwaited_iff.mp hawaited with ⟨nonce, hnonce, hne, -⟩ | hrecent
          · exact hne (Option.some.inj (hnonce.symm.trans hzero))
          · exact hrecent.not_ge htimedOut
      | false =>
          have hwaits : ¬ StillAwaited dependencies.config oldest accountNonce currentBlockHeight := by
            rw [← isAwaited_iff, hawaited]
            exact Bool.false_ne_true
          obtain ⟨signed, sent, h⟩ := boost_signsSome holdest hcount hawaited
          rw [h.signed_eq, h.broadcast_eq, List.drop_left, List.drop_left]
          constructor
          · rintro ⟨hsigned, -⟩ ⟨oldest', next, holdest', -, -, hnext, hmined, hsigns⟩
            obtain rfl := Option.some.inj (holdest.symm.trans holdest')
            exact hmined.not_ge
              (hsigned _ (List.mem_map.mpr ⟨next, h.head_mem next hnext hsigns, rfl⟩))
          · intro hnot
            have hle : ∀ tx ∈ signed, accountNonce ≤ tx.nonce.getD 0 := fun tx htx =>
              accountNonce_le_of_signed holdest rfl hwaits h.isPrefix h.signs hnot htx
            constructor
            · intro again hagain
              obtain ⟨tx, htx, rfl⟩ := List.mem_map.mp hagain
              exact hle tx htx
            · intro again hagain
              obtain ⟨tx, htx, rfl⟩ := List.mem_map.mp hagain
              exact hle tx (h.sublist.subset htx)

/-- The refill with nonce zero is mined, and no receipt was found for its hash yet. -/
def sampleMinedProvider : Provider where
  getGasPrice := .ok 10
  getTransactionCount _ := .ok 1
  getPendingTransactionCount _ := .ok 1
  getTransaction _ := .ok none
  sendTransaction _ := .error "nonce too low"

theorem no_mined_resigned_sampleRefilled_iff :
    ((∀ again ∈ (final (boostUnderpricedPendingTransactionsForSigner sampleDependencies
          sampleMinedProvider sampleManager 110) sampleRefilled).signed.drop
          sampleRefilled.signed.length, 1 ≤ again.nonce) ∧
      ∀ again ∈ (final (boostUnderpricedPendingTransactionsForSigner sampleDependencies
          sampleMinedProvider sampleManager 110) sampleRefilled).broadcast.drop
          sampleRefilled.broadcast.length, 1 ≤ again.nonce) ↔
      ¬ ResignsMined sampleDependencies sampleManager 1 110 sampleRefilled.txStore :=
  no_mined_resigned_iff rfl

theorem mined_refill_resigned :
    ¬ ∀ (dependencies : ServerDependencies) (provider : Provider) (signer : Address)
      (accountNonce currentBlockHeight : ℕ) (before : TransactionManager),
      provider.getTransactionCount signer = .ok accountNonce →
      ∀ again ∈ (final (boostUnderpricedPendingTransactionsForSigner dependencies provider signer
          currentBlockHeight) before).signed.drop before.signed.length,
        accountNonce ≤ again.nonce := by
  intro h
  have hmined := h sampleDependencies sampleMinedProvider sampleManager 1 110 sampleRefilled rfl
    ⟨sampleManager, some sampleWorker, "0x", 0, 21000, 12, 0⟩ (by decide +kernel)
  exact absurd hmined (by decide)

end RifRelayServer
