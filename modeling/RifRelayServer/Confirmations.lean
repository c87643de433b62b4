import RifRelayServer.Boosting
import Mathlib

/-!
# Confirmed transactions and the store

A confirmation pass looks every entry up by its stored hash, and removes with a
confirmed entry all entries of its signer up to its nonce. The stored hash is
the one of the version signed last, so an entry whose earlier version was mined
stays, unless a later entry of its signer goes.
-/

namespace RifRelayServer

open Std.Do Keeping

set_option mvcgen.warning false

section Hashes

variable {dependencies : ServerDependencies} {provider : Provider}
  {manager : TransactionManager}

def HashedIn (dependencies : ServerDependencies) (history : List SignedTransaction)
    (tx : StoredTransaction) : Prop :=
  ∃ signed ∈ history, tx.txId = dependencies.keccak256 signed ∧
    signed.fromAddress = tx.fromAddress ∧ tx.nonce = some signed.nonce

theorem HashedIn.mono {history later : List SignedTransaction} {tx : StoredTransaction}
    (h : HashedIn dependencies history tx) (hsub : history ⊆ later) :
    HashedIn dependencies later tx := by
  obtain ⟨signed, hsigned, heq⟩ := h
  exact ⟨signed, hsub hsigned, heq⟩

def Hashed (dependencies : ServerDependencies) (manager : TransactionManager) : Prop :=
  ∀ tx ∈ manager.txStore, HashedIn dependencies manager.signed tx

theorem Hashed.sign (h : Hashed dependencies manager) (signed : SignedTransaction) :
    Hashed dependencies { manager with signed := manager.signed ++ [signed] } :=
  fun tx htx => (h tx htx).mono (List.subset_append_left _ _)

theorem Hashed.put (h : Hashed dependencies manager) {tx : StoredTransaction}
    {updateExisting : Bool} {txStore : TxStore}
    (hput : putTx manager.txStore tx updateExisting = .ok txStore)
    (htx : HashedIn dependencies manager.signed tx) :
    Hashed dependencies { manager with txStore } := by
  intro it hit
  rcases (mem_of_putTx hput it).mp hit with ⟨hold, -⟩ | rfl
  · exact h it hold
  · exact htx

theorem Hashed.remove (h : Hashed dependencies manager) (signer : Address) (nonce : ℕ) :
    Hashed dependencies
      { manager with txStore := removeTxsUntilNonce manager.txStore signer nonce } :=
  fun tx htx => h tx (mem_removeTxsUntilNonce.mp htx).1

theorem pollNonce_hashed {signer : Address} :
    Keeps (Hashed dependencies) (pollNonce provider signer) := by
  mvcgen [pollNonce, await]

theorem signTransaction_hashed {keyManager : KeyManager} {address : Address}
    {utx : PopulatedTransaction} :
    ⦃fun manager => ⌜Hashed dependencies manager⌝⦄
    signTransaction dependencies keyManager address utx
    ⦃post⟨fun result manager => ⌜Hashed dependencies manager ∧
        result.txHash = dependencies.keccak256 (.ofPopulated address utx) ∧
        SignedTransaction.ofPopulated address utx ∈ manager.signed⌝,
      fun _ manager => ⌜Hashed dependencies manager⌝⟩⦄ := by
  mvcgen [signTransaction, await]
  next h _ hsignature _ =>
    obtain ⟨-, -, -, rfl⟩ := ServerDependencies.signatureOf_eq_ok_iff.mp hsignature
    exact ⟨h.sign _, rfl, List.mem_append_right _ List.mem_cons_self⟩

theorem broadcastTransaction_hashed {details : SignedTransactionDetails} {txId : Hash} :
    Keeps (Hashed dependencies) (broadcastTransaction provider details txId) := by
  mvcgen [broadcastTransaction, await]

theorem sendTransaction_hashed {details : SendTransactionDetails} :
    Keeps (Hashed dependencies) (sendTransaction dependencies provider details) := by
  mvcgen [sendTransaction, await, pollNonce_hashed, signTransaction_hashed, storeTx,
    broadcastTransaction_hashed]
  next h _ _ hput =>
    obtain ⟨hashed, hhash, hsigned⟩ := h
    exact hashed.put hput ⟨_, hsigned, hhash, rfl, rfl⟩
  next h _ _ _ => exact h.1

theorem resendTransaction_hashed {tx : StoredTransaction} {currentBlock newGasPrice : ℕ}
    (hnonce : tx.nonce ≠ none) :
    Keeps (Hashed dependencies)
      (resendTransaction dependencies provider tx currentBlock newGasPrice) := by
  have hsome : tx.nonce = some (tx.nonce.getD 0) := by
    obtain ⟨nonce, h⟩ := Option.ne_none_iff_exists'.mp hnonce
    rw [h, Option.getD_some]
  mvcgen [resendTransaction, updateTransactionWithAttempt, await, signTransaction_hashed, storeTx,
    broadcastTransaction_hashed]
  next h _ _ hput _ _ _ _ =>
    obtain ⟨hashed, hhash, hsigned⟩ := h
    exact hashed.put hput ⟨_, hsigned, hhash, rfl, hsome⟩
  next h _ _ hput _ _ _ _ =>
    obtain ⟨hashed, hhash, hsigned⟩ := h
    exact hashed.put hput ⟨_, hsigned, hhash, rfl, hsome⟩
  next h _ _ hput _ _ =>
    obtain ⟨hashed, hhash, hsigned⟩ := h
    exact hashed.put hput ⟨_, hsigned, hhash, rfl, hsome⟩
  next h _ _ _ => exact h.1

theorem resendTransactions_hashed {currentBlock newGasPrice : ℕ} (txs : List StoredTransaction)
    (htxs : ∀ tx ∈ txs, tx.nonce ≠ none) :
    Keeps (Hashed dependencies)
      (resendTransactions dependencies provider currentBlock newGasPrice txs) :=
  keeps_resendTransactions txs fun tx htx => resendTransaction_hashed (htxs tx htx)

theorem boost_hashed {signer : Address} {currentBlockHeight : ℕ} :
    Keeps (Hashed dependencies)
      (boostUnderpricedPendingTransactionsForSigner dependencies provider signer
        currentBlockHeight) := by
  have hloop : ∀ newGasPrice txs, (∀ tx ∈ txs, tx.nonce ≠ none) →
      Keeps (Hashed dependencies)
        (resendTransactions dependencies provider currentBlockHeight newGasPrice txs) :=
    fun newGasPrice => resendTransactions_hashed
  mvcgen [boostUnderpricedPendingTransactionsForSigner, await, hloop]
  next manager _ _ oldest others heq _ _ _ _ =>
    intro tx htx
    exact manager.txStore.nonce_ne_none tx
      (mem_getAllBySigner.mp (heq ▸ List.mem_of_mem_filter htx)).1

theorem resendStoredTransaction_hashed {signer : Address} {nonce currentBlock newGasPrice : ℕ} :
    Keeps (Hashed dependencies)
      (resendStoredTransaction dependencies provider signer nonce currentBlock newGasPrice) := by
  mvcgen [resendStoredTransaction, resendTransaction_hashed]
  next manager _ tx hfind =>
    exact manager.txStore.nonce_ne_none tx (TxStore.find?_eq_some_iff.mp hfind).1

theorem recheckTransaction_hashed {blockNumber : ℕ} {tx : StoredTransaction}
    {txs : List StoredTransaction} (htx : tx ∈ txs) :
    Keeps (fun manager => Hashed dependencies manager ∧
        ∀ tx ∈ txs, HashedIn dependencies manager.signed tx)
      (recheckTransaction dependencies provider blockNumber tx) := by
  mvcgen [recheckTransaction, updateTransactionWithMinedBlock, await, storeTx]
  next h _ _ _ _ _ _ _ _ _ hput => exact ⟨h.1.put hput (h.2 tx htx), h.2⟩
  next h _ _ _ _ _ _ _ _ _ => exact ⟨h.1.remove _ _, h.2⟩

theorem recheckTransactions_hashed {blockNumber : ℕ} (txs : List StoredTransaction) :
    Keeps (fun manager => Hashed dependencies manager ∧
        ∀ tx ∈ txs, HashedIn dependencies manager.signed tx)
      (recheckTransactions dependencies provider blockNumber txs) :=
  keeps_recheckTransactions txs fun _ => recheckTransaction_hashed

theorem removeConfirmedTransactions_hashed {blockNumber : ℕ} :
    Keeps (Hashed dependencies)
      (removeConfirmedTransactions dependencies provider blockNumber) := by
  mvcgen [removeConfirmedTransactions, recheckTransactions_hashed]
  next h => exact ⟨h, fun tx htx => h tx (mem_getAll.mp htx)⟩
  next => exact fun h _ => h
  next => exact fun h _ => h

theorem call_hashed (call : ManagerCall) :
    Keeps (Hashed dependencies) (call.program dependencies) :=
  keeps_call call (fun _ _ => sendTransaction_hashed) (fun _ _ => pollNonce_hashed)
    (fun _ _ _ _ _ => resendStoredTransaction_hashed) (fun _ _ _ => boost_hashed)
    fun _ _ => removeConfirmedTransactions_hashed

/-- In every reachable state the store holds hashes of what was signed. -/
theorem runCalls_hashed (calls : List ManagerCall) :
    Hashed dependencies (runCalls dependencies calls .initial) := by
  refine keeps_finalAll ?_ ?_
  · intro program hprogram
    obtain ⟨call, -, rfl⟩ := List.mem_map.mp hprogram
    exact call_hashed call
  · exact fun tx htx => absurd htx (TxStore.not_mem_empty tx)

end Hashes

section Pass

variable {dependencies : ServerDependencies} {provider : Provider} {blockNumber : ℕ}
  {chain : Hash → Option ℕ} {manager : TransactionManager}

/-- The node answers for a chain, given as the block each hash is mined in: what
it finds by the hash of a signed transaction is that transaction. -/
structure NodeReports (dependencies : ServerDependencies) (provider : Provider)
    (history : List SignedTransaction) (chain : Hash → Option ℕ) : Prop where
  found : ∀ signed ∈ history, ∀ response,
    provider.getTransaction (dependencies.keccak256 signed) = .ok (some response) →
      toLowerCase response.fromAddress = toLowerCase signed.fromAddress ∧
        response.nonce = signed.nonce ∧
        response.blockNumber = chain (dependencies.keccak256 signed)
  notFound : ∀ signed ∈ history,
    provider.getTransaction (dependencies.keccak256 signed) = .ok none →
      chain (dependencies.keccak256 signed) = none

/-- An entry is due when it has no block, or one that is at least as deep as is needed. -/
theorem shouldRecheck_iff {config : BlockchainConfig} {blockNumber : ℕ} {tx : StoredTransaction} :
    shouldRecheck config blockNumber tx = true ↔
      tx.minedBlockNumber = none ∨
        ∃ mined, tx.minedBlockNumber = some mined ∧
          config.confirmationsNeeded ≤ (blockNumber : ℤ) - mined := by
  unfold shouldRecheck
  cases tx.minedBlockNumber with
  | none => simp
  | some mined => simp

def Confirmed (config : BlockchainConfig) (chain : Hash → Option ℕ) (blockNumber : ℕ)
    (tx : StoredTransaction) : Prop :=
  shouldRecheck config blockNumber tx = true ∧
    ∃ mined, chain tx.txId = some mined ∧ config.confirmationsNeeded ≤ (blockNumber : ℤ) - mined

/-- The entry with the block it was found in, if that is recent and new. -/
def remarked (config : BlockchainConfig) (chain : Hash → Option ℕ) (blockNumber : ℕ)
    (tx : StoredTransaction) : StoredTransaction :=
  match chain tx.txId with
  | none => tx
  | some mined =>
      if shouldRecheck config blockNumber tx = true ∧ some mined ≠ tx.minedBlockNumber ∧
          (blockNumber : ℤ) - mined < config.confirmationsNeeded then
        { tx with minedBlockNumber := some mined }
      else tx

def Rechecks (config : BlockchainConfig) (chain : Hash → Option ℕ) (blockNumber : ℕ)
    (tx : StoredTransaction) (store store' : TxStore) : Prop :=
  (Confirmed config chain blockNumber tx ∧
      store' = removeTxsUntilNonce store tx.fromAddress (tx.nonce.getD 0)) ∨
    (¬ Confirmed config chain blockNumber tx ∧
      putTx store (remarked config chain blockNumber tx) true = .ok store') ∨
    (¬ Confirmed config chain blockNumber tx ∧ remarked config chain blockNumber tx = tx ∧
      store' = store)

variable {config : BlockchainConfig} {tx : StoredTransaction}

theorem Rechecks.of_idle (h : shouldRecheck config blockNumber tx = false ∨ chain tx.txId = none)
    (store : TxStore) : Rechecks config chain blockNumber tx store store := by
  refine Or.inr (Or.inr ⟨?_, ?_, rfl⟩)
  · rintro ⟨hdue, mined, hmined, -⟩
    rcases h with h | h
    · simp [h] at hdue
    · simp [h] at hmined
  · unfold remarked
    rcases h with h | h
    · cases chain tx.txId <;> simp [h]
    · simp [h]

theorem Rechecks.of_recent {mined : ℕ} (hdue : shouldRecheck config blockNumber tx = true)
    (hmined : chain tx.txId = some mined)
    (hrecent : some mined ≠ tx.minedBlockNumber ∧
      (blockNumber : ℤ) - mined < config.confirmationsNeeded) {store store' : TxStore}
    (hput : putTx store { tx with minedBlockNumber := some mined } true = .ok store') :
    Rechecks config chain blockNumber tx store store' := by
  refine Or.inr (Or.inl ⟨?_, ?_⟩)
  · rintro ⟨-, other, hother, hconfirmed⟩
    obtain rfl := Option.some.inj (hmined.symm.trans hother)
    exact hconfirmed.not_gt hrecent.2
  · rw [remarked, hmined]
    dsimp only
    rwa [if_pos ⟨hdue, hrecent⟩]

/-- A due entry that is not marked is confirmed: either it is old enough, or it
is still where it was seen, which was long ago. -/
theorem confirmed_of_not_recent {mined : ℕ} (hdue : shouldRecheck config blockNumber tx = true)
    (hmined : chain tx.txId = some mined)
    (h : ¬ (some mined ≠ tx.minedBlockNumber ∧
      (blockNumber : ℤ) - mined < config.confirmationsNeeded)) :
    Confirmed config chain blockNumber tx := by
  refine ⟨hdue, mined, hmined, ?_⟩
  by_cases hsame : some mined = tx.minedBlockNumber
  · rcases shouldRecheck_iff.mp hdue with hunmined | ⟨mined', hmined', hdeep⟩
    · cases hsame.trans hunmined
    · rwa [Option.some.inj (hsame.trans hmined')]
  · exact not_lt.mp fun hlt => h ⟨hsame, hlt⟩

theorem removeTxsUntilNonce_congr {store : TxStore} {signer other : Address} {nonce : ℕ}
    (h : toLowerCase signer = toLowerCase other) :
    removeTxsUntilNonce store signer nonce = removeTxsUntilNonce store other nonce := by
  simp only [removeTxsUntilNonce, isUntilNonce, h]

/-- The node answers for the entry with a transaction of its signer and nonce. -/
structure EntryReported (provider : Provider) (chain : Hash → Option ℕ) (tx : StoredTransaction) :
    Prop where
  found : ∀ response, provider.getTransaction tx.txId = .ok (some response) →
    toLowerCase response.fromAddress = toLowerCase tx.fromAddress ∧
      tx.nonce = some response.nonce ∧ response.blockNumber = chain tx.txId
  notFound : provider.getTransaction tx.txId = .ok none → chain tx.txId = none

theorem NodeReports.entryReported {history : List SignedTransaction}
    (hnode : NodeReports dependencies provider history chain)
    (htx : HashedIn dependencies history tx) : EntryReported provider chain tx := by
  obtain ⟨signed, hsigned, hid, hfrom, hnonce⟩ := htx
  constructor
  · intro response hresponse
    obtain ⟨hsender, hreceived, hblock⟩ := hnode.found signed hsigned response (hid ▸ hresponse)
    exact ⟨by rw [hsender, hfrom], by rw [hnonce, hreceived], by rw [hblock, hid]⟩
  · intro hnone
    rw [hid] at hnone ⊢
    exact hnode.notFound signed hsigned hnone

/-- Nothing keeps the recheck of the entry from returning. -/
structure CanRecheck (provider : Provider) (tx : StoredTransaction) (store : TxStore) : Prop where
  fetched : ∃ found, provider.getTransaction tx.txId = .ok found
  storable : tx.isStorable = true
  unique : ∀ it ∈ store, it.nonceSigner ≠ tx.nonceSigner → it.txId ≠ tx.txId

theorem recheckTransaction_effect (hreported : EntryReported provider chain tx) :
    ⦃fun m => ⌜m = manager⌝⦄
    recheckTransaction dependencies provider blockNumber tx
    ⦃post⟨fun _ m => ⌜m = { manager with txStore := m.txStore } ∧
        Rechecks dependencies.config chain blockNumber tx manager.txStore m.txStore⌝,
      fun _ _ => ⌜¬ CanRecheck provider tx manager.txStore⌝⟩⦄ := by
  obtain ⟨hfound, hnotFound⟩ := hreported
  mvcgen [recheckTransaction, updateTransactionWithMinedBlock, await, storeTx]
  next hidle m hm =>
    subst hm
    exact ⟨rfl, .of_idle (Or.inl (by simpa using hidle)) _⟩
  next m hm _ hanswer hnone =>
    subst hm hnone
    exact ⟨rfl, .of_idle (Or.inr (hnotFound hanswer)) _⟩
  next m hm _ hanswer receipt hreceipt hpending =>
    subst hm hreceipt
    exact ⟨rfl, .of_idle (Or.inr ((hfound receipt hanswer).2.2.symm.trans hpending)) _⟩
  next hdue m hm _ hanswer receipt hreceipt mined hmined _ hrecent store hput =>
    subst hm hreceipt
    exact ⟨rfl, .of_recent (by simpa using hdue)
      ((hfound receipt hanswer).2.2.symm.trans hmined) hrecent hput⟩
  next m hm _ _ _ _ _ _ _ _ e hput =>
    subst hm
    rintro ⟨-, hstorable, hunique⟩
    obtain ⟨store', hok⟩ := @exists_putTx_update _
      { tx with minedBlockNumber := some _ } hstorable hunique
    cases hput.symm.trans hok
  next hdue m hm _ hanswer receipt hreceipt mined hmined _ hold _ =>
    subst hm hreceipt
    obtain ⟨hsender, hreceived, hblock⟩ := hfound receipt hanswer
    refine ⟨rfl, Or.inl ⟨confirmed_of_not_recent (by simpa using hdue)
      (hblock.symm.trans hmined) hold, ?_⟩⟩
    show removeTxsUntilNonce _ receipt.fromAddress receipt.nonce = _
    rw [hreceived, Option.getD_some, removeTxsUntilNonce_congr hsender]
  next e hfailed =>
    rintro ⟨⟨found, hok⟩, -⟩
    cases hfailed.symm.trans hok

def Covers (tx it : StoredTransaction) : Prop :=
  isUntilNonce tx.fromAddress (tx.nonce.getD 0) it = true

theorem remarked_nonceSigner : (remarked config chain blockNumber tx).nonceSigner =
    tx.nonceSigner := by
  unfold remarked
  split
  · rfl
  · split <;> rfl

theorem covers_congr {tx it other : StoredTransaction} (h : it.nonceSigner = other.nonceSigner) :
    Covers tx it ↔ Covers tx other := by
  obtain ⟨hnonce, hfrom⟩ := Prod.ext_iff.mp h
  simp only [StoredTransaction.nonceSigner] at hnonce hfrom
  simp only [Covers, isUntilNonce, hnonce, hfrom]

theorem covers_self {store : TxStore} (htx : tx ∈ store) : Covers tx tx := by
  obtain ⟨nonce, hnonce⟩ := Option.ne_none_iff_exists'.mp (store.nonce_ne_none tx htx)
  simp [Covers, isUntilNonce, hnonce]

/-- In the order of a pass no entry leaves with an earlier one. -/
theorem not_covers_of_getAll {store : TxStore} {done rest : List StoredTransaction}
    (hall : getAll store = done ++ tx :: rest) {it : StoredTransaction} (hit : it ∈ done) :
    ¬ Covers it tx := by
  intro hcovers
  have hpairwise := pairwise_sortTransactionsByNonce store.entries
  have hnodup := nodup_getAll store
  have hmem : ∀ t ∈ done ++ tx :: rest, t ∈ store := fun t ht => mem_getAll.mp (hall ▸ ht)
  rw [show sortTransactionsByNonce store.entries = _ from hall] at hpairwise
  rw [hall] at hnodup
  have hle := (List.pairwise_append.mp hpairwise).2.2 it hit tx List.mem_cons_self
  have hne : it ≠ tx := fun h =>
    (List.nodup_append.mp hnodup).2.2 it hit tx List.mem_cons_self h
  have htx := hmem tx (List.mem_append_right _ List.mem_cons_self)
  have hit' := hmem it (List.mem_append_left _ hit)
  obtain ⟨n, hn⟩ := Option.ne_none_iff_exists'.mp (store.nonce_ne_none tx htx)
  obtain ⟨k, hk⟩ := Option.ne_none_iff_exists'.mp (store.nonce_ne_none it hit')
  simp only [Covers, isUntilNonce, hn, hk, Option.any_some, Option.getD_some, Bool.and_eq_true,
    decide_eq_true_eq] at hcovers hle
  refine hne (TxStore.eq_of_nonceSigner hit' htx ?_)
  rw [StoredTransaction.nonceSigner, StoredTransaction.nonceSigner, hn, hk, hcovers.2,
    le_antisymm hle hcovers.1]

/-- What is left of an entry once the entries `done` have been rechecked. -/
def markedAfter (config : BlockchainConfig) (chain : Hash → Option ℕ) (blockNumber : ℕ)
    (done : List StoredTransaction) (tx : StoredTransaction) : StoredTransaction :=
  if tx ∈ done then remarked config chain blockNumber tx else tx

def Passed (config : BlockchainConfig) (chain : Hash → Option ℕ) (blockNumber : ℕ)
    (store : TxStore) (done : List StoredTransaction) (store' : TxStore) : Prop :=
  ∀ it, it ∈ store' ↔ ∃ tx ∈ store, it = markedAfter config chain blockNumber done tx ∧
    ∀ e ∈ done, Confirmed config chain blockNumber e → ¬ Covers e tx

theorem markedAfter_nonceSigner {done : List StoredTransaction} :
    (markedAfter config chain blockNumber done tx).nonceSigner = tx.nonceSigner := by
  unfold markedAfter
  split
  · exact remarked_nonceSigner
  · rfl

theorem markedAfter_concat_of_ne {done : List StoredTransaction} {it : StoredTransaction}
    (h : it ≠ tx) : markedAfter config chain blockNumber (done ++ [tx]) it =
      markedAfter config chain blockNumber done it := by
  simp [markedAfter, h]

theorem markedAfter_concat_self {done : List StoredTransaction} :
    markedAfter config chain blockNumber (done ++ [tx]) tx =
      remarked config chain blockNumber tx := by
  simp [markedAfter]

theorem outlasts_concat {done : List StoredTransaction} {it : StoredTransaction} :
    (∀ e ∈ done ++ [tx], Confirmed config chain blockNumber e → ¬ Covers e it) ↔
      (∀ e ∈ done, Confirmed config chain blockNumber e → ¬ Covers e it) ∧
        (Confirmed config chain blockNumber tx → ¬ Covers tx it) := by
  rw [List.forall_mem_append, List.forall_mem_singleton]

section Pass

variable {store middle store' : TxStore} {done rest : List StoredTransaction}

theorem Passed.confirm (h : Passed config chain blockNumber store done middle) (htx : tx ∈ store)
    (hconfirmed : Confirmed config chain blockNumber tx) :
    Passed config chain blockNumber store (done ++ [tx])
      (removeTxsUntilNonce middle tx.fromAddress (tx.nonce.getD 0)) := by
  have hne : ∀ t, ¬ Covers tx t → t ≠ tx := by
    rintro t hcovers rfl
    exact hcovers (covers_self htx)
  intro it
  rw [mem_removeTxsUntilNonce, h it]
  constructor
  · rintro ⟨⟨t, ht, rfl, hcond⟩, hout⟩
    have hcovers : ¬ Covers tx t := by
      rw [covers_congr markedAfter_nonceSigner.symm]
      exact Bool.not_eq_true _ ▸ hout
    exact ⟨t, ht, (markedAfter_concat_of_ne (hne t hcovers)).symm,
      outlasts_concat.mpr ⟨hcond, fun _ => hcovers⟩⟩
  · rintro ⟨t, ht, rfl, hcond⟩
    obtain ⟨hearlier, hlast⟩ := outlasts_concat.mp hcond
    have hcovers := hlast hconfirmed
    rw [markedAfter_concat_of_ne (hne t hcovers)]
    refine ⟨⟨t, ht, rfl, hearlier⟩, ?_⟩
    rw [covers_congr markedAfter_nonceSigner.symm] at hcovers
    exact Bool.not_eq_true _ ▸ hcovers

theorem Passed.mark (h : Passed config chain blockNumber store done middle) (htx : tx ∈ store)
    (hearlier : ∀ e ∈ done, ¬ Covers e tx) (hnot : ¬ Confirmed config chain blockNumber tx)
    (hput : putTx middle (remarked config chain blockNumber tx) true = .ok store') :
    Passed config chain blockNumber store (done ++ [tx]) store' := by
  intro it
  rw [mem_of_putTx hput it, h it, remarked_nonceSigner]
  constructor
  · rintro (⟨⟨t, ht, rfl, hcond⟩, hkey⟩ | rfl)
    · rw [markedAfter_nonceSigner] at hkey
      have hne : t ≠ tx := fun heq => hkey (heq ▸ rfl)
      exact ⟨t, ht, (markedAfter_concat_of_ne hne).symm,
        outlasts_concat.mpr ⟨hcond, fun hc => absurd hc hnot⟩⟩
    · exact ⟨tx, htx, markedAfter_concat_self.symm,
        outlasts_concat.mpr ⟨fun e he _ => hearlier e he, fun hc => absurd hc hnot⟩⟩
  · rintro ⟨t, ht, rfl, hcond⟩
    by_cases heq : t = tx
    · subst heq
      exact Or.inr markedAfter_concat_self
    · rw [markedAfter_concat_of_ne heq, markedAfter_nonceSigner]
      exact Or.inl ⟨⟨t, ht, rfl, (outlasts_concat.mp hcond).1⟩,
        fun hkey => heq (TxStore.eq_of_nonceSigner ht htx hkey)⟩

theorem Passed.leave (h : Passed config chain blockNumber store done middle) (hnew : tx ∉ done)
    (hnot : ¬ Confirmed config chain blockNumber tx)
    (hsame : remarked config chain blockNumber tx = tx) :
    Passed config chain blockNumber store (done ++ [tx]) middle := by
  have hmark : ∀ t, markedAfter config chain blockNumber (done ++ [tx]) t =
      markedAfter config chain blockNumber done t := by
    intro t
    by_cases heq : t = tx
    · rw [heq, markedAfter_concat_self, hsame, markedAfter, if_neg hnew]
    · exact markedAfter_concat_of_ne heq
  intro it
  rw [h it]
  refine exists_congr fun t => and_congr_right fun _ => ?_
  rw [hmark t, outlasts_concat]
  exact and_congr_right fun _ => ⟨fun hcond => ⟨hcond, fun hc => absurd hc hnot⟩, And.left⟩

theorem Passed.step (h : Passed config chain blockNumber store done middle)
    (hall : getAll store = done ++ tx :: rest)
    (hrechecks : Rechecks config chain blockNumber tx middle store') :
    Passed config chain blockNumber store (done ++ [tx]) store' := by
  have htx : tx ∈ store := mem_getAll.mp (hall ▸ List.mem_append_right _ List.mem_cons_self)
  have hearlier : ∀ e ∈ done, ¬ Covers e tx := fun e he => not_covers_of_getAll hall he
  rcases hrechecks with ⟨hconfirmed, rfl⟩ | ⟨hnot, hput⟩ | ⟨hnot, hsame, rfl⟩
  · exact h.confirm htx hconfirmed
  · exact h.mark htx hearlier hnot hput
  · exact h.leave (fun hdone => hearlier tx hdone (covers_self htx)) hnot hsame

end Pass

theorem remarked_txId : (remarked config chain blockNumber tx).txId = tx.txId := by
  unfold remarked
  split
  · rfl
  · split <;> rfl

theorem markedAfter_txId {done : List StoredTransaction} :
    (markedAfter config chain blockNumber done tx).txId = tx.txId := by
  unfold markedAfter
  split
  · exact remarked_txId
  · rfl

/-- The pass changes no hash, so an entry can be written back at its turn. -/
theorem Passed.unique {store middle : TxStore} {done : List StoredTransaction}
    (h : Passed config chain blockNumber store done middle) (htx : tx ∈ store) :
    ∀ it ∈ middle, it.nonceSigner ≠ tx.nonceSigner → it.txId ≠ tx.txId := by
  intro it hit hkey hid
  obtain ⟨t, ht, rfl, -⟩ := (h it).mp hit
  rw [markedAfter_nonceSigner] at hkey
  rw [markedAfter_txId] at hid
  exact hkey (congrArg _ (TxStore.eq_of_txId ht htx hid))

/-- A pass over what is left of the snapshot after the entries `done`. -/
theorem recheckTransactions_passed (store : TxStore)
    (hreported : ∀ tx ∈ store, EntryReported provider chain tx)
    (done rest : List StoredTransaction) (hall : getAll store = done ++ rest) :
    ⦃fun m => ⌜m = { manager with txStore := m.txStore } ∧
      Passed dependencies.config chain blockNumber store done m.txStore⌝⦄
    recheckTransactions dependencies provider blockNumber rest
    ⦃post⟨fun _ m => ⌜m = { manager with txStore := m.txStore } ∧
        Passed dependencies.config chain blockNumber store (getAll store) m.txStore⌝,
      fun _ _ => ⌜¬ ∀ tx ∈ store, (∃ found, provider.getTransaction tx.txId = .ok found) ∧
        tx.isStorable = true⌝⟩⦄ := by
  induction rest generalizing done with
  | nil =>
      rw [List.append_nil] at hall
      mvcgen [recheckTransactions]
      rwa [hall]
  | cons tx rest ih =>
      have htx : tx ∈ store := mem_getAll.mp (hall ▸ List.mem_append_right _ List.mem_cons_self)
      have hstep : ⦃fun m => ⌜m = { manager with txStore := m.txStore } ∧
          Passed dependencies.config chain blockNumber store done m.txStore⌝⦄
          recheckTransaction dependencies provider blockNumber tx
          ⦃post⟨fun _ m => ⌜m = { manager with txStore := m.txStore } ∧
              Passed dependencies.config chain blockNumber store (done ++ [tx]) m.txStore⌝,
            fun _ _ => ⌜¬ ∀ tx ∈ store, (∃ found, provider.getTransaction tx.txId = .ok found) ∧
              tx.isStorable = true⌝⟩⦄ := by
        apply triple_of_state
        intro m hm
        obtain ⟨hsame, hpassed⟩ := hm
        have heffect := @recheckTransaction_effect dependencies provider blockNumber chain m tx
          (hreported tx htx)
        mvcgen [heffect]
        · intro hframe hrechecks
          exact ⟨by rw [hframe, hsame], hpassed.step hall hrechecks⟩
        · exact fun hfailed hgood =>
            hfailed ⟨(hgood tx htx).1, (hgood tx htx).2, hpassed.unique htx⟩
      have hothers := ih (done ++ [tx]) (by rw [hall, List.append_assoc, List.singleton_append])
      mvcgen [recheckTransactions, hstep, hothers]

theorem passed_nil (store : TxStore) : Passed config chain blockNumber store [] store := by
  simp [Passed, markedAfter]

theorem removeConfirmedTransactions_passed
    (hreported : ∀ tx ∈ manager.txStore, EntryReported provider chain tx)
    {after : TransactionManager}
    (hpass : removeConfirmedTransactions dependencies provider blockNumber manager = .ok () after) :
    after = { manager with txStore := after.txStore } ∧
      Passed dependencies.config chain blockNumber manager.txStore (getAll manager.txStore)
        after.txStore := by
  have hloop := @recheckTransactions_passed dependencies provider blockNumber chain manager
    manager.txStore hreported [] (getAll manager.txStore) rfl
  exact post_of_ok hloop ⟨rfl, passed_nil _⟩ hpass

theorem removeConfirmedTransactions_returns
    (hreported : ∀ tx ∈ manager.txStore, EntryReported provider chain tx)
    (hfetched : ∀ tx ∈ manager.txStore, ∃ found, provider.getTransaction tx.txId = .ok found)
    (hstorable : ∀ tx ∈ manager.txStore, tx.isStorable = true) :
    ∃ after, removeConfirmedTransactions dependencies provider blockNumber manager =
      .ok () after := by
  have hloop := @recheckTransactions_passed dependencies provider blockNumber chain manager
    manager.txStore hreported [] (getAll manager.txStore) rfl
  obtain ⟨_, after, hok⟩ := ok_of_not_error hloop ⟨rfl, passed_nil _⟩ fun _ _ hfailed =>
    hfailed fun tx htx => ⟨hfetched tx htx, hstorable tx htx⟩
  exact ⟨after, hok⟩

def SentByServer (manager : TransactionManager) (tx : StoredTransaction) : Prop :=
  ∃ signed ∈ manager.broadcast, toLowerCase signed.fromAddress = toLowerCase tx.fromAddress ∧
    tx.nonce = some signed.nonce

theorem sentByServer_congr {it other : StoredTransaction}
    (h : it.nonceSigner = other.nonceSigner) :
    SentByServer manager it ↔ SentByServer manager other := by
  obtain ⟨hnonce, hfrom⟩ := Prod.ext_iff.mp h
  simp only [StoredTransaction.nonceSigner] at hnonce hfrom
  simp only [SentByServer, hnonce, hfrom]

theorem isUntilNonce_congr {signer : Address} {nonce : ℕ} {it other : StoredTransaction}
    (h : it.nonceSigner = other.nonceSigner) :
    isUntilNonce signer nonce it = isUntilNonce signer nonce other := by
  obtain ⟨hnonce, hfrom⟩ := Prod.ext_iff.mp h
  simp only [StoredTransaction.nonceSigner] at hnonce hfrom
  simp only [isUntilNonce, hnonce, hfrom]

/-- The signer's nonces up to `nonce` were passed on chain with enough
confirmations, by one or the other version of what was sent for them. -/
def AccountPassed (dependencies : ServerDependencies) (manager : TransactionManager)
    (chain : Hash → Option ℕ) (signer : Address) (nonce blockNumber : ℕ) : Prop :=
  ∀ signed ∈ manager.broadcast, toLowerCase signed.fromAddress = toLowerCase signer →
    signed.nonce ≤ nonce →
    ∃ version ∈ manager.broadcast, version.fromAddress = signed.fromAddress ∧
      version.nonce = signed.nonce ∧ ∃ mined, chain (dependencies.keccak256 version) = some mined ∧
        dependencies.config.confirmationsNeeded ≤ (blockNumber : ℤ) - mined

end Pass

/-- A pass leaves no entry of the signer up to the nonce that was sent, exactly
when each of them has an entry of its signer at its nonce or later that is due
and was mined long ago by the hash the store has for it. -/
theorem confirmed_transactions_leave_iff {dependencies : ServerDependencies} {provider : Provider}
    {calls : List ManagerCall} {before after : TransactionManager} {chain : Hash → Option ℕ}
    {blockNumber : ℕ} (hbefore : before = runCalls dependencies calls .initial)
    (hnode : NodeReports dependencies provider before.signed chain)
    (hpass : removeConfirmedTransactions dependencies provider blockNumber before = .ok () after)
    (signer : Address) (nonce : ℕ) :
    (∀ it ∈ after.txStore, isUntilNonce signer nonce it = true → ¬ SentByServer after it) ↔
      ∀ tx ∈ before.txStore, isUntilNonce signer nonce tx = true → SentByServer before tx →
        ∃ e ∈ before.txStore, Covers e tx ∧ Confirmed dependencies.config chain blockNumber e := by
  have hhashed : Hashed dependencies before := hbefore ▸ runCalls_hashed calls
  obtain ⟨hframe, hpassed⟩ := removeConfirmedTransactions_passed
    (fun tx htx => hnode.entryReported (hhashed tx htx)) hpass
  have hsent : ∀ it, SentByServer after it ↔ SentByServer before it := by
    intro it
    rw [hframe]
    rfl
  constructor
  · intro hleft tx htx huntil htxsent
    by_contra hnone
    push Not at hnone
    have hkey : (markedAfter dependencies.config chain blockNumber (getAll before.txStore)
        tx).nonceSigner = tx.nonceSigner := markedAfter_nonceSigner
    refine hleft _ ((hpassed _).mpr ⟨tx, htx, rfl, fun e he hconfirmed hcovers =>
      hnone e (mem_getAll.mp he) hcovers hconfirmed⟩) ?_ ?_
    · rwa [isUntilNonce_congr hkey]
    · rwa [hsent, sentByServer_congr hkey]
  · intro hcovered it hit huntil hitsent
    obtain ⟨tx, htx, rfl, hkept⟩ := (hpassed it).mp hit
    rw [isUntilNonce_congr markedAfter_nonceSigner] at huntil
    rw [hsent, sentByServer_congr markedAfter_nonceSigner] at hitsent
    obtain ⟨e, he, hcovers, hconfirmed⟩ := hcovered tx htx huntil hitsent
    exact hkept e (mem_getAll.mpr he) hconfirmed hcovers

def sampleChain (hash : Hash) (mined : ℕ) : Hash → Option ℕ :=
  fun txId => if txId = hash then some mined else none

def sampleMined (hash : Hash) (mined : ℕ) : Provider :=
  { sampleProvider with
    getTransaction := fun txId =>
      .ok (if txId = hash then some ⟨sampleManager, 0, some mined⟩ else none) }

theorem nodeReports_sampleMined {hash : Hash} {mined : ℕ} {history : List SignedTransaction}
    (h : ∀ signed ∈ history, signed.fromAddress = sampleManager ∧ signed.nonce = 0) :
    NodeReports sampleDependencies (sampleMined hash mined) history (sampleChain hash mined) where
  found signed hsigned response hresponse := by
    obtain ⟨hfrom, hnonce⟩ := h signed hsigned
    by_cases heq : sampleDependencies.keccak256 signed = hash
    · simp only [sampleMined, heq, if_true, Except.ok.injEq, Option.some.injEq] at hresponse
      simp [← hresponse, hfrom, hnonce, heq, sampleChain]
    · simp [sampleMined, heq] at hresponse
  notFound signed _ hresponse := by
    by_cases heq : sampleDependencies.keccak256 signed = hash
    · simp [sampleMined, heq] at hresponse
    · simp [sampleChain, heq]

/-- The refill sent and boosted, when its first version is the one mined. -/
def sampleBoosted : TransactionManager :=
  runCalls sampleDependencies [.sendTransaction sampleProvider sampleRefill,
    .boostUnderpricedPendingTransactionsForSigner sampleProvider sampleManager 110] .initial

def sampleBoostedEntry : StoredTransaction where
  txId := "0/12"
  fromAddress := sampleManager
  attempts := 2
  serverAction := .valueTransfer
  creationBlockNumber := 100
  boostBlockNumber := some 110
  toAddress := some sampleWorker
  gasLimit := some 21000
  gasPrice := some 12
  data := none
  nonce := some 0

theorem getAll_sampleBoosted : getAll sampleBoosted.txStore = [sampleBoostedEntry] := by
  decide +kernel

theorem broadcast_sampleBoosted : sampleBoosted.broadcast =
    [sampleSent.signedTx, resigned sampleBoostedEntry 12] := by
  decide +kernel

theorem removeConfirmedTransactions_sampleBoosted :
    removeConfirmedTransactions sampleDependencies (sampleMined "0/10" 111) 123 sampleBoosted =
      .ok () sampleBoosted := by
  show recheckTransactions _ _ _ (getAll sampleBoosted.txStore) sampleBoosted = _
  rw [getAll_sampleBoosted]
  rfl

theorem sampleBoosted_signed : ∀ signed ∈ sampleBoosted.signed,
    signed.fromAddress = sampleManager ∧ signed.nonce = 0 := by
  decide +kernel

theorem confirmed_refill_leaves_iff :
    (∀ it ∈ sampleBoosted.txStore, isUntilNonce sampleManager 0 it = true →
        ¬ SentByServer sampleBoosted it) ↔
      ∀ tx ∈ sampleBoosted.txStore, isUntilNonce sampleManager 0 tx = true →
        SentByServer sampleBoosted tx → ∃ e ∈ sampleBoosted.txStore, Covers e tx ∧
          Confirmed sampleDependencies.config (sampleChain "0/10" 111) 123 e :=
  confirmed_transactions_leave_iff rfl (nodeReports_sampleMined sampleBoosted_signed)
    removeConfirmedTransactions_sampleBoosted sampleManager 0

/-- The refill's first version is mined, and the store still waits for the second. -/
theorem confirmed_refill_stays :
    ¬ ∀ (dependencies : ServerDependencies) (provider : Provider) (calls : List ManagerCall)
      (after : TransactionManager) (chain : Hash → Option ℕ) (blockNumber : ℕ) (signer : Address)
      (nonce : ℕ),
      NodeReports dependencies provider (runCalls dependencies calls .initial).signed chain →
      AccountPassed dependencies (runCalls dependencies calls .initial) chain signer nonce
        blockNumber →
      removeConfirmedTransactions dependencies provider blockNumber
        (runCalls dependencies calls .initial) = .ok () after →
      ∀ it ∈ after.txStore, isUntilNonce signer nonce it = true → ¬ SentByServer after it := by
  intro h
  have haccount : AccountPassed sampleDependencies sampleBoosted (sampleChain "0/10" 111)
      sampleManager 0 123 := by
    intro signed hsigned _ _
    refine ⟨sampleSent.signedTx, by simp [broadcast_sampleBoosted], ?_, ?_, 111, by decide,
      by decide⟩
    all_goals
      rw [broadcast_sampleBoosted, List.mem_pair] at hsigned
      rcases hsigned with rfl | rfl <;> rfl
  refine h sampleDependencies (sampleMined "0/10" 111) _ sampleBoosted (sampleChain "0/10" 111) 123
    sampleManager 0 (nodeReports_sampleMined sampleBoosted_signed) haccount
    removeConfirmedTransactions_sampleBoosted sampleBoostedEntry ?_ (by decide) ?_
  · rw [← mem_getAll, getAll_sampleBoosted]
    exact List.mem_singleton_self _
  · exact ⟨sampleSent.signedTx, by simp [broadcast_sampleBoosted], rfl, rfl⟩

end RifRelayServer
