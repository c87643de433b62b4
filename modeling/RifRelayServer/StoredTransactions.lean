import RifRelayServer.Requests
import RifRelayServer.Lib.Lookup
import Mathlib.Data.List.Sort
import Mathlib.Data.List.Nodup

/-!
# The transaction store

A stored transaction is what is left of a populated transaction once it has
been signed. The store keeps at most one entry for each nonce of a signer, and
at most one for each transaction hash; a `TxStore` carries both facts.
-/

namespace RifRelayServer

abbrev Hash := String

/-- `toLowerCase`, on the ASCII texts that addresses and hashes are. -/
def toLowerCase (text : String) : List Char := text.toList.map Char.toLower

/-- Equality of checksummed addresses. -/
def isSameAddress (address1 address2 : Address) : Bool :=
  toLowerCase address1 = toLowerCase address2

inductive ServerAction
  | registerServer
  | addWorker
  | relayCall
  | valueTransfer
  | depositWithdrawal
  | penalization
  deriving DecidableEq

structure PopulatedTransaction where
  toAddress : Option Address
  data : Option String
  value : Option ℤ
  gasLimit : Option ℕ
  gasPrice : Option ℕ
  nonce : Option ℕ
  deriving DecidableEq

structure StoredTransactionMetadata where
  txId : Hash
  fromAddress : Address
  attempts : ℕ
  serverAction : ServerAction
  creationBlockNumber : ℕ
  boostBlockNumber : Option ℕ := none
  minedBlockNumber : Option ℕ := none
  deriving DecidableEq

structure StoredTransaction extends StoredTransactionMetadata where
  toAddress : Option Address
  gasLimit : Option ℕ
  gasPrice : Option ℕ
  data : Option String
  nonce : Option ℕ
  deriving DecidableEq

def createStoredTransaction (tx : PopulatedTransaction) (metadata : StoredTransactionMetadata) :
    StoredTransaction where
  toStoredTransactionMetadata := metadata
  toAddress := tx.toAddress
  gasLimit := tx.gasLimit
  gasPrice := tx.gasPrice
  data := tx.data
  nonce := tx.nonce

/-- The key that `putTx` adds to a record: its nonce and its signer in lower case. -/
abbrev NonceSigner := Option ℕ × List Char

def StoredTransaction.nonceSigner (tx : StoredTransaction) : NonceSigner :=
  (tx.nonce, toLowerCase tx.fromAddress)

structure TxStore where
  entries : List StoredTransaction
  nodup_nonceSigner : (entries.map (·.nonceSigner)).Nodup
  nodup_txId : (entries.map (·.txId)).Nodup
  nonce_ne_none : ∀ it ∈ entries, it.nonce ≠ none

namespace TxStore

def empty : TxStore := ⟨[], List.nodup_nil, List.nodup_nil, by simp⟩

instance : Membership StoredTransaction TxStore := ⟨fun store tx => tx ∈ store.entries⟩

@[simp] theorem mem_entries {store : TxStore} {tx : StoredTransaction} :
    tx ∈ store.entries ↔ tx ∈ store := Iff.rfl

@[simp] theorem not_mem_empty (tx : StoredTransaction) : tx ∉ empty := List.not_mem_nil

@[ext] theorem ext {s t : TxStore} (h : s.entries = t.entries) : s = t := by
  cases s
  cases t
  cases h
  rfl

theorem eq_of_nonceSigner {store : TxStore} {a b : StoredTransaction} (ha : a ∈ store)
    (hb : b ∈ store) (h : a.nonceSigner = b.nonceSigner) : a = b :=
  List.inj_on_of_nodup_map store.nodup_nonceSigner ha hb h

theorem eq_of_txId {store : TxStore} {a b : StoredTransaction} (ha : a ∈ store) (hb : b ∈ store)
    (h : a.txId = b.txId) : a = b :=
  List.inj_on_of_nodup_map store.nodup_txId ha hb h

def find? (store : TxStore) (key : NonceSigner) : Option StoredTransaction :=
  store.entries.find? fun it => it.nonceSigner = key

theorem find?_eq_some_iff {store : TxStore} {key : NonceSigner} {tx : StoredTransaction} :
    store.find? key = some tx ↔ tx ∈ store ∧ tx.nonceSigner = key :=
  Lookup.lookup_eq_some_iff store.nodup_nonceSigner

theorem find?_eq_none_iff {store : TxStore} {key : NonceSigner} :
    store.find? key = none ↔ ∀ tx ∈ store, tx.nonceSigner ≠ key :=
  Lookup.lookup_eq_none_iff

/-- `asyncInsert` of a record whose key and hash are both free. -/
def insert (store : TxStore) (tx : StoredTransaction) (hnonce : tx.nonce ≠ none)
    (hkey : ∀ it ∈ store, it.nonceSigner ≠ tx.nonceSigner) (hid : ∀ it ∈ store, it.txId ≠ tx.txId) :
    TxStore where
  entries := store.entries ++ [tx]
  nodup_nonceSigner := by
    rw [List.map_append, List.nodup_append]
    refine ⟨store.nodup_nonceSigner, List.nodup_singleton _, ?_⟩
    simpa using hkey
  nodup_txId := by
    rw [List.map_append, List.nodup_append]
    refine ⟨store.nodup_txId, List.nodup_singleton _, ?_⟩
    simpa using hid
  nonce_ne_none := by
    simpa [or_imp, forall_and] using And.intro store.nonce_ne_none hnonce

/-- `asyncUpdate` of the entry that holds the key of `tx`, when no other entry
holds its hash. -/
def update (store : TxStore) (tx : StoredTransaction) (hnonce : tx.nonce ≠ none)
    (hid : ∀ it ∈ store, it.nonceSigner ≠ tx.nonceSigner → it.txId ≠ tx.txId) : TxStore where
  entries := store.entries.map fun it => if it.nonceSigner = tx.nonceSigner then tx else it
  nodup_nonceSigner := by
    have hkeys : (store.entries.map fun it =>
        if it.nonceSigner = tx.nonceSigner then tx else it).map (·.nonceSigner) =
        store.entries.map (·.nonceSigner) := by
      rw [List.map_map]
      apply List.map_congr_left
      intro it _
      by_cases h : it.nonceSigner = tx.nonceSigner <;> simp [h]
    rw [hkeys]
    exact store.nodup_nonceSigner
  nodup_txId := by
    rw [List.map_map]
    refine List.Nodup.map_on ?_ (List.Nodup.of_map _ store.nodup_txId)
    intro a ha b hb hab
    by_cases hka : a.nonceSigner = tx.nonceSigner <;>
      by_cases hkb : b.nonceSigner = tx.nonceSigner
    · exact eq_of_nonceSigner ha hb (hka.trans hkb.symm)
    · exact absurd (by simpa [hka, hkb] using hab.symm) (hid b hb hkb)
    · exact absurd (by simpa [hka, hkb] using hab) (hid a ha hka)
    · exact eq_of_txId ha hb (by simpa [hka, hkb] using hab)
  nonce_ne_none := by
    simp only [List.mem_map]
    rintro _ ⟨it, hit, rfl⟩
    by_cases hk : it.nonceSigner = tx.nonceSigner
    · simpa [hk] using hnonce
    · simpa [hk] using store.nonce_ne_none it hit

/-- `asyncRemove` with `multi`. -/
def filter (store : TxStore) (keep : StoredTransaction → Bool) : TxStore where
  entries := store.entries.filter keep
  nodup_nonceSigner := (List.filter_sublist.map _).nodup store.nodup_nonceSigner
  nodup_txId := (List.filter_sublist.map _).nodup store.nodup_txId
  nonce_ne_none it hit := store.nonce_ne_none it (List.mem_of_mem_filter hit)

@[simp] theorem mem_insert {store : TxStore} {tx it : StoredTransaction} {hnonce : tx.nonce ≠ none}
    {hkey : ∀ it ∈ store, it.nonceSigner ≠ tx.nonceSigner}
    {hid : ∀ it ∈ store, it.txId ≠ tx.txId} :
    it ∈ store.insert tx hnonce hkey hid ↔ it ∈ store ∨ it = tx := by
  simp [← mem_entries, insert]

theorem mem_update {store : TxStore} {tx it : StoredTransaction} {hnonce : tx.nonce ≠ none}
    {hid : ∀ it ∈ store, it.nonceSigner ≠ tx.nonceSigner → it.txId ≠ tx.txId} :
    it ∈ store.update tx hnonce hid ↔
      (it ∈ store ∧ it.nonceSigner ≠ tx.nonceSigner) ∨
        (it = tx ∧ ∃ old ∈ store, old.nonceSigner = tx.nonceSigner) := by
  simp only [← mem_entries, update, List.mem_map]
  constructor
  · rintro ⟨old, hold, rfl⟩
    by_cases hk : old.nonceSigner = tx.nonceSigner
    · exact Or.inr ⟨if_pos hk, old, hold, hk⟩
    · rw [if_neg hk]
      exact Or.inl ⟨hold, hk⟩
  · rintro (⟨hit, hk⟩ | ⟨rfl, old, hold, hk⟩)
    · exact ⟨it, hit, if_neg hk⟩
    · exact ⟨old, hold, if_pos hk⟩

@[simp] theorem mem_filter {store : TxStore} {keep : StoredTransaction → Bool}
    {it : StoredTransaction} : it ∈ store.filter keep ↔ it ∈ store ∧ keep it = true := by
  simp [← mem_entries, filter]

end TxStore

/-- What the message begins with; the record follows. -/
def invalidTx : String := "Invalid tx:"

/-- What the database says of the key that a record would be the second to have. -/
def uniqueConstraintViolated : String := "it violates the unique constraint"

def putTx (store : TxStore) (tx : StoredTransaction) (updateExisting : Bool) :
    Except String TxStore :=
  if hinvalid : tx.txId = "" ∨ tx.attempts = 0 ∨ tx.nonce = none then .error invalidTx
  else
    have hnonce : tx.nonce ≠ none := fun h => hinvalid (Or.inr (Or.inr h))
    match hfind : store.find? tx.nonceSigner with
    | some _ =>
        if !updateExisting then .error uniqueConstraintViolated
        else if hid : ∀ it ∈ store.entries,
            it.nonceSigner ≠ tx.nonceSigner → it.txId ≠ tx.txId then
          .ok (store.update tx hnonce hid)
        else .error uniqueConstraintViolated
    | none =>
        if hid : ∀ it ∈ store.entries, it.txId ≠ tx.txId then
          .ok (store.insert tx hnonce (TxStore.find?_eq_none_iff.mp hfind) hid)
        else .error uniqueConstraintViolated

def isUntilNonce (signer : Address) (nonce : ℕ) (it : StoredTransaction) : Bool :=
  it.nonce.any (· ≤ nonce) && toLowerCase it.fromAddress = toLowerCase signer

def removeTxsUntilNonce (store : TxStore) (signer : Address) (nonce : ℕ) : TxStore :=
  store.filter fun it => !isUntilNonce signer nonce it

def sortTransactionsByNonce (txs : List StoredTransaction) : List StoredTransaction :=
  txs.insertionSort fun tx1 tx2 => tx1.nonce.getD 0 ≤ tx2.nonce.getD 0

def getAllBySigner (store : TxStore) (signer : Address) : List StoredTransaction :=
  sortTransactionsByNonce
    (store.entries.filter fun it => toLowerCase it.fromAddress = toLowerCase signer)

def getAll (store : TxStore) : List StoredTransaction :=
  sortTransactionsByNonce store.entries

def isActionPending (store : TxStore) (serverAction : ServerAction)
    (destination : Option Address) : Bool :=
  (getAll store).any fun it =>
    it.minedBlockNumber.isNone && it.serverAction = serverAction &&
      destination.all fun address => it.toAddress.any (isSameAddress · address)

/-- What a successful write does: it puts a record under a free key, or in the
place of the entry under its key. -/
theorem putTx_cases {store store' : TxStore} {tx : StoredTransaction} {updateExisting : Bool}
    (h : putTx store tx updateExisting = .ok store') :
    (∃ hnonce hkey hid, store' = store.insert tx hnonce hkey hid) ∨
      updateExisting = true ∧ (∃ old ∈ store, old.nonceSigner = tx.nonceSigner) ∧
        ∃ hnonce hid, store' = store.update tx hnonce hid := by
  unfold putTx at h
  split at h
  · cases h
  split at h
  next old hfind =>
    obtain ⟨hold, hkey⟩ := TxStore.find?_eq_some_iff.mp hfind
    split at h
    · cases h
    next hupdate =>
      split at h
      next hid =>
        cases h
        exact Or.inr ⟨by simpa using hupdate, ⟨old, hold, hkey⟩, _, hid, rfl⟩
      · cases h
  next hfind =>
    split at h
    next hid =>
      cases h
      exact Or.inl ⟨_, _, hid, rfl⟩
    · cases h

/-- The check that `putTx` makes of every record. -/
def StoredTransaction.isStorable (tx : StoredTransaction) : Bool :=
  tx.txId ≠ "" && tx.attempts ≠ 0 && tx.nonce.isSome

theorem StoredTransaction.valid_of_isStorable (tx : StoredTransaction) (h : tx.isStorable = true) :
    ¬ (tx.txId = "" ∨ tx.attempts = 0 ∨ tx.nonce = none) := by
  simpa [isStorable, Option.isSome_iff_ne_none, and_assoc] using h

theorem exists_putTx_update {store : TxStore} {tx : StoredTransaction}
    (hstorable : tx.isStorable = true)
    (hunique : ∀ it ∈ store, it.nonceSigner ≠ tx.nonceSigner → it.txId ≠ tx.txId) :
    ∃ store', putTx store tx true = .ok store' := by
  unfold putTx
  rw [dif_neg (tx.valid_of_isStorable hstorable)]
  split
  · exact ⟨_, dif_pos hunique⟩
  next hfind =>
    exact ⟨_, dif_pos fun it hit => hunique it hit (TxStore.find?_eq_none_iff.mp hfind it hit)⟩

theorem mem_of_putTx {store store' : TxStore} {tx : StoredTransaction} {updateExisting : Bool}
    (h : putTx store tx updateExisting = .ok store') (it : StoredTransaction) :
    it ∈ store' ↔ (it ∈ store ∧ it.nonceSigner ≠ tx.nonceSigner) ∨ it = tx := by
  rcases putTx_cases h with ⟨-, hkey, hid, rfl⟩ | ⟨-, hold, -, hid, rfl⟩
  · rw [TxStore.mem_insert]
    exact or_congr_left ⟨fun hit => ⟨hit, hkey it hit⟩, And.left⟩
  · rw [TxStore.mem_update]
    simp [hold]

@[simp] theorem mem_getAll {store : TxStore} {it : StoredTransaction} :
    it ∈ getAll store ↔ it ∈ store := by
  simp [getAll, sortTransactionsByNonce]

@[simp] theorem mem_getAllBySigner {store : TxStore} {signer : Address} {it : StoredTransaction} :
    it ∈ getAllBySigner store signer ↔
      it ∈ store ∧ toLowerCase it.fromAddress = toLowerCase signer := by
  simp [getAllBySigner, sortTransactionsByNonce]

theorem pairwise_sortTransactionsByNonce (txs : List StoredTransaction) :
    (sortTransactionsByNonce txs).Pairwise fun tx1 tx2 => tx1.nonce.getD 0 ≤ tx2.nonce.getD 0 := by
  have htotal : Std.Total fun tx1 tx2 : StoredTransaction =>
      tx1.nonce.getD 0 ≤ tx2.nonce.getD 0 := ⟨fun _ _ => le_total _ _⟩
  have htrans : IsTrans StoredTransaction fun tx1 tx2 =>
      tx1.nonce.getD 0 ≤ tx2.nonce.getD 0 := ⟨fun _ _ _ => le_trans⟩
  exact List.pairwise_insertionSort _ txs

theorem nodup_getAll (store : TxStore) : (getAll store).Nodup :=
  (List.perm_insertionSort _ _).nodup_iff.mpr (List.Nodup.of_map _ store.nodup_txId)

theorem mem_removeTxsUntilNonce {store : TxStore} {signer : Address} {nonce : ℕ}
    {it : StoredTransaction} :
    it ∈ removeTxsUntilNonce store signer nonce ↔
      it ∈ store ∧ isUntilNonce signer nonce it = false := by
  simp [removeTxsUntilNonce]

end RifRelayServer
