import RifRelayServer.StoredTransactions
import Mathlib

/-!
# The store as a map

The entries of the store are found under the lower-cased signer and the nonce. A write
is checked against both indexes of the database, finds the entry by its key and updates
it by its hash; seen from outside, the store is a map from keys to transactions.
-/

namespace RifRelayServer

/-- A record as it is given to `putTx`. A field that is left out is not the same as one
that is undefined: an update keeps the first and clears the second. -/
structure TxRecord where
  txId : Option Hash
  fromAddress : Address
  attempts : ℕ
  serverAction : ServerAction
  creationBlockNumber : ℕ
  boostBlockNumber : Option (Option ℕ) := none
  minedBlockNumber : Option (Option ℕ) := none
  toAddress : Option (Option Address) := none
  gasLimit : Option (Option ℕ) := none
  gasPrice : Option (Option ℕ) := none
  data : Option (Option String) := none
  nonce : Option ℕ

/-- A record with every field. -/
def TxRecord.ofStored (tx : StoredTransaction) : TxRecord where
  txId := some tx.txId
  fromAddress := tx.fromAddress
  attempts := tx.attempts
  serverAction := tx.serverAction
  creationBlockNumber := tx.creationBlockNumber
  boostBlockNumber := some tx.boostBlockNumber
  minedBlockNumber := some tx.minedBlockNumber
  toAddress := some tx.toAddress
  gasLimit := some tx.gasLimit
  gasPrice := some tx.gasPrice
  data := some tx.data
  nonce := tx.nonce

/-- The hash and the nonce of a record that passes the check of `putTx`. -/
def TxRecord.validated (record : TxRecord) : Option (Hash × ℕ) :=
  match record.txId, record.nonce with
  | some txId, some nonce =>
      if txId = "" ∨ record.attempts = 0 then none else some (txId, nonce)
  | _, _ => none

theorem validated_eq_some_iff {record : TxRecord} {txId : Hash} {nonce : ℕ} :
    record.validated = some (txId, nonce) ↔
      record.txId = some txId ∧ record.nonce = some nonce ∧ txId ≠ "" ∧ record.attempts ≠ 0 := by
  unfold TxRecord.validated
  cases record.txId <;> cases record.nonce <;> grind

/-- The record in the place of an entry, or of none: `$set` keeps what is left out. -/
def TxRecord.setOn (record : TxRecord) (txId : Hash) (nonce : ℕ) (old : Option StoredTransaction) :
    StoredTransaction where
  txId := txId
  fromAddress := record.fromAddress
  attempts := record.attempts
  serverAction := record.serverAction
  creationBlockNumber := record.creationBlockNumber
  boostBlockNumber := record.boostBlockNumber.getD (old.bind (·.boostBlockNumber))
  minedBlockNumber := record.minedBlockNumber.getD (old.bind (·.minedBlockNumber))
  toAddress := record.toAddress.getD (old.bind (·.toAddress))
  gasLimit := record.gasLimit.getD (old.bind (·.gasLimit))
  gasPrice := record.gasPrice.getD (old.bind (·.gasPrice))
  data := record.data.getD (old.bind (·.data))
  nonce := some nonce

/-- How a field is set: to what is given, which may be undefined, or left as it was. -/
structure IsSet {α : Type} (given : Option (Option α)) (before after : Option α) : Prop where
  assigned : ∀ value, given = some value → after = value
  kept : given = none → after = before

theorem isSet_iff {α : Type} {given : Option (Option α)} {before after : Option α} :
    IsSet given before after ↔ given.getD before = after := by
  cases given with
  | none => exact ⟨fun h => (h.kept rfl).symm, fun h => ⟨nofun, fun _ => h.symm⟩⟩
  | some value =>
      refine ⟨fun h => (h.assigned value rfl).symm, fun h => ⟨fun _ heq => ?_, nofun⟩⟩
      exact h.symm.trans (Option.some.inj heq)

/-- The entry after the write has the record's own fields, and each optional one as it is set. -/
theorem TxRecord.setOn_eq_iff {record : TxRecord} {txId : Hash} {nonce : ℕ}
    {old : Option StoredTransaction} {tx : StoredTransaction} :
    record.setOn txId nonce old = tx ↔
      (tx.txId = txId ∧ tx.fromAddress = record.fromAddress ∧ tx.nonce = some nonce) ∧
      (tx.attempts = record.attempts ∧ tx.serverAction = record.serverAction ∧
        tx.creationBlockNumber = record.creationBlockNumber) ∧
      (IsSet record.boostBlockNumber (old.bind (·.boostBlockNumber)) tx.boostBlockNumber ∧
        IsSet record.minedBlockNumber (old.bind (·.minedBlockNumber)) tx.minedBlockNumber) ∧
      IsSet record.toAddress (old.bind (·.toAddress)) tx.toAddress ∧
      IsSet record.gasLimit (old.bind (·.gasLimit)) tx.gasLimit ∧
      IsSet record.gasPrice (old.bind (·.gasPrice)) tx.gasPrice ∧
      IsSet record.data (old.bind (·.data)) tx.data := by
  simp only [isSet_iff]
  constructor
  · rintro rfl
    exact ⟨⟨rfl, rfl, rfl⟩, ⟨rfl, rfl, rfl⟩, ⟨rfl, rfl⟩, rfl, rfl, rfl, rfl⟩
  · rintro ⟨⟨rfl, hfrom, hnonce⟩, ⟨hattempts, haction, hblock⟩, ⟨hboost, hmined⟩, hto, hlimit, hprice,
      hdata⟩
    rw [TxRecord.setOn, ← hfrom, ← hattempts, ← haction, ← hblock, hboost, hmined, hto, hlimit,
      hprice, hdata, ← hnonce]

theorem TxRecord.nonce_setOn_ne_none (record : TxRecord) (txId : Hash) (nonce : ℕ)
    (old : Option StoredTransaction) : (record.setOn txId nonce old).nonce ≠ none :=
  Option.some_ne_none nonce

namespace TxStore

/-- `asyncInsert`: refused when either index holds the document's value already. -/
def asyncInsert (store : TxStore) (tx : StoredTransaction) (hnonce : tx.nonce ≠ none) :
    Except String TxStore :=
  if h : (∀ it ∈ store.entries, it.nonceSigner ≠ tx.nonceSigner) ∧
      ∀ it ∈ store.entries, it.txId ≠ tx.txId then
    .ok (store.insert tx hnonce h.1 h.2)
  else .error uniqueConstraintViolated

/-- `asyncUpdate` of what has the given hash: refused when the outcome violates an index. -/
def asyncUpdate (store : TxStore) (txId : Hash) (set : StoredTransaction → StoredTransaction)
    (hnonce : ∀ it, (set it).nonce ≠ none) : Except String TxStore :=
  let entries := store.entries.map fun it => if it.txId = txId then set it else it
  if h : (entries.map (·.nonceSigner)).Nodup ∧ (entries.map (·.txId)).Nodup then
    .ok {
      entries
      nodup_nonceSigner := h.1
      nodup_txId := h.2
      nonce_ne_none := by
        simp only [entries, List.mem_map]
        rintro _ ⟨it, hit, rfl⟩
        split
        · exact hnonce it
        · exact store.nonce_ne_none it hit }
  else .error uniqueConstraintViolated

end TxStore

/-- `putTx` of a record that may leave fields out. -/
def putRecord (store : TxStore) (record : TxRecord) (updateExisting : Bool) :
    Except String TxStore :=
  match record.validated with
  | none => .error invalidTx
  | some (txId, nonce) =>
      match store.find? (some nonce, toLowerCase record.fromAddress), updateExisting with
      | some existing, true => store.asyncUpdate existing.txId
          (fun it => record.setOn txId nonce (some it))
          fun it => record.nonce_setOn_ne_none txId nonce (some it)
      | _, _ => store.asyncInsert (record.setOn txId nonce none)
          (record.nonce_setOn_ne_none txId nonce none)

def clearAll (store : TxStore) : TxStore := store.filter fun _ => false

inductive StoreCall
  | putTx (record : TxRecord) (updateExisting : Bool)
  | removeTxsUntilNonce (signer : Address) (nonce : ℕ)
  | clearAll

def StoreCall.run (store : TxStore) : StoreCall → Except String TxStore
  | putTx record updateExisting => putRecord store record updateExisting
  | removeTxsUntilNonce signer nonce => .ok (RifRelayServer.removeTxsUntilNonce store signer nonce)
  | clearAll => .ok (RifRelayServer.clearAll store)

/-- The state after calls, and what each of them threw. One that throws changes nothing. -/
def runStoreCalls {σ : Type} (run : σ → StoreCall → Except String σ) (s : σ) :
    List StoreCall → σ × List (Option String)
  | [] => (s, [])
  | call :: calls =>
      match run s call with
      | .ok s' => ((runStoreCalls run s' calls).1, none :: (runStoreCalls run s' calls).2)
      | .error e => ((runStoreCalls run s calls).1, some e :: (runStoreCalls run s calls).2)

/-- The lower-cased signer and the nonce. -/
abbrev TxKey := List Char × ℕ

/-- What the store is for: the transaction there is for a nonce of a signer. -/
abbrev TxMap := TxKey → Option StoredTransaction

namespace TxMap

def TakenByOther (m : TxMap) (key : TxKey) (txId : Hash) : Prop :=
  ∃ other, other ≠ key ∧ ∃ tx, m other = some tx ∧ tx.txId = txId

open Classical in
noncomputable def put (m : TxMap) (record : TxRecord) (updateExisting : Bool) :
    Except String TxMap :=
  match record.validated with
  | none => .error invalidTx
  | some (txId, nonce) =>
      let key := (toLowerCase record.fromAddress, nonce)
      if ((m key).isSome ∧ updateExisting = false) ∨ m.TakenByOther key txId then
        .error uniqueConstraintViolated
      else .ok (Function.update m key (some (record.setOn txId nonce (m key))))

def removeUntil (m : TxMap) (signer : Address) (nonce : ℕ) : TxMap := fun key =>
  if key.1 = toLowerCase signer ∧ key.2 ≤ nonce then none else m key

noncomputable def run (m : TxMap) : StoreCall → Except String TxMap
  | .putTx record updateExisting => m.put record updateExisting
  | .removeTxsUntilNonce signer nonce => .ok (m.removeUntil signer nonce)
  | .clearAll => .ok fun _ => none

end TxMap

def TxStore.contents (store : TxStore) : TxMap := fun key => store.find? (some key.2, key.1)

section Contents

variable {store : TxStore} {tx existing : StoredTransaction} {key : TxKey} {txId : Hash}

theorem contents_eq_some_iff :
    store.contents key = some tx ↔ tx ∈ store ∧ tx.nonceSigner = (some key.2, key.1) :=
  TxStore.find?_eq_some_iff

theorem mem_iff_contents : tx ∈ store ↔ ∃ key, store.contents key = some tx := by
  constructor
  · intro hmem
    obtain ⟨nonce, hnonce⟩ := Option.ne_none_iff_exists'.mp (store.nonce_ne_none tx hmem)
    exact ⟨(toLowerCase tx.fromAddress, nonce),
      contents_eq_some_iff.mpr ⟨hmem, by rw [StoredTransaction.nonceSigner, hnonce]⟩⟩
  · rintro ⟨key, hkey⟩
    exact (contents_eq_some_iff.mp hkey).1

theorem takenByOther_contents_iff :
    store.contents.TakenByOther key txId ↔
      ∃ it ∈ store, it.nonceSigner ≠ (some key.2, key.1) ∧ it.txId = txId := by
  constructor
  · rintro ⟨other, hne, it, hother, hid⟩
    obtain ⟨hmem, hkey⟩ := contents_eq_some_iff.mp hother
    refine ⟨it, hmem, fun heq => hne ?_, hid⟩
    rw [hkey] at heq
    exact Prod.ext (congrArg Prod.snd heq) (Option.some.inj (congrArg Prod.fst heq))
  · rintro ⟨it, hmem, hne, hid⟩
    obtain ⟨other, hother⟩ := mem_iff_contents.mp hmem
    refine ⟨other, fun heq => hne ?_, it, hother, hid⟩
    rw [(contents_eq_some_iff.mp hother).2, heq]

/-- What is found under a key after a change under one nonce of a signer. -/
theorem contents_of_update {store' : TxStore}
    (h : store'.find? = Function.update store.find? (some key.2, key.1) (some tx)) :
    store'.contents = Function.update store.contents key (some tx) := by
  have hinj : Function.Injective fun key : TxKey => ((some key.2, key.1) : NonceSigner) := by
    intro key other heq
    exact Prod.ext (congrArg Prod.snd heq) (Option.some.inj (congrArg Prod.fst heq))
  have hcomp := Function.update_comp_eq_of_injective store.find? hinj key (some tx)
  rw [← h] at hcomp
  exact hcomp

theorem find?_insert {hnonce : tx.nonce ≠ none}
    {hkey : ∀ it ∈ store, it.nonceSigner ≠ tx.nonceSigner}
    {hid : ∀ it ∈ store, it.txId ≠ tx.txId} :
    (store.insert tx hnonce hkey hid).find? =
      Function.update store.find? tx.nonceSigner (some tx) :=
  Lookup.lookup_append_singleton (Lookup.lookup_eq_none_iff.mpr hkey)

theorem find?_update {hnonce : tx.nonce ≠ none}
    {hid : ∀ it ∈ store, it.nonceSigner ≠ tx.nonceSigner → it.txId ≠ tx.txId}
    (hmem : existing ∈ store) (hkey : existing.nonceSigner = tx.nonceSigner) :
    (store.update tx hnonce hid).find? =
      Function.update store.find? tx.nonceSigner (some tx) := by
  have hset := Lookup.lookup_map_of_only store.nodup_nonceSigner hmem
    (f := fun it => if it.nonceSigner = tx.nonceSigner then tx else it)
    (by simp [hkey]) fun other hother hne =>
      if_neg fun heq => hne (TxStore.eq_of_nonceSigner hother hmem (heq.trans hkey.symm))
  simp only [hkey, if_true] at hset
  exact hset

theorem StoredTransaction.nonce_ne_none (h : tx.isStorable = true) : tx.nonce ≠ none := by
  rw [StoredTransaction.isStorable, Bool.and_eq_true] at h
  exact Option.isSome_iff_ne_none.mp h.2

theorem putTx_of_free (hstorable : tx.isStorable = true)
    (hfind : store.find? tx.nonceSigner = none) (updateExisting : Bool) :
    putTx store tx updateExisting = store.asyncInsert tx (tx.nonce_ne_none hstorable) := by
  have hfree := TxStore.find?_eq_none_iff.mp hfind
  unfold putTx
  rw [dif_neg (tx.valid_of_isStorable hstorable)]
  split
  next old hold => cases hfind.symm.trans hold
  · by_cases hid : ∀ it ∈ store.entries, it.txId ≠ tx.txId
    · rw [dif_pos hid, TxStore.asyncInsert, dif_pos ⟨hfree, hid⟩]
    · rw [dif_neg hid, TxStore.asyncInsert, dif_neg fun h => hid h.2]

theorem putTx_of_held (hstorable : tx.isStorable = true) (hmem : existing ∈ store)
    (hkey : existing.nonceSigner = tx.nonceSigner) (updateExisting : Bool) :
    putTx store tx updateExisting =
      if updateExisting = false then .error uniqueConstraintViolated
      else if hid : ∀ it ∈ store.entries, it.nonceSigner ≠ tx.nonceSigner → it.txId ≠ tx.txId then
        .ok (store.update tx (tx.nonce_ne_none hstorable) hid)
      else .error uniqueConstraintViolated := by
  unfold putTx
  rw [dif_neg (tx.valid_of_isStorable hstorable)]
  split
  · cases updateExisting <;> rfl
  next hfind => exact absurd hkey (TxStore.find?_eq_none_iff.mp hfind existing hmem)

open Classical in
/-- A write of a record that passes the check is a write to the map. -/
theorem contents_putTx {nonce : ℕ} (updateExisting : Bool) (hstorable : tx.isStorable = true)
    (hnonce : tx.nonce = some nonce) (hkey : key = (toLowerCase tx.fromAddress, nonce)) :
    (putTx store tx updateExisting).map TxStore.contents =
      if ((store.contents key).isSome ∧ updateExisting = false) ∨
          store.contents.TakenByOther key tx.txId then .error uniqueConstraintViolated
      else .ok (Function.update store.contents key (some tx)) := by
  have hns : tx.nonceSigner = (some key.2, key.1) := by
    rw [StoredTransaction.nonceSigner, hnonce, hkey]
  have htaken : store.contents.TakenByOther key tx.txId ↔
      ¬ ∀ it ∈ store.entries, it.nonceSigner ≠ tx.nonceSigner → it.txId ≠ tx.txId := by
    rw [takenByOther_contents_iff, ← hns]
    push Not
    rfl
  have hfound : store.contents key = store.find? tx.nonceSigner := by
    rw [hns]
    rfl
  cases hfind : store.find? tx.nonceSigner with
  | some old =>
      obtain ⟨hold, holdKey⟩ := TxStore.find?_eq_some_iff.mp hfind
      rw [putTx_of_held hstorable hold holdKey, hfound.trans hfind]
      cases updateExisting with
      | false => simp [Except.map]
      | true =>
          by_cases hid : ∀ it ∈ store.entries, it.nonceSigner ≠ tx.nonceSigner → it.txId ≠ tx.txId
          · rw [if_neg (by decide), dif_pos hid, if_neg (by simpa [htaken] using hid)]
            refine congrArg Except.ok (contents_of_update ?_)
            rw [find?_update hold holdKey, hns]
          · rw [if_neg (by decide), dif_neg hid, if_pos (Or.inr (htaken.mpr hid))]
            rfl
  | none =>
      have hfree := TxStore.find?_eq_none_iff.mp hfind
      rw [putTx_of_free hstorable hfind, hfound.trans hfind, TxStore.asyncInsert]
      by_cases hid : ∀ it ∈ store.entries, it.txId ≠ tx.txId
      · rw [dif_pos ⟨hfree, hid⟩, if_neg (by simpa [htaken] using fun it hit _ => hid it hit)]
        refine congrArg Except.ok (contents_of_update ?_)
        rw [find?_insert, hns]
      · rw [dif_neg fun h => hid h.2,
          if_pos (Or.inr (htaken.mpr fun h => hid fun it hit => h it hit (hfree it hit)))]
        rfl

theorem map_set_of_txId (hmem : existing ∈ store) {set : StoredTransaction → StoredTransaction}
    (hkey : (set existing).nonceSigner = existing.nonceSigner) :
    (store.entries.map fun it => if it.txId = existing.txId then set it else it) =
      store.entries.map fun it =>
        if it.nonceSigner = (set existing).nonceSigner then set existing else it := by
  apply List.map_congr_left
  intro it hit
  rcases eq_or_ne it existing with rfl | hne
  · rw [if_pos rfl, if_pos hkey.symm]
  · rw [if_neg fun heq => hne (TxStore.eq_of_txId hit hmem heq),
      if_neg fun heq => hne (TxStore.eq_of_nonceSigner hit hmem (heq.trans hkey))]

/-- The update of an entry by its hash is the update of its key. -/
theorem asyncUpdate_eq (hmem : existing ∈ store) {set : StoredTransaction → StoredTransaction}
    (hnonce : ∀ it, (set it).nonce ≠ none)
    (hkey : (set existing).nonceSigner = existing.nonceSigner) :
    store.asyncUpdate existing.txId set hnonce =
      if hid : ∀ it ∈ store.entries,
          it.nonceSigner ≠ (set existing).nonceSigner → it.txId ≠ (set existing).txId then
        .ok (store.update (set existing) (hnonce existing) hid)
      else .error uniqueConstraintViolated := by
  have hentries := map_set_of_txId hmem hkey
  by_cases hid : ∀ it ∈ store.entries,
      it.nonceSigner ≠ (set existing).nonceSigner → it.txId ≠ (set existing).txId
  · have hkeys := (store.update (set existing) (hnonce existing) hid).nodup_nonceSigner
    have hids := (store.update (set existing) (hnonce existing) hid).nodup_txId
    rw [dif_pos hid, TxStore.asyncUpdate, dif_pos (by rw [hentries]; exact ⟨hkeys, hids⟩)]
    exact congrArg Except.ok (TxStore.ext hentries)
  · rw [dif_neg hid, TxStore.asyncUpdate, dif_neg]
    rintro ⟨-, hids⟩
    refine hid fun it hit hne heq => hne ?_
    rw [hentries, List.map_map] at hids
    rw [hkey]
    refine congrArg _ (List.inj_on_of_nodup_map hids hit hmem ?_)
    simp only [Function.comp_apply, if_neg hne, if_pos hkey.symm, heq]

variable {record : TxRecord} {nonce : ℕ}

theorem isStorable_setOn (h : record.validated = some (txId, nonce))
    (old : Option StoredTransaction) : (record.setOn txId nonce old).isStorable = true := by
  obtain ⟨-, -, hid, hattempts⟩ := validated_eq_some_iff.mp h
  simp [StoredTransaction.isStorable, TxRecord.setOn, hid, hattempts]

/-- A record is written as it is once the fields it leaves out are filled in. -/
theorem putRecord_eq_putTx (h : record.validated = some (txId, nonce)) (store : TxStore)
    (updateExisting : Bool) :
    putRecord store record updateExisting =
      putTx store (record.setOn txId nonce
        (store.find? (some nonce, toLowerCase record.fromAddress))) updateExisting := by
  have hkey : ∀ old, (record.setOn txId nonce old).nonceSigner =
      (some nonce, toLowerCase record.fromAddress) := fun _ => rfl
  unfold putRecord
  rw [h]
  dsimp only
  cases hfind : store.find? (some nonce, toLowerCase record.fromAddress) with
  | none =>
      rw [putTx_of_free (isStorable_setOn h none) hfind]
  | some existing =>
      obtain ⟨hmem, hexisting⟩ := TxStore.find?_eq_some_iff.mp hfind
      rw [putTx_of_held (isStorable_setOn h _) hmem hexisting]
      cases updateExisting with
      | false => exact dif_neg fun hfree => hfree.1 existing hmem hexisting
      | true =>
          rw [if_neg (by decide)]
          exact asyncUpdate_eq hmem (fun it => record.nonce_setOn_ne_none txId nonce (some it))
            hexisting.symm

theorem setOn_ofStored (hnonce : tx.nonce = some nonce) (old : Option StoredTransaction) :
    (TxRecord.ofStored tx).setOn tx.txId nonce old = tx := by
  have hset : ∀ {α : Type} (field before : Option α), IsSet (some field) before field :=
    fun _ _ => isSet_iff.mpr rfl
  exact TxRecord.setOn_eq_iff.mpr ⟨⟨rfl, rfl, hnonce⟩, ⟨rfl, rfl, rfl⟩, ⟨hset _ _, hset _ _⟩,
    hset _ _, hset _ _, hset _ _, hset _ _⟩

/-- A record with every field takes the place of the entry. -/
theorem putRecord_ofStored (store : TxStore) (tx : StoredTransaction) (updateExisting : Bool) :
    putRecord store (.ofStored tx) updateExisting = putTx store tx updateExisting := by
  cases hvalidated : (TxRecord.ofStored tx).validated with
  | some checked =>
      obtain ⟨txId, nonce⟩ := checked
      obtain ⟨hid, hnonce, -, -⟩ := validated_eq_some_iff.mp hvalidated
      obtain rfl := Option.some.inj hid
      rw [putRecord_eq_putTx hvalidated, setOn_ofStored hnonce]
  | none =>
      have hinvalid : tx.txId = "" ∨ tx.attempts = 0 ∨ tx.nonce = none := by
        by_contra hvalid
        push Not at hvalid
        obtain ⟨nonce, hnonce⟩ := Option.ne_none_iff_exists'.mp hvalid.2.2
        have hsome : (TxRecord.ofStored tx).validated = some (tx.txId, nonce) :=
          validated_eq_some_iff.mpr ⟨rfl, hnonce, hvalid.1, hvalid.2.1⟩
        cases hvalidated.symm.trans hsome
      rw [putRecord, hvalidated, putTx, dif_pos hinvalid]

theorem contents_putRecord (store : TxStore) (record : TxRecord) (updateExisting : Bool) :
    (putRecord store record updateExisting).map TxStore.contents =
      store.contents.put record updateExisting := by
  unfold TxMap.put
  cases h : record.validated with
  | none => rw [putRecord, h]; rfl
  | some checked =>
      obtain ⟨txId, nonce⟩ := checked
      rw [putRecord_eq_putTx h]
      exact contents_putTx updateExisting (isStorable_setOn h _) rfl rfl

theorem contents_filter (keep : StoredTransaction → Bool) :
    (store.filter keep).contents key = (store.contents key).filter keep :=
  Lookup.lookup_filter store.nodup_nonceSigner keep

theorem contents_removeTxsUntilNonce (store : TxStore) (signer : Address) (nonce : ℕ) :
    (removeTxsUntilNonce store signer nonce).contents = store.contents.removeUntil signer nonce := by
  funext key
  rw [removeTxsUntilNonce, contents_filter, TxMap.removeUntil]
  cases hfound : store.contents key with
  | none => simp
  | some tx =>
      obtain ⟨-, hkey⟩ := contents_eq_some_iff.mp hfound
      have hnonce : tx.nonce = some key.2 := congrArg Prod.fst hkey
      have hsigner : toLowerCase tx.fromAddress = key.1 := congrArg Prod.snd hkey
      simp only [isUntilNonce, hnonce, hsigner, Option.filter_some]
      grind

theorem contents_clearAll (store : TxStore) : (clearAll store).contents = fun _ => none := by
  funext key
  rw [clearAll, contents_filter]
  cases store.contents key <;> rfl

theorem contents_run (store : TxStore) (call : StoreCall) :
    (call.run store).map TxStore.contents = store.contents.run call := by
  cases call with
  | putTx record updateExisting => exact contents_putRecord store record updateExisting
  | removeTxsUntilNonce signer nonce =>
      exact congrArg Except.ok (contents_removeTxsUntilNonce store signer nonce)
  | clearAll => exact congrArg Except.ok (contents_clearAll store)

end Contents

/-- Calls on one state do what they do on another, if each call does. -/
theorem runStoreCalls_map {σ τ : Type} {run : σ → StoreCall → Except String σ}
    {run' : τ → StoreCall → Except String τ} {f : σ → τ}
    (h : ∀ s call, (run s call).map f = run' (f s) call) (s : σ) (calls : List StoreCall) :
    runStoreCalls run' (f s) calls =
      (f (runStoreCalls run s calls).1, (runStoreCalls run s calls).2) := by
  induction calls generalizing s with
  | nil => rfl
  | cons call calls ih =>
      have hcall := h s call
      simp only [runStoreCalls]
      cases hrun : run s call with
      | ok s' =>
          rw [hrun] at hcall
          simp only [← hcall, Except.map, ih s']
      | error e =>
          rw [hrun] at hcall
          simp only [← hcall, Except.map, ih s]

/-- The list has what is found under the keys, each once, in the order of the nonces. -/
structure TxMap.ListedBy (m : TxMap) (keys : Set TxKey) (txs : List StoredTransaction) : Prop where
  mem_iff : ∀ tx, tx ∈ txs ↔ ∃ key ∈ keys, m key = some tx
  nodup : txs.Nodup
  ascending : txs.Pairwise fun tx1 tx2 => tx1.nonce.getD 0 ≤ tx2.nonce.getD 0

theorem contents_listedBy_getAllBySigner (store : TxStore) (signer : Address) :
    store.contents.ListedBy {key | key.1 = toLowerCase signer} (getAllBySigner store signer) where
  mem_iff tx := by
    rw [mem_getAllBySigner]
    constructor
    · rintro ⟨hmem, hsigner⟩
      obtain ⟨key, hkey⟩ := mem_iff_contents.mp hmem
      have hns := (contents_eq_some_iff.mp hkey).2
      exact ⟨key, (congrArg Prod.snd hns).symm.trans hsigner, hkey⟩
    · rintro ⟨key, hsigner, hkey⟩
      obtain ⟨hmem, hns⟩ := contents_eq_some_iff.mp hkey
      exact ⟨hmem, (congrArg Prod.snd hns).trans hsigner⟩
  nodup := (List.perm_insertionSort _ _).nodup_iff.mpr
    (List.filter_sublist.nodup (List.Nodup.of_map _ store.nodup_txId))
  ascending := pairwise_sortTransactionsByNonce _

theorem contents_listedBy_getAll (store : TxStore) :
    store.contents.ListedBy Set.univ (getAll store) where
  mem_iff tx := by
    rw [mem_getAll, mem_iff_contents]
    simp
  nodup := nodup_getAll store
  ascending := pairwise_sortTransactionsByNonce _

/-- Whatever calls are made, the store throws and changes as the map does, and lists what
the map holds. -/
theorem store_refines_map (store : TxStore) (calls : List StoreCall) :
    runStoreCalls TxMap.run store.contents calls =
        ((runStoreCalls StoreCall.run store calls).1.contents,
          (runStoreCalls StoreCall.run store calls).2) ∧
      (∀ signer, (runStoreCalls TxMap.run store.contents calls).1.ListedBy
        {key | key.1 = toLowerCase signer}
        (getAllBySigner (runStoreCalls StoreCall.run store calls).1 signer)) ∧
      (runStoreCalls TxMap.run store.contents calls).1.ListedBy Set.univ
        (getAll (runStoreCalls StoreCall.run store calls).1) := by
  have hmap := runStoreCalls_map contents_run store calls
  rw [hmap]
  exact ⟨rfl, contents_listedBy_getAllBySigner _, contents_listedBy_getAll _⟩

end RifRelayServer
