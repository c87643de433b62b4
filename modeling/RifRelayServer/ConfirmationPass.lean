import RifRelayServer.Confirmations

/-!
# What a confirmation pass does to the store

The pass walks a snapshot of the store, in the order of the nonces, while it
removes and marks entries of the store itself. An entry that it removes lies
behind it in the snapshot, so none is written back.
-/

namespace RifRelayServer

/-- The block in which the node has the transaction with the hash. -/
def minedIn (found : Hash → Option TransactionResponse) (txId : Hash) : Option ℕ :=
  (found txId).bind (·.blockNumber)

/-- The node answers each stored hash with nothing, or with a transaction of the
entry's sender and nonce, mined or not. -/
structure NodeView (provider : Provider) (found : Hash → Option TransactionResponse)
    (store : TxStore) : Prop where
  getTransaction : ∀ tx ∈ store, provider.getTransaction tx.txId = .ok (found tx.txId)
  own : ∀ tx ∈ store, ∀ response ∈ found tx.txId,
    toLowerCase response.fromAddress = toLowerCase tx.fromAddress ∧ tx.nonce = some response.nonce

/-- An entry is gone exactly when a confirmed entry of its signer has its nonce
or a later one. What is left keeps all but a new, recent block. -/
structure PassEffect (config : BlockchainConfig) (chain : Hash → Option ℕ) (blockNumber : ℕ)
    (store store' : TxStore) : Prop where
  gone_iff : ∀ tx ∈ store, (∀ it ∈ store', it.nonceSigner ≠ tx.nonceSigner) ↔
    ∃ e ∈ store, Confirmed config chain blockNumber e ∧
      toLowerCase e.fromAddress = toLowerCase tx.fromAddress ∧ tx.nonce.getD 0 ≤ e.nonce.getD 0
  kept : ∀ it ∈ store', ∃ tx ∈ store, it = remarked config chain blockNumber tx

section Effect

variable {dependencies : ServerDependencies} {provider : Provider} {blockNumber : ℕ}
  {found : Hash → Option TransactionResponse} {store : TxStore} {tx e : StoredTransaction}

theorem NodeView.entryReported (h : NodeView provider found store) (htx : tx ∈ store) :
    EntryReported provider (minedIn found) tx := by
  have hanswer := h.getTransaction tx htx
  constructor
  · intro response hresponse
    have hfound : found tx.txId = some response := Except.ok.inj (hanswer.symm.trans hresponse)
    obtain ⟨hfrom, hnonce⟩ := h.own tx htx response hfound
    exact ⟨hfrom, hnonce, by rw [minedIn, hfound, Option.bind_some]⟩
  · intro hnone
    have hfound : found tx.txId = none := Except.ok.inj (hanswer.symm.trans hnone)
    rw [minedIn, hfound, Option.bind_none]

theorem covers_iff (htx : tx ∈ store) :
    Covers e tx ↔
      toLowerCase e.fromAddress = toLowerCase tx.fromAddress ∧
        tx.nonce.getD 0 ≤ e.nonce.getD 0 := by
  obtain ⟨nonce, hnonce⟩ := Option.ne_none_iff_exists'.mp (store.nonce_ne_none tx htx)
  simp only [Covers, isUntilNonce, hnonce, Option.any_some, Option.getD_some, Bool.and_eq_true,
    decide_eq_true_eq]
  exact ⟨fun h => ⟨h.2.symm, h.1⟩, fun h => ⟨h.2, h.1.symm⟩⟩

theorem Passed.passEffect {config : BlockchainConfig} {chain : Hash → Option ℕ} {store' : TxStore}
    (h : Passed config chain blockNumber store (getAll store) store') :
    PassEffect config chain blockNumber store store' := by
  constructor
  · intro tx htx
    constructor
    · intro hgone
      by_contra hnone
      push Not at hnone
      refine hgone _ ((h _).mpr ⟨tx, htx, rfl, fun e he hconfirmed hcovers => ?_⟩)
        markedAfter_nonceSigner
      obtain ⟨hfrom, hle⟩ := (covers_iff htx).mp hcovers
      exact (hnone e (mem_getAll.mp he) hconfirmed hfrom).not_ge hle
    · rintro ⟨e, he, hconfirmed, hsigner⟩ it hit hkey
      obtain ⟨t, ht, rfl, hkept⟩ := (h it).mp hit
      obtain rfl : t = tx :=
        TxStore.eq_of_nonceSigner ht htx (markedAfter_nonceSigner.symm.trans hkey)
      exact hkept e (mem_getAll.mpr he) hconfirmed ((covers_iff htx).mpr hsigner)
  · intro it hit
    obtain ⟨t, ht, rfl, -⟩ := (h it).mp hit
    exact ⟨t, ht, if_pos (mem_getAll.mpr ht)⟩

/-- A pass against any such node returns, and changes nothing but the store. -/
theorem removeConfirmedTransactions_effect {before : TransactionManager}
    (hview : NodeView provider found before.txStore)
    (hstorable : ∀ tx ∈ before.txStore, tx.isStorable = true) :
    ∃ after, removeConfirmedTransactions dependencies provider blockNumber before =
        .ok () after ∧ after = { before with txStore := after.txStore } ∧
      PassEffect dependencies.config (minedIn found) blockNumber before.txStore after.txStore := by
  have hreported : ∀ tx ∈ before.txStore, EntryReported provider (minedIn found) tx :=
    fun tx htx => hview.entryReported htx
  obtain ⟨after, hpass⟩ := @removeConfirmedTransactions_returns dependencies _ blockNumber _
    _ hreported (fun tx htx => ⟨_, hview.getTransaction tx htx⟩) hstorable
  obtain ⟨hframe, hpassed⟩ := removeConfirmedTransactions_passed hreported hpass
  exact ⟨after, hpass, hframe, hpassed.passEffect⟩

end Effect

/-- The refill with nonce 0 is mined in block 111, the boost of it is not. -/
def sampleFound (txId : Hash) : Option TransactionResponse :=
  if txId = "0/12" then some ⟨sampleManager, 0, some 111⟩ else none

theorem removeConfirmedTransactions_effect_sampleBoosted :
    ∃ after, removeConfirmedTransactions sampleDependencies (sampleMined "0/12" 111) 123
        sampleBoosted = .ok () after ∧
      after = { sampleBoosted with txStore := after.txStore } ∧
      PassEffect sampleDependencies.config (minedIn sampleFound) 123 sampleBoosted.txStore
        after.txStore :=
  removeConfirmedTransactions_effect
    ⟨fun tx _ => rfl, fun tx htx response hresponse => by
      have hentry : tx = sampleBoostedEntry :=
        List.mem_singleton.mp (getAll_sampleBoosted ▸ mem_getAll.mpr htx)
      subst hentry
      obtain rfl := Option.some.inj hresponse
      exact ⟨rfl, rfl⟩⟩
    (fun tx htx => by
      have hentry : tx = sampleBoostedEntry :=
        List.mem_singleton.mp (getAll_sampleBoosted ▸ mem_getAll.mpr htx)
      subst hentry
      decide)

end RifRelayServer
