import RifRelayServer.Nonces

/-!
# Nonces and the entries of an earlier process

The store outlives the process, its counters start at 0. A nonce that is taken
is never that of an entry this process has stored; it is the nonce of an entry
found at start when the counters or the node come to stand on that entry.
-/

namespace RifRelayServer

open Runs

def ServerDependencies.manages (dependencies : ServerDependencies) (signer : Address) : Bool :=
  dependencies.managerKeyManager.isSigner signer || dependencies.workersKeyManager.isSigner signer

/-- A key manager derives checksummed addresses: each has one spelling. -/
def ServerDependencies.Checksummed (dependencies : ServerDependencies) : Prop :=
  ∀ address1 address2, dependencies.manages address1 = true → dependencies.manages address2 = true →
    isSameAddress address1 address2 = true → address1 = address2

def SendTransactionDetails.keyOf (details : SendTransactionDetails) (nonce : ℕ) : NonceSigner :=
  (some nonce, toLowerCase details.signer)

/-- No nonce that a call has taken is the nonce of an entry of its signer, so the
write to the store cannot fail on the key. -/
structure NoCollision (server : RelayServer) (state : ServerState) : Prop where
  picked : ∀ id details price nonce, state.sendingAt id = some (details, .signing price nonce) →
    server.dependencies.manages details.signer = true →
      state.shared.txStore.find? (details.keyOf nonce) = none
  stored : ∀ id details signedTransaction storedTx,
    state.sendingAt id = some (details, .storing signedTransaction storedTx) →
      state.shared.txStore.find? storedTx.nonceSigner = none

/-- The nonce is passed already by the count or by the counter, or reached by neither. -/
def PassedOrAhead (nonce count counter : ℕ) : Prop :=
  nonce < count ∨ nonce < counter ∨ count < nonce ∧ counter < nonce

instance (nonce count counter : ℕ) : Decidable (PassedOrAhead nonce count counter) :=
  inferInstanceAs (Decidable (_ ∨ _ ∨ _ ∧ _))

/-- A `sendTransaction` that is told a pending count stands on no entry of its
signer that was found at start and is still there. -/
def ClearOfFound (found : TxStore) (state : ServerState) : Event → Prop
  | .resume id (.transactionCount (.ok count)) => ∀ sending ∈ state.sendingAt id,
      ∀ tx ∈ state.shared.txStore.entries, (found.find? tx.nonceSigner).isSome = true →
        isSameAddress tx.fromAddress sending.1.signer = true → ∀ nonce ∈ tx.nonce,
          PassedOrAhead nonce count (state.shared.nonces sending.1.signer)
  | _ => True

instance (found : TxStore) (state : ServerState) (event : Event) :
    Decidable (ClearOfFound found state event) :=
  match event with
  | .resume id (.transactionCount (.ok count)) =>
      inferInstanceAs (Decidable (∀ sending ∈ state.sendingAt id,
        ∀ tx ∈ state.shared.txStore.entries, (found.find? tx.nonceSigner).isSome = true →
          isSameAddress tx.fromAddress sending.1.signer = true → ∀ nonce ∈ tx.nonce,
            PassedOrAhead nonce count (state.shared.nonces sending.1.signer)))
  | .resume _ (.transactionCount (.error _)) | .resume _ (.gasPrice _) | .resume _ .acquired
  | .resume _ (.signature _) | .resume _ (.stored _) | .resume _ (.broadcast _)
  | .resume _ (.validated _) | .resume _ (.prepared _ _ _) | .resume _ (.balance _)
  | .resume _ (.pendingAction _) | .start _ | .write _ => isTrue trivial

/-- From the poll to the store write, no entry has the key of the nonce taken. -/
def Unclaimed (dependencies : ServerDependencies) (store : TxStore)
    (details : SendTransactionDetails) : SendPoint → Prop
  | .signing _ nonce =>
      dependencies.manages details.signer = true → store.find? (details.keyOf nonce) = none
  | .storing signedTransaction storedTx =>
      dependencies.manages signedTransaction.signedTx.fromAddress = true ∧
        storedTx.nonceSigner = signedTransaction.signedTx.nonceSigner ∧
        store.find? storedTx.nonceSigner = none
  | _ => True

/-- What holds of the keys in the store in every reachable state: each was found
at start or is that of a transaction sent, and none is that of a nonce taken. -/
structure StoredNonceInvariant (server : RelayServer) (found : TxStore) (state : ServerState) :
    Prop extends NonceInvariant state where
  origin : ∀ tx ∈ state.shared.txStore, (found.find? tx.nonceSigner).isSome = true ∨
    ∃ sent ∈ state.shared.sent, sent.nonceSigner = tx.nonceSigner
  sent_managed : ∀ sent ∈ state.shared.sent, server.dependencies.manages sent.fromAddress = true
  unclaimed : ∀ id details point, state.sendingAt id = some (details, point) →
    Unclaimed server.dependencies state.shared.txStore details point

theorem ServerDependencies.isSigner_keyManagerOf {dependencies : ServerDependencies}
    {signer : Address} :
    (dependencies.keyManagerOf signer).isSigner signer = dependencies.manages signer := by
  unfold keyManagerOf manages
  cases hmanager : dependencies.managerKeyManager.isSigner signer <;> simp [hmanager]

theorem find?_eq_none_of_keys {store store' : TxStore} {key : NonceSigner}
    (hkeys : ∀ tx ∈ store', ∃ old ∈ store, old.nonceSigner = tx.nonceSigner)
    (h : store.find? key = none) : store'.find? key = none := by
  rw [TxStore.find?_eq_none_iff] at h ⊢
  intro tx htx hkey
  obtain ⟨old, hold, hsame⟩ := hkeys tx htx
  exact h old hold (hsame.trans hkey)

theorem putTx_keys {store store' : TxStore} {tx old : StoredTransaction} {updateExisting : Bool}
    (hput : putTx store tx updateExisting = .ok store') (hold : old ∈ store)
    (hkey : old.nonceSigner = tx.nonceSigner) :
    ∀ it ∈ store', ∃ before ∈ store, before.nonceSigner = it.nonceSigner := by
  intro it hit
  rcases (mem_of_putTx hput it).mp hit with ⟨hkept, -⟩ | rfl
  · exact ⟨it, hkept, rfl⟩
  · exact ⟨old, hold, hkey⟩

theorem Unclaimed.mono {dependencies : ServerDependencies} {store store' : TxStore}
    {details : SendTransactionDetails} {point : SendPoint}
    (hkeys : ∀ tx ∈ store', ∃ old ∈ store, old.nonceSigner = tx.nonceSigner)
    (h : Unclaimed dependencies store details point) :
    Unclaimed dependencies store' details point := by
  cases point with
  | signing price nonce => exact fun hmanaged => find?_eq_none_of_keys hkeys (h hmanaged)
  | storing signedTransaction storedTx =>
      exact ⟨h.1, h.2.1, find?_eq_none_of_keys hkeys h.2.2⟩
  | _ => trivial

theorem unclaimed_of_not_holdsMutex {dependencies : ServerDependencies} {store : TxStore}
    {details : SendTransactionDetails} {point : SendPoint} (h : point.holdsMutex = false) :
    Unclaimed dependencies store details point := by
  cases point with
  | signing price nonce => cases h
  | storing signedTransaction storedTx => cases h
  | _ => trivial

theorem RoundWrite.keys {store store' : TxStore} {write : RoundWrite}
    (h : write.apply store = .ok store') :
    ∀ tx ∈ store', ∃ old ∈ store, old.nonceSigner = tx.nonceSigner := by
  rcases apply_cases h with ⟨signer, nonce, rfl⟩ | rfl |
    ⟨old, hold, tx, hput, ⟨minedBlockNumber, rfl⟩ | ⟨txId, newGasPrice, currentBlock, rfl⟩⟩
  · exact fun tx htx => ⟨tx, (mem_removeTxsUntilNonce.mp htx).1, rfl⟩
  · exact fun tx htx => ⟨tx, htx, rfl⟩
  · exact putTx_keys hput hold rfl
  · exact putTx_keys hput hold rfl

variable {server : RelayServer} {found : TxStore} {state state' : ServerState} {id : CallId}
  {shared' : Shared} {answer : Answer} {details : SendTransactionDetails}
  {point point' : SendPoint}

theorem not_passedOrAhead_resolveNonce (nonces : Address → ℕ) (signer : Address) (count : ℕ) :
    ¬ PassedOrAhead (resolveNonce nonces signer count).1 count (nonces signer) := by
  unfold PassedOrAhead resolveNonce
  split <;> omega

namespace StoredNonceInvariant

/-- The nonce that a poll gives is above all that were sent, and on no entry found at start. -/
theorem polled (h : StoredNonceInvariant server found state)
    (hchecksummed : server.dependencies.Checksummed) {price count : ℕ}
    (hclear : ClearOfFound found state (.resume id (.transactionCount (.ok count))))
    (hat : state.sendingAt id = some (details, .polling price)) :
    Unclaimed server.dependencies state.shared.txStore details
      (.signing price (resolveNonce state.shared.nonces details.signer count).1) := by
  intro hmanaged
  rw [TxStore.find?_eq_none_iff]
  intro tx htx hkey
  obtain ⟨hnonce, hfrom⟩ := Prod.ext_iff.mp hkey
  rcases h.origin tx htx with hfound | ⟨sent, hsent, hsame⟩
  · apply not_passedOrAhead_resolveNonce state.shared.nonces details.signer count
    exact hclear (details, .polling price) hat tx htx hfound (decide_eq_true hfrom) _ hnonce
  · obtain ⟨hsentNonce, hsentFrom⟩ := Prod.ext_iff.mp (hsame.trans hkey)
    have hsigner : sent.fromAddress = details.signer :=
      hchecksummed _ _ (h.sent_managed sent hsent) hmanaged (decide_eq_true hsentFrom)
    have hlt := h.sent_lt sent hsent
    have hle := resolveNonce_le state.shared.nonces details.signer details.signer count
    rw [hsigner] at hlt
    rw [← resolveNonce_fst, ← Option.some.inj hsentNonce] at hle
    exact absurd (hlt.trans_le hle) (lt_irrefl _)

theorem sends (h : StoredNonceInvariant server found state)
    (hchecksummed : server.dependencies.Checksummed)
    (hclear : ClearOfFound found state (.resume id answer))
    (hat : state.sendingAt id = some (details, point))
    (hstep : SendStep server.dependencies id details state.shared point answer shared' point')
    (hshared : state'.shared = shared')
    (hat' : ∀ other, state'.sendingAt other =
      if other = id then some (details, point') else state.sendingAt other) :
    StoredNonceInvariant server found state' := by
  have hunclaimed := h.unclaimed id details point hat
  have hnonce := h.toNonceInvariant.sends hat hstep hshared hat'
  obtain ⟨shared₂, calls⟩ := state'
  obtain rfl : shared₂ = shared' := hshared
  -- A step that leaves store and transactions sent alone has only its own point to account for.
  have hkept (hstore : shared₂.txStore = state.shared.txStore)
      (hsent : shared₂.sent = state.shared.sent)
      (hpoint : Unclaimed server.dependencies state.shared.txStore details point') :
      StoredNonceInvariant server found ⟨shared₂, calls⟩ := by
    refine ⟨hnonce, ?_, ?_, ?_⟩
    · rw [hstore, hsent]
      exact h.origin
    · rw [hsent]
      exact h.sent_managed
    · intro other details' point₂ hother
      rw [hstore]
      rcases sendingAt_cases hat' hother with ⟨rfl, hnew⟩ | ⟨-, hold⟩
      · cases hnew
        exact hpoint
      · exact h.unclaimed other details' point₂ hold
  cases hstep with
  | polled count => exact hkept rfl rfl (h.polled hchecksummed hclear hat)
  | signed hsignature =>
      obtain ⟨hsigner, -, -, rfl⟩ := ServerDependencies.signatureOf_eq_ok_iff.mp hsignature
      have hmanaged := ServerDependencies.isSigner_keyManagerOf.symm.trans hsigner
      exact hkept rfl rfl ⟨hmanaged, rfl, hunclaimed hmanaged⟩
  | priced | acquired | released | failed | accepted => exact hkept rfl rfl trivial
  | @stored signedTransaction storedTx txStore hput =>
      obtain ⟨hmanaged, hkey, -⟩ := hunclaimed
      refine ⟨hnonce, fun tx htx => ?_, fun sent hsent => ?_, fun other details' point₂ hother => ?_⟩
      · rcases (mem_of_putTx hput tx).mp htx with ⟨hold, -⟩ | rfl
        · apply (h.origin tx hold).imp_right
          exact fun ⟨sent, hsent, hsame⟩ => ⟨sent, List.mem_append_left _ hsent, hsame⟩
        · exact Or.inr ⟨_, List.mem_append_right _ List.mem_cons_self, hkey.symm⟩
      · rcases List.mem_append.mp hsent with hold | hnew
        · exact h.sent_managed sent hold
        · rw [List.mem_singleton.mp hnew]
          exact hmanaged
      · rcases sendingAt_cases hat' hother with ⟨rfl, hnew⟩ | ⟨hne, hold⟩
        · cases hnew
          trivial
        · refine unclaimed_of_not_holdsMutex (Bool.eq_false_iff.mpr fun hholds => hne ?_)
          exact h.eq_of_holdsMutex hat rfl hold hholds

/-- Calls outside the critical section come and go, and no write of a round adds a key. -/
theorem others (h : StoredNonceInvariant server found state) (hnonce : NonceInvariant state')
    (hsent : state'.shared.sent = state.shared.sent)
    (hkeys : ∀ tx ∈ state'.shared.txStore, ∃ old ∈ state.shared.txStore,
      old.nonceSigner = tx.nonceSigner)
    (hat : ∀ id sending, sending.2.holdsMutex = true →
      (state'.sendingAt id = some sending ↔ state.sendingAt id = some sending)) :
    StoredNonceInvariant server found state' where
  toNonceInvariant := hnonce
  origin tx htx := by
    obtain ⟨old, hold, hkey⟩ := hkeys tx htx
    rw [hsent, ← hkey]
    exact h.origin old hold
  sent_managed sent hmem := h.sent_managed sent (hsent ▸ hmem)
  unclaimed id details point hsending := by
    cases hholds : point.holdsMutex with
    | false => exact unclaimed_of_not_holdsMutex hholds
    | true =>
        have hold := (hat id (details, point) hholds).mp hsending
        exact (h.unclaimed id details point hold).mono hkeys

theorem noCollision (h : StoredNonceInvariant server found state) : NoCollision server state where
  picked id details price nonce hat := h.unclaimed id details (.signing price nonce) hat
  stored id details signedTransaction storedTx hat :=
    (h.unclaimed id details (.storing signedTransaction storedTx) hat).2.2

end StoredNonceInvariant

theorem step_storedNonceInvariant {event : Event} (h : StoredNonceInvariant server found state)
    (hchecksummed : server.dependencies.Checksummed) (hclear : ClearOfFound found state event)
    (hstep : step server state event = some state') :
    StoredNonceInvariant server found state' := by
  have hnonce := step_nonceInvariant h.toNonceInvariant hstep
  have hsame {store store' : TxStore} (hstore : store' = store) :
      ∀ tx ∈ store', ∃ old ∈ store, old.nonceSigner = tx.nonceSigner := by
    intro tx htx
    exact ⟨tx, hstore ▸ htx, rfl⟩
  cases step_sending hstep with
  | sends hat hresume hat' =>
      exact h.sends hchecksummed hclear hat (SendPoint.resume_cases hresume) rfl hat'
  | polls hcall hpolls hshared hat' =>
      apply h.others hnonce (by rw [hshared]; rfl) (hsame (by rw [hshared]; rfl))
      intro other sending _
      rw [hat']
  | others hmutex hsent hreported hnonces hstore hat =>
      apply h.others hnonce hsent _ hat
      rcases hstore with hkept | ⟨write, hwrite⟩
      · exact hsame hkept
      · exact RoundWrite.keys hwrite

theorem storedNonceInvariant_initial (server : RelayServer) (found : TxStore) :
    StoredNonceInvariant server found (.initial found) where
  toNonceInvariant := nonceInvariant_initial found
  origin tx htx :=
    Or.inl (Option.isSome_iff_exists.mpr ⟨tx, TxStore.find?_eq_some_iff.mpr ⟨htx, rfl⟩⟩)
  sent_managed sent hsent := nomatch hsent
  unclaimed id details point h := by simp [ServerState.initial, ServerState.sendingAt] at h

/-- On whatever store the process starts, no nonce taken is that of an entry of
its signer, as long as no poll of `sendTransaction` stands on an entry found at start. -/
theorem no_nonce_collision (hchecksummed : server.dependencies.Checksummed) {events : List Event}
    (hrun : run (step server) (.initial found) events = some state)
    (hclear : Along (step server) (ClearOfFound found) (.initial found) events) :
    NoCollision server state := by
  have hinvariant : StoredNonceInvariant server found state :=
    invariant_of_along (fun _ _ _ h hclear hstep => step_storedNonceInvariant h hchecksummed hclear hstep)
      (storedNonceInvariant_initial server found) hclear hrun
  exact hinvariant.noCollision

theorem sampleDependencies_checksummed : sampleDependencies.Checksummed := by
  have hmanaged (address : Address) (h : sampleDependencies.manages address = true) :
      address = sampleManager ∨ address = sampleWorker := by
    simpa [ServerDependencies.manages, KeyManager.isSigner, sampleDependencies] using h
  intro address1 address2 h1 h2 hsame
  rcases hmanaged address1 h1 with rfl | rfl <;> rcases hmanaged address2 h2 with rfl | rfl
  · rfl
  · exact absurd hsame (by decide)
  · exact absurd hsame (by decide)
  · rfl

/-- A relayed transaction up to its store write, the node reporting `count`. -/
def relayedAt (price count : ℕ) : List Event :=
  [.start (.sendTransaction sampleRelayed), .resume 0 (.gasPrice (.ok price)), .resume 0 .acquired,
    .resume 0 (.transactionCount (.ok count)), .resume 0 (.signature none), .resume 0 (.stored none)]

/-- What a process leaves that stored its first relayed transaction and stopped. -/
def leftInStore : TxStore := (stateAfter (relayedAt 10 0)).shared.txStore

def restartedAfter (events : List Event) : ServerState :=
  (run (step sampleServer) (.initial leftInStore) events).getD (.initial leftInStore)

theorem no_nonce_collision_restarted :
    NoCollision sampleServer (restartedAfter (relayedAt 12 1)) :=
  no_nonce_collision sampleDependencies_checksummed
    (rfl : run (step sampleServer) (.initial leftInStore) (relayedAt 12 1) =
      some (restartedAfter (relayedAt 12 1)))
    (by decide +kernel)

/-- The node has dropped the transaction that was left, and reports 0 again. -/
theorem nonce_collides :
    ¬ ∀ (server : RelayServer) (found : TxStore) (events : List Event) (state : ServerState),
      server.dependencies.Checksummed →
      run (step server) (.initial found) events = some state → NoCollision server state := by
  intro h
  have hrun : run (step sampleServer) (.initial leftInStore) ((relayedAt 12 0).take 4) =
      some (restartedAfter ((relayedAt 12 0).take 4)) := rfl
  have hfree := (h _ _ _ _ sampleDependencies_checksummed hrun).picked 0 sampleRelayed 12 0 rfl
    (by decide)
  exact absurd hfree (by decide +kernel)

end RifRelayServer
