import RifRelayServer.Calls

/-!
# One pending entry at a time

A kind of transaction is sent once none of its kind is pending. It is pending once
it is stored, and being sent until then: of both together there is one at most.
-/

namespace RifRelayServer

variable {isPending : StoredTransaction → Bool} {isSending : Call → Bool}

theorem getElem?_started_eq {calls : List Call} {call it : Call} {id : ℕ}
    (h : (calls ++ [call])[id]? = some it) :
    calls[id]? = some it ∨ id = calls.length ∧ it = call := by
  rcases lt_or_ge id calls.length with hlt | hge
  · rw [List.getElem?_append_left hlt] at h
    exact Or.inl h
  · rw [List.getElem?_append_right hge] at h
    obtain ⟨hindex, rfl⟩ := List.getElem?_eq_some_iff.mp h
    simp only [List.length_singleton] at hindex
    exact Or.inr ⟨by omega, List.getElem_singleton _⟩

def SinglePending (isPending : StoredTransaction → Bool) (txStore : TxStore) : Prop :=
  ∀ a ∈ txStore, ∀ b ∈ txStore, isPending a = true → isPending b = true → a = b

def NonePending (isPending : StoredTransaction → Bool) (txStore : TxStore) : Prop :=
  ∀ tx ∈ txStore, isPending tx = false

/-- Every pending entry is the one that was under its key. -/
def NoNewPending (isPending : StoredTransaction → Bool) (store store' : TxStore) : Prop :=
  ∀ it ∈ store', isPending it = true →
    ∃ old ∈ store, old.nonceSigner = it.nonceSigner ∧ isPending old = true

def NoneSending (isSending : Call → Bool) (calls : List Call) : Prop :=
  ∀ call ∈ calls, isSending call = false

theorem NoNewPending.refl (store : TxStore) : NoNewPending isPending store store :=
  fun it hit hpending => ⟨it, hit, rfl, hpending⟩

theorem NoNewPending.of_putTx {store store' : TxStore} {tx : StoredTransaction}
    {updateExisting : Bool} (hput : putTx store tx updateExisting = .ok store')
    (htx : isPending tx = true →
      ∃ old ∈ store, old.nonceSigner = tx.nonceSigner ∧ isPending old = true) :
    NoNewPending isPending store store' := by
  intro it hit hpending
  rcases (mem_of_putTx hput it).mp hit with ⟨hold, -⟩ | rfl
  · exact ⟨it, hold, rfl, hpending⟩
  · exact htx hpending

theorem NoNewPending.removeTxsUntilNonce (store : TxStore) (signer : Address) (nonce : ℕ) :
    NoNewPending isPending store (removeTxsUntilNonce store signer nonce) :=
  fun it hit hpending => ⟨it, (mem_removeTxsUntilNonce.mp hit).1, rfl, hpending⟩

theorem NoNewPending.single {store store' : TxStore} (h : NoNewPending isPending store store')
    (hsingle : SinglePending isPending store) : SinglePending isPending store' := by
  intro a ha b hb hpa hpb
  obtain ⟨olda, holda, hkeya, hpa'⟩ := h a ha hpa
  obtain ⟨oldb, holdb, hkeyb, hpb'⟩ := h b hb hpb
  apply TxStore.eq_of_nonceSigner ha hb
  rw [← hkeya, ← hkeyb, hsingle olda holda oldb holdb hpa' hpb']

theorem NoNewPending.none {store store' : TxStore} (h : NoNewPending isPending store store')
    (hnone : NonePending isPending store) : NonePending isPending store' := by
  intro tx htx
  by_contra hpending
  obtain ⟨old, hold, -, hold'⟩ := h tx htx (Bool.not_eq_false _ ▸ hpending)
  exact absurd (hnone old hold) (by simp [hold'])

theorem NonePending.single_of_putTx {store store' : TxStore} {tx : StoredTransaction}
    {updateExisting : Bool} (hnone : NonePending isPending store)
    (hput : putTx store tx updateExisting = .ok store') : SinglePending isPending store' := by
  have hnew : ∀ it ∈ store', isPending it = true → it = tx := by
    intro it hit hpending
    rcases (mem_of_putTx hput it).mp hit with ⟨hold, -⟩ | rfl
    · exact absurd (hnone it hold) (by simp [hpending])
    · rfl
  exact fun a ha b hb hpa hpb => (hnew a ha hpa).trans (hnew b hb hpb).symm

/-- At most one of a kind is pending or being sent. -/
structure SingleFlight (isPending : StoredTransaction → Bool) (isSending : Call → Bool)
    (state : ServerState) : Prop where
  single : SinglePending isPending state.shared.txStore
  alone : ∀ (id other : CallId) (call call' : Call), state.calls[id]? = some call →
    state.calls[other]? = some call' → isSending call = true → isSending call' = true → id = other
  nonePending : ∀ call ∈ state.calls, isSending call = true →
    NonePending isPending state.shared.txStore

namespace SingleFlight

variable {state : ServerState} {id : CallId} {call call' : Call} {shared' : Shared}

theorem started (h : SingleFlight isPending isSending state) (hcall : isSending call = false) :
    SingleFlight isPending isSending { state with calls := state.calls ++ [call] } where
  single := h.single
  alone id other it it' hit hit' hsending hsending' := by
    have hold : ∀ (id : CallId) (it : Call), (state.calls ++ [call])[id]? = some it →
        isSending it = true → state.calls[id]? = some it := by
      intro id it hit hsending
      rcases getElem?_started hit with hold | rfl
      · exact hold
      · rw [hcall] at hsending
        cases hsending
    exact h.alone id other it it' (hold id it hit hsending) (hold other it' hit' hsending') hsending
      hsending'
  nonePending it hit hsending := by
    rcases List.mem_append.mp hit with hold | hnew
    · exact h.nonePending it hold hsending
    · rw [List.mem_singleton.mp hnew, hcall] at hsending
      cases hsending

/-- A call that sends may start when there is neither a pending entry nor such a call. -/
theorem begun (h : SingleFlight isPending isSending state)
    (hnone : NoneSending isSending state.calls)
    (hstore : NonePending isPending state.shared.txStore) :
    SingleFlight isPending isSending { state with calls := state.calls ++ [call] } where
  single := h.single
  alone id other it it' hit hit' hsending hsending' := by
    have hlast : ∀ (id : ℕ) (it : Call), (state.calls ++ [call])[id]? = some it →
        isSending it = true → id = state.calls.length := by
      intro id it hit hsending
      rcases getElem?_started_eq hit with hold | ⟨hlast, -⟩
      · simp [hnone it (List.mem_of_getElem? hold)] at hsending
      · exact hlast
    rw [hlast id it hit hsending, hlast other it' hit' hsending']
  nonePending _ _ _ := hstore

theorem written (h : SingleFlight isPending isSending state) {txStore : TxStore}
    (hwrite : NoNewPending isPending state.shared.txStore txStore) :
    SingleFlight isPending isSending { state with shared := { state.shared with txStore } } where
  single := hwrite.single h.single
  alone := h.alone
  nonePending call hcall hsending := hwrite.none (h.nonePending call hcall hsending)

/-- A turn of a call. It may begin to send when there is neither a pending entry nor
another such call; what it stores is no new pending entry, unless it was sending. -/
theorem resumed (h : SingleFlight isPending isSending state) (hcall : state.calls[id]? = some call)
    (hstore : NoNewPending isPending state.shared.txStore shared'.txStore ∨
      isSending call = true ∧ isSending call' = false ∧ SinglePending isPending shared'.txStore)
    (hsends : isSending call' = true → isSending call = true ∨
      NonePending isPending shared'.txStore ∧
        ∀ (other : CallId) (it : Call), state.calls[other]? = some it → isSending it = true →
          other = id) :
    SingleFlight isPending isSending ⟨shared', state.calls.set id call'⟩ := by
  have hmem := List.mem_of_getElem? hcall
  have halone : isSending call' = true → ∀ (other : CallId) (it : Call),
      state.calls[other]? = some it → isSending it = true → other = id := by
    intro hsending other it hit hsending'
    rcases hsends hsending with hbefore | ⟨-, hlone⟩
    · exact h.alone other id it call hit hcall hsending' hbefore
    · exact hlone other it hit hsending'
  refine ⟨?_, ?_, ?_⟩
  · rcases hstore with hstore | ⟨-, -, hsingle⟩
    · exact hstore.single h.single
    · exact hsingle
  · intro first second it it' hit hit' hsending hsending'
    rcases getElem?_resumed hcall hit with ⟨rfl, rfl⟩ | ⟨hne, hold⟩ <;>
      rcases getElem?_resumed hcall hit' with ⟨rfl, rfl⟩ | ⟨hne', hold'⟩
    · rfl
    · exact absurd (halone hsending second it' hold' hsending') hne'
    · exact absurd (halone hsending' first it hold hsending) hne
    · exact h.alone first second it it' hold hold' hsending hsending'
  · intro it hit hsending
    obtain ⟨other, hit⟩ := List.mem_iff_getElem?.mp hit
    rcases getElem?_resumed hcall hit with ⟨-, rfl⟩ | ⟨hne, hold⟩
    · rcases hsends hsending with hbefore | ⟨hnone, -⟩
      · rcases hstore with hstore | ⟨-, hafter, -⟩
        · exact hstore.none (h.nonePending call hmem hbefore)
        · simp [hsending] at hafter
      · exact hnone
    · rcases hstore with hstore | ⟨hbefore, -, -⟩
      · exact hstore.none (h.nonePending it (List.mem_of_getElem? hold) hsending)
      · exact absurd (h.alone other id it call hold hcall hsending hbefore) hne

end SingleFlight

end RifRelayServer
