import RifRelayServer.TickFrames

/-!
# The semaphore of the worker

How a tick gets to a round and out of it, whatever contract it keeps; and the
contracts of which the semaphore is a part. The round under way relies on what no
one else changes.
-/

namespace RifRelayServer.Ticks

open Async Async.Program

section Turns

open Contract

variable {server : RelayServer} {contract : Contract (system server)} {id : ℕ} {s : TickState}

theorem sat_ofExcept {α : Type} {answer : Except String α} {Q : α → TickState → Prop}
    {E : String → TickState → Prop} (hQ : ∀ a, answer = .ok a → Q a s)
    (hE : ∀ e, answer = .error e → E e s) : contract.Sat id Q E (ofExcept answer) s := by
  cases answer with
  | ok a => exact hQ a rfl
  | error e => exact hE e rfl

/-- What the program with the number knows survives a wait. -/
theorem sat_receive {question : Question} {J : TickState → Prop} (hJ : contract.Stable id J)
    (h : J s) : contract.Sat id (fun _ t => J t) (fun _ t => J t) (receive question) s :=
  sat_bind.mpr fun _ hinv hleaves _ _ _ =>
    sat_ofExcept (fun _ _ => hJ hinv hleaves h) fun _ _ => hJ hinv hleaves h

theorem stable_idle : contract.Stable id (contract.Idle id) :=
  fun _ _ _ hleaves h => contract.idle_leaves hleaves h

/-- A tick resets the counter at will, and starts a round at most once. -/
theorem sat_intervalHandler (hs : contract.Inv s) (hidle : contract.Idle id s)
    (hreset : ∀ t, contract.Inv t → contract.Idle id t →
      contract.Allows id t (t.updated Relay.reset) ∧ contract.Idle id (t.updated Relay.reset))
    (hround : ∀ blockNumber t, contract.Inv t → contract.Idle id t →
      t.relay.lastScannedBlock < blockNumber →
        contract.Sat id (fun _ => contract.Idle id) (fun _ => contract.Idle id)
          (workerSemaphore server id blockNumber) t) :
    contract.Sat id (fun _ => contract.Idle id) (fun _ => contract.Idle id)
      (intervalHandler server id) s := by
  have hlatest : contract.Sat id (fun _ => contract.Idle id) (fun _ => contract.Idle id)
      latestBlock s := by
    apply Sat.bind (Sat.ask stable_idle hidle) hs
    intro answer t ht htidle
    rcases answer with e | _ | blockNumber
    · exact htidle
    · obtain ⟨hallows, hafter⟩ := hreset t ht htidle
      exact sat_bind.mpr ⟨hallows, Sat.ask stable_idle hafter⟩
    · exact htidle
  apply Sat.bind hlatest hs
  intro answer t ht htidle
  cases answer with
  | error e => exact sat_bind.mpr (hreset t ht htidle)
  | ok blockNumber =>
      refine sat_bind.mpr (sat_get.mpr ?_)
      split
      next hnew => exact hround blockNumber t ht htidle hnew
      · exact htidle

/-- A round that gets the semaphore. `J` holds as long as the round goes on, and `K`
of a round that completes. -/
theorem sat_workerSemaphore {J K : TickState → Prop} {blockNumber : ℕ}
    (hidle : contract.Idle id s)
    (hacquired : s.relay.workerSemaphoreOn = false →
      contract.Allows id s (s.updated (.acquired id)) ∧ J (s.updated (.acquired id)))
    (hworker : ∀ t, contract.Inv t → J t →
      contract.Sat id (fun _ t => K t) (fun _ t => J t) (worker server blockNumber) t)
    (hcompleted : ∀ t, contract.Inv t → K t →
      contract.Allows id t (t.updated .completed) ∧ J (t.updated .completed))
    (hthrew : ∀ t, contract.Inv t → J t →
      contract.Allows id t (t.updated .threw) ∧ J (t.updated .threw))
    (hreleased : ∀ t, contract.Inv t → J t →
      contract.Allows id t (t.updated (.released id)) ∧ contract.Idle id (t.updated (.released id)))
    (hJ : contract.Stable id J) (hK : contract.Stable id K) :
    contract.Sat id (fun _ => contract.Idle id) (fun _ => contract.Idle id)
      (workerSemaphore server id blockNumber) s := by
  refine sat_bind.mpr (sat_get.mpr ?_)
  split
  · exact hidle
  next hfree =>
    obtain ⟨hallows, hbegun⟩ := hacquired (Bool.not_eq_true _ ▸ hfree)
    refine sat_bind.mpr ⟨hallows, ?_⟩
    refine sat_bind.mpr (sat_attempt.mpr (Sat.mono (hworker _ hallows.inv hbegun) hallows.inv
      (fun _ t ht hdone => ?_) fun e t ht hfailed => ?_))
    · apply Sat.bind (Sat.ask hK hdone) ht
      intro _ u hu hcounted
      obtain ⟨hallows, hnoted⟩ := hcompleted u hu hcounted
      refine sat_bind.mpr ⟨hallows, ?_⟩
      exact Sat.bind (Sat.ask hJ hnoted) hallows.inv fun _ v hv h => hreleased v hv h
    · obtain ⟨hallows, hnoted⟩ := hthrew t ht hfailed
      refine sat_bind.mpr ⟨hallows, ?_⟩
      exact Sat.bind (Sat.ask hJ hnoted) hallows.inv fun _ v hv h => sat_bind.mpr (hreleased v hv h)

end Turns

/-- At most one round is under way, and the flag says whether one is. -/
def Relay.Exclusive (relay : Relay) : Prop :=
  relay.active = [] ∧ relay.workerSemaphoreOn = false ∨
    ∃ id, relay.active = [id] ∧ relay.workerSemaphoreOn = true

theorem Relay.Exclusive.eq_of_mem {relay : Relay} (h : relay.Exclusive) {id : ℕ}
    (hid : id ∈ relay.active) : relay.active = [id] := by
  rcases h with ⟨hnone, -⟩ | ⟨other, hactive, -⟩
  · simp [hnone] at hid
  · rw [hactive, List.mem_singleton] at hid
    rw [hactive, hid]

theorem Relay.Exclusive.active_eq_nil {relay : Relay} (h : relay.Exclusive)
    (hfree : relay.workerSemaphoreOn = false) : relay.active = [] := by
  rcases h with ⟨hnone, -⟩ | ⟨id, -, hheld⟩
  · exact hnone
  · simp [hfree] at hheld

theorem Relay.Exclusive.acquired {relay : Relay} (h : relay.Exclusive) (id : ℕ)
    (hfree : relay.workerSemaphoreOn = false) : (relay.acquired id).Exclusive :=
  Or.inr ⟨id, by rw [Relay.acquired, h.active_eq_nil hfree], rfl⟩

theorem exclusive_released {relay : Relay} {id : ℕ} (hactive : relay.active = [id]) :
    (relay.released id).Exclusive :=
  Or.inl ⟨by simp [Relay.released, hactive], rfl⟩

/-- What a result asks of the state beyond the semaphore. The round under way relies
on one relation between the states around its waits, each program on another. -/
structure Reliance (server : RelayServer) where
  Inv : TickState → Prop
  Moves : TickState → TickState → Prop := fun _ _ => True
  Rely : TickState → TickState → Prop
  Own : ℕ → TickState → TickState → Prop := fun _ _ _ => True
  Permits : TickState → (question : Question) → question.Answer → Prop := fun _ _ _ => True
  moves_refl : ∀ s, Moves s s := by exact fun _ => trivial
  moves_trans : ∀ {s t u}, Moves s t → Moves t u → Moves s u := by exact fun _ _ => trivial
  rely_refl : ∀ s, Rely s s
  rely_trans : ∀ {s t u}, Rely s t → Rely t u → Rely s u
  own_refl : ∀ id s, Own id s s := by exact fun _ _ => trivial
  own_trans : ∀ {id s t u}, Own id s t → Own id t u → Own id s u := by exact fun _ _ => trivial

namespace Reliance

variable {server : RelayServer} (reliance : Reliance server)

def contract : Contract (system server) where
  Inv s := s.relay.Exclusive ∧ reliance.Inv s
  Moves := reliance.Moves
  Leaves id s t := (id ∈ t.relay.active ↔ id ∈ s.relay.active) ∧
    (id ∈ s.relay.active → reliance.Rely s t) ∧ reliance.Own id s t
  Idle id s := id ∉ s.relay.active
  moves_refl := reliance.moves_refl
  moves_trans := reliance.moves_trans
  leaves_refl id s := ⟨Iff.rfl, fun _ => reliance.rely_refl s, reliance.own_refl id s⟩
  leaves_trans h h' := ⟨h'.1.trans h.1,
    fun hid => reliance.rely_trans (h.2.1 hid) (h'.2.1 (h.1.mpr hid)),
    reliance.own_trans h.2.2 h'.2.2⟩
  idle_leaves h hidle := fun hid => hidle (h.1.mp hid)
  Permits := reliance.Permits

variable {reliance} {id : ℕ} {s t : TickState}

/-- A change that no round under way minds. -/
theorem free (hs : reliance.contract.Inv s) (hactive : t.relay.active = s.relay.active)
    (hflag : t.relay.workerSemaphoreOn = s.relay.workerSemaphoreOn) (ht : reliance.Inv t)
    (hmoves : reliance.Moves s t) (hrely : reliance.Rely s t) :
    reliance.contract.Inv t ∧ reliance.contract.Moves s t ∧
      ∀ other, reliance.Own other s t → reliance.contract.Leaves other s t :=
  ⟨⟨by simpa only [Relay.Exclusive, hactive, hflag] using hs.1, ht⟩, hmoves,
    fun _ hown => ⟨by rw [hactive], fun _ => hrely, hown⟩⟩

theorem allows_free (hs : reliance.contract.Inv s) (hactive : t.relay.active = s.relay.active)
    (hflag : t.relay.workerSemaphoreOn = s.relay.workerSemaphoreOn) (ht : reliance.Inv t)
    (hmoves : reliance.Moves s t) (hrely : reliance.Rely s t)
    (hown : ∀ other, other ≠ id → reliance.Own other s t) : reliance.contract.Allows id s t :=
  have ⟨hinv, hmoves, hleaves⟩ := free hs hactive hflag ht hmoves hrely
  ⟨hinv, hmoves, fun other hne => hleaves other (hown other hne)⟩

/-- What the round under way may do. -/
theorem allows_held (hs : reliance.contract.Inv s) (hid : id ∈ s.relay.active)
    (hactive : t.relay.active = s.relay.active)
    (hflag : t.relay.workerSemaphoreOn = s.relay.workerSemaphoreOn) (ht : reliance.Inv t)
    (hmoves : reliance.Moves s t) (hown : ∀ other, reliance.Own other s t) :
    reliance.contract.Allows id s t := by
  refine ⟨⟨by simpa only [Relay.Exclusive, hactive, hflag] using hs.1, ht⟩, hmoves,
    fun other hne => ⟨by rw [hactive], fun hother => ?_, hown other⟩⟩
  rw [hs.1.eq_of_mem hid, List.mem_singleton] at hother
  exact absurd hother hne

theorem allows_acquired (hs : reliance.contract.Inv s)
    (hfree : s.relay.workerSemaphoreOn = false) (ht : reliance.Inv (s.updated (.acquired id)))
    (hmoves : reliance.Moves s (s.updated (.acquired id)))
    (hown : ∀ other, reliance.Own other s (s.updated (.acquired id))) :
    reliance.contract.Allows id s (s.updated (.acquired id)) := by
  have hnone := hs.1.active_eq_nil hfree
  refine ⟨⟨hs.1.acquired id hfree, ht⟩, hmoves, fun other hne => ⟨?_, fun hother => ?_, hown other⟩⟩
  · simp [TickState.updated, Relay.acquired, hnone, hne]
  · simp [hnone] at hother

theorem allows_released (hs : reliance.contract.Inv s) (hid : id ∈ s.relay.active)
    (ht : reliance.Inv (s.updated (.released id)))
    (hmoves : reliance.Moves s (s.updated (.released id)))
    (hown : ∀ other, reliance.Own other s (s.updated (.released id))) :
    reliance.contract.Allows id s (s.updated (.released id)) ∧
      reliance.contract.Idle id (s.updated (.released id)) := by
  have hactive := hs.1.eq_of_mem hid
  refine ⟨⟨⟨exclusive_released hactive, ht⟩, hmoves,
    fun other hne => ⟨?_, fun hother => ?_, hown other⟩⟩, ?_⟩
  · simp [TickState.updated, Relay.released, hactive, hne]
  · rw [hactive, List.mem_singleton] at hother
    exact absurd hother hne
  · simp [contract, TickState.updated, Relay.released, hactive]

end Reliance

end RifRelayServer.Ticks
