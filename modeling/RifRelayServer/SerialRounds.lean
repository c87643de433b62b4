import RifRelayServer.Nonces
import RifRelayServer.Semaphore

/-!
# Rounds one at a time

A tick compares its block with the cursor before it waits for anything of the
round, and the worker compares again. Only the round that holds the semaphore moves
the cursor, so what it has compared still holds when it gets there.
-/

namespace RifRelayServer.Ticks

open Async Async.Program Async.Contract

/-- The cursor is where the last update left it, and each update moved it up. -/
structure Relay.ScansUpwards (initialBlockToScan : ℕ) (relay : Relay) : Prop where
  isChain : (initialBlockToScan :: relay.scannedBlocks).IsChain (· < ·)
  getLast : (initialBlockToScan :: relay.scannedBlocks).getLast? = some relay.lastScannedBlock

theorem Relay.ScansUpwards.scanned {initialBlockToScan blockNumber : ℕ} {relay : Relay}
    (h : relay.ScansUpwards initialBlockToScan) (hnew : relay.lastScannedBlock < blockNumber) :
    (relay.scanned blockNumber).ScansUpwards initialBlockToScan where
  isChain := by
    rw [Relay.scanned, ← List.cons_append, List.isChain_append]
    refine ⟨h.isChain, List.isChain_singleton _, fun last hlast next hnext => ?_⟩
    rw [h.getLast] at hlast
    cases hlast
    cases hnext
    exact hnew
  getLast := by rw [Relay.scanned, ← List.cons_append, List.getLast?_concat]

/-- What the cursor and the semaphore depend on. -/
def Relay.scanning (relay : Relay) : List ℕ × Bool × ℕ × List ℕ :=
  (relay.active, relay.workerSemaphoreOn, relay.lastScannedBlock, relay.scannedBlocks)

/-- No one else moves the cursor of the round under way. -/
def scanReliance (server : RelayServer) (initialBlockToScan : ℕ) : Reliance server where
  Inv s := s.relay.ScansUpwards initialBlockToScan
  Moves s t := s.relay.lastScannedBlock ≤ t.relay.lastScannedBlock ∧
    s.relay.scannedBlocks <+: t.relay.scannedBlocks
  Rely s t := t.relay.lastScannedBlock = s.relay.lastScannedBlock
  moves_refl _ := ⟨le_rfl, List.prefix_rfl⟩
  moves_trans h h' := ⟨h.1.trans h'.1, h.2.trans h'.2⟩
  rely_refl _ := rfl
  rely_trans h h' := h'.trans h

abbrev scanContract (server : RelayServer) (initialBlockToScan : ℕ) : Contract (system server) :=
  (scanReliance server initialBlockToScan).contract

variable {server : RelayServer} {initialBlockToScan id blockNumber : ℕ} {s t : TickState}

theorem scanContract_dependsOn :
    (scanContract server initialBlockToScan).DependsOn fun s => s.relay.scanning := by
  intro s t hs hpart
  simp only [Relay.scanning, Prod.mk.injEq] at hpart
  obtain ⟨hactive, hflag, hcursor, hscanned⟩ := hpart
  have ⟨hinv, hmoves, hleaves⟩ := Reliance.free hs hactive hflag
    (⟨hscanned ▸ hs.2.isChain, by rw [hscanned, hcursor, hs.2.getLast]⟩ :
      t.relay.ScansUpwards initialBlockToScan)
    ⟨hcursor.ge, hscanned ▸ List.prefix_rfl⟩ hcursor
  exact ⟨hinv, hmoves, fun id => hleaves id trivial⟩

/-- The program with the number is in a round that was let through to the block. -/
def Scans (id blockNumber : ℕ) (s : TickState) : Prop :=
  id ∈ s.relay.active ∧ s.relay.lastScannedBlock < blockNumber

theorem Scans.of_eq (hpart : t.relay.scanning = s.relay.scanning) (h : Scans id blockNumber s) :
    Scans id blockNumber t := by
  simp only [Relay.scanning, Prod.mk.injEq] at hpart
  simpa only [Scans, hpart.1, hpart.2.2.1] using h

theorem stable_scans : (scanContract server initialBlockToScan).Stable id (Scans id blockNumber) :=
  fun _ _ _ hleaves h => ⟨hleaves.1.mpr h.1, (hleaves.2.1 h.1).trans_lt h.2⟩

theorem stable_active : (scanContract server initialBlockToScan).Stable id (id ∈ ·.relay.active) :=
  fun _ _ _ hleaves h => hleaves.1.mpr h

theorem active_of_eq (hpart : t.relay.scanning = s.relay.scanning) (h : id ∈ s.relay.active) :
    id ∈ t.relay.active := by
  simp only [Relay.scanning, Prod.mk.injEq] at hpart
  rwa [hpart.1]

/-- The program keeps the contract as a part of the round under way. -/
abbrev InRound {α : Type} (server : RelayServer) (initialBlockToScan id : ℕ) (program : TickM α)
    (s : TickState) : Prop :=
  (scanContract server initialBlockToScan).Sat id (fun _ t => id ∈ t.relay.active)
    (fun _ t => id ∈ t.relay.active) program s

theorem inRound_of_spares {α : Type} {program : TickM α}
    (hspares : program.Spares fun s => s.relay.scanning)
    (hs : (scanContract server initialBlockToScan).Inv s) (hid : id ∈ s.relay.active) :
    InRound server initialBlockToScan id program s :=
  Sat.of_spares scanContract_dependsOn hspares (fun _ _ => active_of_eq) stable_active hs hid

/-- What was compared with the cursor still holds after a part that spares it. -/
theorem inRound_bind {α : Type} {program : TickM α} {f : α → TickM Unit}
    (hspares : program.Spares fun s => s.relay.scanning)
    (hs : (scanContract server initialBlockToScan).Inv s) (h : Scans id blockNumber s)
    (hf : ∀ a t, (scanContract server initialBlockToScan).Inv t → Scans id blockNumber t →
      InRound server initialBlockToScan id (f a) t) :
    InRound server initialBlockToScan id (program >>= f) s :=
  Sat.spares_bind scanContract_dependsOn hspares (fun _ _ => Scans.of_eq) stable_scans hs h
    (fun _ _ _ h => h.1) hf

theorem inRound_handleChanges (hs : (scanContract server initialBlockToScan).Inv s)
    (h : Scans id blockNumber s) :
    InRound server initialBlockToScan id (handleChanges server blockNumber) s := by
  refine inRound_bind (spares_handleEventsSinceLastScan server (fun _ _ => rfl) blockNumber) hs h
    fun changes t ht hscans => ?_
  have hallows : (scanContract server initialBlockToScan).Allows id t
      (t.updated (.scanned blockNumber)) :=
    Reliance.allows_held ht hscans.1 rfl rfl (ht.2.scanned hscans.2)
      ⟨hscans.2.le, List.prefix_append _ _⟩ fun _ => trivial
  refine sat_bind.mpr ⟨hallows, inRound_of_spares (spares_finishRound server (fun _ _ => rfl)
    (fun _ _ _ => rfl) blockNumber _ _) hallows.inv hscans.1⟩

theorem inRound_scanBlock (hs : (scanContract server initialBlockToScan).Inv s)
    (hid : id ∈ s.relay.active) :
    InRound server initialBlockToScan id (scanBlock server blockNumber) s := by
  refine sat_bind.mpr (sat_get.mpr ?_)
  split
  · exact hid
  next hnew =>
    split
    · refine inRound_bind (spares_updateRelay fun _ => rfl) hs ⟨hid, not_le.mp hnew⟩
        fun _ t ht hscans => inRound_bind (spares_refreshGasPrice fun _ _ => rfl) ht hscans
        fun _ t ht hscans => inRound_bind (spares_receive _) ht hscans
        fun managerBalance t ht hscans => ?_
      split
      · exact inRound_of_spares (spares_setReadyState (fun _ _ => rfl) false) ht hscans.1
      · exact inRound_handleChanges ht hscans
    · exact hid

theorem inRound_worker (hs : (scanContract server initialBlockToScan).Inv s)
    (hid : id ∈ s.relay.active) :
    InRound server initialBlockToScan id (worker server blockNumber) s := by
  refine sat_bind.mpr (sat_get.mpr ?_)
  split
  · exact Sat.bind (inRound_of_spares (spares_init fun _ => rfl) hs hid) hs
      fun _ t ht hid => inRound_scanBlock ht hid
  · exact inRound_scanBlock hs hid

theorem scanContract_keeps : Keeps (system server) (scanContract server initialBlockToScan) where
  start job id s hs hidle := by
    have hspared : ∀ {program : TickM Unit}, (program.Spares fun s => s.relay.scanning) →
        (scanContract server initialBlockToScan).Sat id (fun _ t => id ∉ t.relay.active)
          (fun _ t => id ∉ t.relay.active) program s :=
      fun hspares => Sat.of_spares scanContract_dependsOn hspares
        (fun _ _ hpart h => fun hid => h (active_of_eq hpart.symm hid)) stable_idle hs hidle
    cases job with
    | init => exact hspared (spares_init fun _ => rfl)
    | relayRequest request =>
        exact hspared (spares_createRelayTransaction server (fun _ _ => rfl) (fun _ _ => rfl) id request)
    | tick =>
        refine sat_intervalHandler hs hidle (fun t ht htidle => ⟨scanContract_dependsOn.allows ht rfl,
          htidle⟩) fun blockNumber t ht htidle _ => ?_
        refine sat_workerSemaphore (J := fun u => id ∈ u.relay.active)
          (K := fun u => id ∈ u.relay.active) htidle (fun hfree => ?_)
          (fun u hu hid => inRound_worker hu hid)
          (fun u hu hid => ⟨scanContract_dependsOn.allows hu rfl, hid⟩)
          (fun u hu hid => ⟨scanContract_dependsOn.allows hu rfl, hid⟩)
          (fun u hu hid => Reliance.allows_released hu hid ⟨hu.2.isChain, hu.2.getLast⟩
            ⟨le_rfl, List.prefix_rfl⟩ fun _ => trivial) stable_active stable_active
        exact ⟨Reliance.allows_acquired ht hfree ⟨ht.2.isChain, ht.2.getLast⟩
          ⟨le_rfl, List.prefix_rfl⟩ fun _ => trivial, List.mem_cons_self⟩
  outside s event t hs hstep := by
    obtain ⟨calls, -, rfl⟩ := Option.map_eq_some_iff.mp hstep
    exact scanContract_dependsOn hs rfl

theorem kept_launched (txStore : TxStore) :
    Kept (scanContract server server.dependencies.config.initialBlockToScan)
      (launched server txStore) :=
  kept_initial ⟨Or.inl ⟨rfl, rfl⟩, ⟨List.isChain_singleton _, rfl⟩⟩ fun _ hid => by cases hid

/-- However ticks overlap, at most one round is under way, and the semaphore is on
exactly while one is: its tick still waits. The cursor moves up only, and each
round that moves it moves it to a larger block. -/
theorem rounds_serialised {txStore : TxStore} {events : List TickEvent} {state : Ticking}
    (hrun : Runs.run (tickStep server) (launched server txStore) events = some state) :
    state.shared.relay.active.length ≤ 1 ∧
      (state.shared.relay.workerSemaphoreOn = true ↔ state.shared.relay.active ≠ []) ∧
      (∀ id ∈ state.shared.relay.active,
        ∃ question next, state.programs[id]? = some (.await question next)) ∧
      (server.dependencies.config.initialBlockToScan ::
        state.shared.relay.scannedBlocks).Pairwise (· < ·) ∧
      (server.dependencies.config.initialBlockToScan ::
        state.shared.relay.scannedBlocks).getLast? = some state.shared.relay.lastScannedBlock ∧
      ∀ later state', Runs.run (tickStep server) state later = some state' →
        state.shared.relay.lastScannedBlock ≤ state'.shared.relay.lastScannedBlock ∧
          state.shared.relay.scannedBlocks <+: state'.shared.relay.scannedBlocks := by
  obtain ⟨hkept, -⟩ := (kept_launched txStore).run scanContract_keeps
    (along_permitted (fun _ _ _ => trivial) _ events) hrun
  obtain ⟨hexclusive, hscans⟩ := hkept.inv
  refine ⟨?_, ?_, fun id hid => hkept.waits (not_not.mpr hid), hscans.isChain.pairwise,
    hscans.getLast, fun later state' hlater => ?_⟩
  · rcases hexclusive with ⟨hactive, -⟩ | ⟨id, hactive, -⟩ <;> simp [hactive]
  · rcases hexclusive with ⟨hactive, hflag⟩ | ⟨id, hactive, hflag⟩ <;> simp [hactive, hflag]
  · exact (hkept.run scanContract_keeps (along_permitted (fun _ _ _ => trivial) _ later) hlater).2

/-- Answers for a round of a registered server with nothing to do but look. -/
def quietAnswers (blockNumber : ℕ) (gasPrice : Except String ℕ) :
    ∀ question, Question.Answer question
  | .latestBlockOrTimeout => .ok (some blockNumber)
  | .latestBlock => .ok blockNumber
  | .gasPrice => gasPrice
  | .balance => .ok 5000
  | .transactionCount => .ok 0
  | .hubEvents | .activeEvents | .stakeEvents => .ok []
  | .withdrawal _ | .transaction _ => .ok none
  | .registrationView => .ok ⟨0, true, true, true, true⟩
  | .populated => .ok ("0x", 0)
  | .broadcast => .ok ""
  | .handlers | .init | .asyncFind | .stakeInfo | .signature | .stored | .call _ | .sleep |
    .requestChecks => .ok ()

def resumed (id turns : ℕ) (answers : ∀ question, Question.Answer question) : List TickEvent :=
  List.replicate turns (.resume id answers)

/-- A tick with all the turns of its round, which waits for one call. -/
def readyRound : List TickEvent :=
  .start .tick :: resumed 0 14 (quietAnswers 10 (.ok 7)) ++
    List.replicate 2 (.outside (.resume 0 (.balance (.ok 5000)))) ++
    resumed 0 4 (quietAnswers 10 (.ok 7))

def ticked (events : List TickEvent) : Ticking :=
  (Runs.run (tickStep sampleServer) (launched sampleServer .empty) events).getD
    (launched sampleServer .empty)

theorem run_ticked {events : List TickEvent}
    (h : (Runs.run (tickStep sampleServer) (launched sampleServer .empty) events).isSome = true) :
    Runs.run (tickStep sampleServer) (launched sampleServer .empty) events =
      some (ticked events) := by
  obtain ⟨state, hstate⟩ := Option.isSome_iff_exists.mp h
  rw [ticked, hstate, Option.getD_some]

/-- A second tick comes in the middle of the round, and is skipped. -/
def overlapped : List TickEvent :=
  readyRound.take 6 ++ [.start .tick, .resume 1 (quietAnswers 9 (.ok 7))] ++ readyRound.drop 6

theorem rounds_serialised_overlapped :
    (ticked overlapped).shared.relay.scannedBlocks = [10] ∧
      (ticked overlapped).shared.relay.active.length ≤ 1 :=
  ⟨by decide +kernel, (rounds_serialised (@run_ticked overlapped (by decide +kernel))).1⟩

end RifRelayServer.Ticks
