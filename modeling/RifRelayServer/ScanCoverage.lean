import RifRelayServer.EventDelivery
import Mathlib

/-!
# Where the scan starts

The cursor is constructed at the first block to scan, and a scan asks for the blocks
after the cursor. So the first block is in no request of any round.
-/

namespace RifRelayServer

open Keeping Runs

/-- The union of the requests has every block from the first to the last. -/
def Covered (queries : List Filter) (first last : ℕ) : Prop :=
  ∀ b, first ≤ b → b ≤ last → ∃ query ∈ queries, ∃ latest, query.spans latest b = true

/-- All that was asked for lies after the block, and so does the cursor unless it is there. -/
structure ScanState.After (first : ℕ) (x : ScanState) : Prop where
  first_le : first ≤ x.lastScannedBlock
  hubQueries : ∀ query ∈ x.hubQueries, query.StartsAfter first
  stakeQueries : ∀ query ∈ x.stakeQueries, query.StartsAfter first

theorem not_covered_of_startsAfter {queries : List Filter} {first last : ℕ} (hle : first ≤ last)
    (h : ∀ query ∈ queries, query.StartsAfter first) : ¬ Covered queries first last := by
  intro hcovered
  obtain ⟨query, hquery, latest, hspans⟩ := hcovered first le_rfl hle
  rw [(h query hquery).not_spans latest] at hspans
  cases hspans

section Run

variable {server : RelayServer} {round : Round} {first : ℕ} {x y : ScanState}

theorem ScanState.After.of_asksAfter (h : x.After first) (hasks : x.AsksAfter y)
    (hle : first ≤ y.lastScannedBlock) : y.After first where
  first_le := hle
  hubQueries query hquery :=
    (hasks.hubQueries query hquery).elim (h.hubQueries query) (·.mono h.first_le)
  stakeQueries query hquery :=
    (hasks.stakeQueries query hquery).elim (h.stakeQueries query) (·.mono h.first_le)

theorem ScanState.After.of_moves (h : x.After first) (hmoves : x.Moves server round y) :
    y.After first := by
  obtain ⟨hnew, hubEvents, stakeEventsSinceLastScan, -, -, rfl⟩ := hmoves
  have hstays := x.stays_afterScans server round hubEvents stakeEventsSinceLastScan
  exact h.of_asksAfter ⟨hstays.hubQueries, hstays.stakeQueries⟩ (h.first_le.trans hnew.le)

theorem after_of_workerStep {state state' : WorkerState} {event : WorkerEvent}
    (h : state.scan.After first) (hstep : workerStep server state event = some state') :
    state'.scan.After first := by
  rcases scan_of_workerStep hstep with hstays | ⟨round, -, hmoves⟩
  · exact h.of_asksAfter hstays.toAsksAfter (h.first_le.trans hstays.lastScannedBlock.ge)
  · exact h.of_moves hmoves

/-- However far the cursor has moved, the requests of neither scan have the first block. -/
theorem first_block_not_scanned {txStore : TxStore} {events : List WorkerEvent}
    {state : WorkerState}
    (hrun : run (workerStep server) (.constructed server.dependencies.config txStore) events =
      some state) :
    ¬ Covered state.scan.hubQueries server.dependencies.config.initialBlockToScan
        state.scan.lastScannedBlock ∧
      ¬ Covered state.scan.stakeQueries server.dependencies.config.initialBlockToScan
        state.scan.lastScannedBlock := by
  have hafter : state.scan.After server.dependencies.config.initialBlockToScan :=
    invariant_of_run (I := fun state : WorkerState => state.scan.After _)
      (fun state event state' h => after_of_workerStep h)
      ⟨le_rfl, fun _ h => absurd h List.not_mem_nil, fun _ h => absurd h List.not_mem_nil⟩ hrun
  exact ⟨not_covered_of_startsAfter hafter.first_le hafter.hubQueries,
    not_covered_of_startsAfter hafter.first_le hafter.stakeQueries⟩

end Run

theorem scan_answering :
    ((stateAfterTick answering).scan.lastScannedBlock, (stateAfterTick answering).scan.hubQueries) =
      (6, [logFilter sampleHub sampleManager defaultManagerEvents (some 2) (some .latest)]) := by
  decide +kernel

theorem first_block_not_scanned_answering :
    (stateAfterTick answering).scan.lastScannedBlock = 6 ∧
      ¬ Covered (stateAfterTick answering).scan.hubQueries 1
          (stateAfterTick answering).scan.lastScannedBlock ∧
        ¬ Covered (stateAfterTick answering).scan.stakeQueries 1
          (stateAfterTick answering).scan.lastScannedBlock :=
  ⟨(Prod.mk.inj scan_answering).1,
    @first_block_not_scanned sampleStakingServer TxStore.empty [.tick (sampleRound answering)]
      (stateAfterTick answering) rfl⟩

/-- The first block to scan is block 1, and the first round asks for the blocks from 2 on. -/
theorem scan_starts_late :
    ¬ ∀ (server : RelayServer) (txStore : TxStore) (events : List WorkerEvent)
        (state : WorkerState), 1 ≤ server.dependencies.config.initialBlockToScan →
      run (workerStep server) (.constructed server.dependencies.config txStore) events =
        some state →
      server.dependencies.config.initialBlockToScan < state.scan.lastScannedBlock →
      Covered state.scan.hubQueries server.dependencies.config.initialBlockToScan
          state.scan.lastScannedBlock ∧
        Covered state.scan.stakeQueries server.dependencies.config.initialBlockToScan
          state.scan.lastScannedBlock := by
  intro h
  obtain ⟨hcursor, hqueries⟩ := Prod.mk.inj scan_answering
  have hcovered := h sampleStakingServer TxStore.empty [.tick (sampleRound answering)]
    (stateAfterTick answering) le_rfl rfl (by rw [hcursor]; decide)
  obtain ⟨query, hquery, latest, hspans⟩ := hcovered.1 1 le_rfl (by rw [hcursor]; decide)
  rw [hqueries, List.mem_singleton] at hquery
  subst hquery
  exact absurd hspans (by simp [logFilter, Filter.spans])

end RifRelayServer
