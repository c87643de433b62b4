import RifRelayServer.SerialRounds

/-!
# Readiness after a failure

A round that throws never reaches the handler that resets the success counter: it
is caught by neither handler of the block's promise. The counter goes on from where
it was, unless it is zero already.
-/

namespace RifRelayServer.Ticks

open Async Async.Program Async.Contract

section Failures

variable {server : RelayServer}

/-- The server counts no more successes than there were since a failure, and those
that it had counted before. -/
def Relay.CountsSinceFailures (relay : Relay) : Prop :=
  ∀ before k after, relay.rounds = before ++ .threw k :: after →
    relay.lastSuccessfulRounds ≤ k + after.count .completed

theorem append_singleton_eq {α : Type} {items before after : List α} {item it : α}
    (h : items ++ [item] = before ++ it :: after) :
    (after = [] ∧ it = item ∧ items = before) ∨
      ∃ rest, after = rest ++ [item] ∧ items = before ++ it :: rest := by
  rcases List.eq_nil_or_concat' after with rfl | ⟨rest, last, rfl⟩
  · obtain ⟨hitems, hitem⟩ := List.append_inj' h rfl
    exact Or.inl ⟨rfl, (List.singleton_inj.mp hitem).symm, hitems⟩
  · rw [← List.cons_append, ← List.append_assoc] at h
    obtain ⟨hitems, hitem⟩ := List.append_inj' h rfl
    exact Or.inr ⟨rest, by rw [List.singleton_inj.mp hitem], hitems⟩

theorem Relay.CountsSinceFailures.completed {relay : Relay} (h : relay.CountsSinceFailures) :
    relay.completed.CountsSinceFailures := by
  intro before k after hrounds
  rcases append_singleton_eq hrounds with ⟨-, hthrew, -⟩ | ⟨rest, rfl, hrest⟩
  · cases hthrew
  · have hcount := h before k rest hrest
    simp only [Relay.completed, nextSuccessfulRound, List.count_append, List.count_singleton_self]
    omega

theorem Relay.CountsSinceFailures.threw {relay : Relay} (h : relay.CountsSinceFailures) :
    relay.threw.CountsSinceFailures := by
  intro before k after hrounds
  rcases append_singleton_eq hrounds with ⟨rfl, hthrew, -⟩ | ⟨rest, rfl, hrest⟩
  · cases hthrew
    exact Nat.le_add_right _ _
  · exact (h before k rest hrest).trans (by simp)

theorem countsSinceFailures_reset (relay : Relay) : relay.reset.CountsSinceFailures :=
  fun _ _ _ _ => Nat.zero_le _

/-- What the success counter depends on. -/
def Relay.counting (relay : Relay) : List RoundOutcome × ℕ :=
  (relay.rounds, relay.lastSuccessfulRounds)

def countingContract (server : RelayServer) : Contract (system server) where
  Inv s := s.relay.CountsSinceFailures
  Moves _ _ := True
  Leaves _ _ _ := True
  Idle _ _ := True
  moves_refl _ := trivial
  moves_trans _ _ := trivial
  leaves_refl _ _ := trivial
  leaves_trans _ _ := trivial
  idle_leaves _ _ := trivial
  Permits _ _ _ := True

theorem spares_worker_counting (blockNumber : ℕ) :
    (worker server blockNumber).Spares fun s => s.relay.counting := by
  have hhandle : (handleChanges server blockNumber).Spares fun s => s.relay.counting :=
    (spares_handleEventsSinceLastScan server (fun _ _ => rfl) blockNumber).bind fun _ =>
      (spares_updateRelay fun _ => rfl).bind fun _ =>
        spares_finishRound server (fun _ _ => rfl) (fun _ _ _ => rfl) blockNumber _ _
  have hrefresh : (refreshAndHandleChanges server blockNumber).Spares
      fun s => s.relay.counting := by
    refine (spares_updateRelay fun _ => rfl).bind fun _ =>
      (spares_refreshGasPrice fun _ _ => rfl).bind fun _ =>
      (spares_receive _).bind fun managerBalance => ?_
    split
    · exact spares_setReadyState (fun _ _ => rfl) false
    · exact hhandle
  have hscan : (scanBlock server blockNumber).Spares fun s => s.relay.counting := by
    apply spares_get.bind
    intro s
    split
    · exact spares_fail _
    · split
      · exact hrefresh
      · exact spares_pure ()
  apply spares_get.bind
  intro s
  split
  · exact (spares_init fun _ => rfl).bind fun _ => hscan
  · exact hscan

theorem countingContract_dependsOn :
    (countingContract server).DependsOn fun s => s.relay.counting := by
  intro s t hs hpart
  obtain ⟨hrounds, hcounter⟩ := Prod.ext_iff.mp hpart
  refine ⟨fun before k after h => ?_, trivial, fun _ => trivial⟩
  have hle := hs before k after (hrounds.symm.trans h)
  exact hcounter.le.trans hle

theorem countingContract_keeps : Keeps (system server) (countingContract server) where
  start job id s hs _ := by
    have hspared : ∀ {program : TickM Unit} {s : TickState}, (program.Spares fun s => s.relay.counting) →
        s.relay.CountsSinceFailures → (countingContract server).Sat id (fun _ _ => True)
          (fun _ _ => True) program s :=
      fun hspares hs => Sat.of_spares countingContract_dependsOn hspares (fun _ _ _ h => h)
        (fun _ _ _ _ h => h) hs trivial
    have hallows : ∀ {s t : TickState}, t.relay.CountsSinceFailures →
        (countingContract server).Allows id s t :=
      fun ht => ⟨ht, trivial, fun _ _ => trivial⟩
    cases job with
    | init => exact hspared (spares_init fun _ => rfl) hs
    | relayRequest request => exact hspared (spares_createRelayTransaction
        server (fun _ _ => rfl) (fun _ _ => rfl) id request) hs
    | tick =>
        refine sat_intervalHandler hs trivial (fun t _ _ => ⟨hallows (countsSinceFailures_reset _),
          trivial⟩) fun blockNumber t ht _ _ => ?_
        refine sat_workerSemaphore (J := fun _ => True) (K := fun _ => True) trivial
          (fun _ => ⟨hallows ht, trivial⟩) (fun u hu _ => hspared (spares_worker_counting blockNumber) hu)
          (fun u hu _ => ⟨hallows hu.completed, trivial⟩) (fun u hu _ => ⟨hallows hu.threw, trivial⟩)
          (fun u hu _ => ⟨hallows hu, trivial⟩) (fun _ _ _ _ h => h) (fun _ _ _ _ h => h)
  outside s event t hs hstep := by
    obtain ⟨calls, -, rfl⟩ := Option.map_eq_some_iff.mp hstep
    exact ⟨hs, trivial, fun _ => trivial⟩

theorem kept_counting (txStore : TxStore) :
    Kept (countingContract server) (launched server txStore) := by
  refine kept_initial (fun before k after hrounds => ?_) fun _ => trivial
  simp [TickState.initial] at hrounds

/-- A round that throws while no success is counted leaves the server not ready until
enough rounds have completed. One that throws later on leaves the counter as it is. -/
theorem not_ready_after_failed_round {txStore : TxStore} {events : List TickEvent}
    {state : Ticking}
    (hrun : Runs.run (tickStep server) (launched server txStore) events = some state)
    {before after : List RoundOutcome} {k : ℕ}
    (hrounds : state.shared.relay.rounds = before ++ .threw k :: after) (hcounter : k = 0)
    (hfew : (after.count .completed : ℤ) < server.dependencies.config.successfulRoundsForReady) :
    state.shared.relay.isReady server = false := by
  obtain ⟨hkept, -⟩ := (kept_counting txStore).run countingContract_keeps
    (along_permitted (fun _ _ _ => trivial) _ events) hrun
  have hcount := hkept.inv before k after hrounds
  exact if_pos (by omega)

/-- The worker's first round throws after its tick had timed out. -/
def timedOutRound : List TickEvent :=
  .start .tick :: .resume 0 (fun
    | .latestBlockOrTimeout => .ok none
    | question => quietAnswers 10 (.ok 7) question) :: resumed 0 4 (quietAnswers 10 (.ok 0))

theorem not_ready_after_failed_round_timedOutRound :
    (ticked timedOutRound).shared.relay.rounds = [.threw 0] ∧
      (ticked timedOutRound).shared.relay.isReady sampleServer = false :=
  have hrounds : (ticked timedOutRound).shared.relay.rounds = [] ++ .threw 0 :: [] := by
    decide +kernel
  ⟨hrounds, not_ready_after_failed_round (@run_ticked timedOutRound (by decide +kernel)) hrounds rfl
    (by decide)⟩

/-- A ready server stays ready when a round throws: here its second. -/
theorem ready_after_failed_round :
    let state := ticked (readyRound ++ .start .tick :: resumed 1 2 (quietAnswers 20 (.error "timeout")))
    Runs.run (tickStep sampleServer) (launched sampleServer .empty)
        (readyRound ++ .start .tick :: resumed 1 2 (quietAnswers 20 (.error "timeout"))) = some state ∧
      state.shared.relay.rounds = [.completed, .threw (2 ^ 53)] ∧
      0 < sampleServer.dependencies.config.successfulRoundsForReady ∧
      state.shared.relay.isReady sampleServer = true :=
  ⟨run_ticked (by decide +kernel), by decide +kernel, by decide +kernel, by decide +kernel⟩

end Failures

end RifRelayServer.Ticks
