import RifRelayServer.Fees
import RifRelayServer.SerialRounds

/-!
# The gas price of a ready server

`refreshGasPrice` stores the price before it refuses a zero. A server that is ready
by then stays ready, and takes requests of any gas price.
-/

namespace RifRelayServer.Ticks

open Async Async.Program Async.Contract

/-- A ready server has a gas price, also for the requests that it holds back, and so
have the requests that it accepted. -/
structure Relay.Priced (server : RelayServer) (relay : Relay) : Prop where
  ready : relay.isReady server = true → 0 < relay.gasPrice
  delayed : relay.delayed ≠ [] → 0 < relay.gasPrice
  accepted : ∀ request ∈ relay.accepted, 0 < request.relayRequest.relayData.gasPrice

def isZeroPrice : (question : Question) → question.Answer → Bool
  | .gasPrice, .ok 0 => true
  | _, _ => false

/-- A zero price is reported only while the server is not ready and holds back no
request. -/
def ZeroPriceUnseen (server : RelayServer) (s : TickState) (question : Question)
    (answer : question.Answer) : Prop :=
  isZeroPrice question answer = true → s.relay.isReady server = false ∧ s.relay.delayed = []

instance (server : RelayServer) (s : TickState) (question : Question) (answer : question.Answer) :
    Decidable (ZeroPriceUnseen server s question answer) :=
  inferInstanceAs (Decidable (isZeroPrice question answer = true →
    s.relay.isReady server = false ∧ s.relay.delayed = []))

/-- What the readiness and the gas price depend on. -/
def Relay.pricing (relay : Relay) :
    List ℕ × Bool × ℕ × Bool × ℕ × List ℕ × List HttpEnvelopingRequest :=
  (relay.active, relay.workerSemaphoreOn, relay.gasPrice, relay.ready, relay.lastSuccessfulRounds,
    relay.delayed, relay.accepted)

/-- No one else changes the price in a round, and no one lets a request go but itself. -/
def priceReliance (server : RelayServer) : Reliance server where
  Inv s := s.relay.Priced server
  Rely s t := t.relay.gasPrice = s.relay.gasPrice
  Own id s t := id ∈ s.relay.delayed → id ∈ t.relay.delayed
  Permits := ZeroPriceUnseen server
  rely_refl _ := rfl
  rely_trans h h' := h'.trans h
  own_refl _ _ h := h
  own_trans h h' := h' ∘ h

abbrev priceContract (server : RelayServer) : Contract (system server) :=
  (priceReliance server).contract

variable {server : RelayServer} {id : ℕ} {s t : TickState}

theorem Relay.isReady_congr {relay relay' : Relay} (hready : relay'.ready = relay.ready)
    (hcounter : relay'.lastSuccessfulRounds = relay.lastSuccessfulRounds) :
    relay'.isReady server = relay.isReady server := by
  rw [Relay.isReady, Relay.isReady, hready, hcounter]

theorem Relay.isReady_iff {relay : Relay} : relay.isReady server = true ↔
    server.dependencies.config.successfulRoundsForReady ≤ relay.lastSuccessfulRounds ∧
      relay.ready = true := by
  rw [Relay.isReady, ← not_lt]
  by_cases hfew : (relay.lastSuccessfulRounds : ℤ) <
      server.dependencies.config.successfulRoundsForReady
  · simp [hfew]
  · simp [hfew]

theorem Relay.isReady_of_reset {relay : Relay} (h : relay.reset.isReady server = true) :
    relay.isReady server = true := by
  rw [Relay.isReady_iff] at h ⊢
  exact ⟨h.1.trans (Int.natCast_nonneg _), h.2⟩

theorem Relay.Priced.of_eq {relay relay' : Relay} (hpart : relay'.pricing = relay.pricing)
    (h : relay.Priced server) : relay'.Priced server := by
  simp only [Relay.pricing, Prod.mk.injEq] at hpart
  obtain ⟨-, -, hgasPrice, hready, hcounter, hdelayed, haccepted⟩ := hpart
  refine ⟨fun hisReady => ?_, fun hheld => ?_, fun request hrequest => ?_⟩
  · rw [Relay.isReady_congr hready hcounter] at hisReady
    exact hgasPrice ▸ h.ready hisReady
  · exact hgasPrice ▸ h.delayed (hdelayed ▸ hheld)
  · exact h.accepted request (haccepted ▸ hrequest)

theorem priceContract_dependsOn : (priceContract server).DependsOn fun s => s.relay.pricing := by
  intro s t hs hpart
  have hpriced : t.relay.Priced server := hs.2.of_eq hpart
  simp only [Relay.pricing, Prod.mk.injEq] at hpart
  have ⟨hinv, hmoves, hleaves⟩ := Reliance.free hs hpart.1 hpart.2.1 hpriced trivial hpart.2.2.1
  refine ⟨hinv, hmoves, fun id => hleaves id fun hid => ?_⟩
  rwa [hpart.2.2.2.2.2.1]

/-- The program with the number is in a round that has refreshed the gas price. -/
def Refreshed (id : ℕ) (s : TickState) : Prop := id ∈ s.relay.active ∧ 0 < s.relay.gasPrice

theorem stable_refreshed : (priceContract server).Stable id (Refreshed id) :=
  fun _ _ _ hleaves h => ⟨hleaves.1.mpr h.1, (hleaves.2.1 h.1).symm ▸ h.2⟩

theorem Reliance.stable_active {reliance : Reliance server} :
    reliance.contract.Stable id (id ∈ ·.relay.active) :=
  fun _ _ _ hleaves h => hleaves.1.mpr h

theorem Refreshed.of_eq (hpart : t.relay.pricing = s.relay.pricing) (h : Refreshed id s) :
    Refreshed id t := by
  simp only [Relay.pricing, Prod.mk.injEq] at hpart
  simpa only [Refreshed, hpart.1, hpart.2.2.1] using h

theorem mem_active_of_pricing (hpart : t.relay.pricing = s.relay.pricing)
    (h : id ∈ s.relay.active) : id ∈ t.relay.active := by
  simp only [Relay.pricing, Prod.mk.injEq] at hpart
  rwa [hpart.1]

/-- The program keeps the contract as a part of the round under way. When it returns,
the gas price is positive. -/
abbrev Prices {α : Type} (server : RelayServer) (id : ℕ) (program : TickM α) (s : TickState) :
    Prop :=
  (priceContract server).Sat id (fun _ t => Refreshed id t) (fun _ t => id ∈ t.relay.active)
    program s

theorem prices_of_spares {α : Type} {program : TickM α}
    (hspares : program.Spares fun s => s.relay.pricing) (hs : (priceContract server).Inv s)
    (h : Refreshed id s) : Prices server id program s :=
  (Sat.of_spares priceContract_dependsOn hspares (fun _ _ => Refreshed.of_eq) stable_refreshed hs
    h).mono hs (fun _ _ _ h => h) fun _ _ _ h => h.1

theorem prices_bind {α : Type} {program : TickM α} {f : α → TickM Unit}
    (h : Prices server id program s) (hs : (priceContract server).Inv s)
    (hf : ∀ a t, (priceContract server).Inv t → Refreshed id t → Prices server id (f a) t) :
    Prices server id (program >>= f) s :=
  Sat.bind h hs hf

theorem prices_setReadyState {isReady : Bool} (hs : (priceContract server).Inv s)
    (h : Refreshed id s) : Prices server id (setReadyState isReady) s :=
  ⟨Reliance.allows_held hs h.1 rfl rfl ⟨fun _ => h.2, fun _ => h.2, hs.2.accepted⟩ trivial
    fun _ hid => hid, h⟩

theorem prices_refreshGasPrice (hid : id ∈ s.relay.active) :
    Prices server id refreshGasPrice s := by
  refine sat_bind.mpr (sat_bind.mpr fun t ht hleaves _ answer hunseen => ?_)
  have hheld : id ∈ t.relay.active := hleaves.1.mpr hid
  cases answer with
  | error e => exact hheld
  | ok gasPrice =>
      have hzeroPrice : gasPrice = 0 → t.relay.isReady server = false ∧ t.relay.delayed = [] := by
        rintro rfl
        exact hunseen rfl
      have hallows : (priceContract server).Allows id t
          (t.updated fun relay => { relay with gasPrice }) := by
        refine Reliance.allows_held ht hheld rfl rfl ⟨fun hready => ?_, fun hdelayed => ?_,
          ht.2.accepted⟩ trivial fun _ hid => hid
        · apply Nat.pos_of_ne_zero
          intro hzero
          have hbefore : t.relay.isReady server = true := hready
          rw [(hzeroPrice hzero).1] at hbefore
          cases hbefore
        · exact Nat.pos_of_ne_zero fun hzero => hdelayed (hzeroPrice hzero).2
      refine sat_bind.mpr ⟨hallows, ?_⟩
      split
      · exact hheld
      next hpositive => exact ⟨hheld, Nat.pos_of_ne_zero hpositive⟩

theorem prices_finishRound {blockNumber : ℕ} {hubEvents : List TypedEvent} {isRegistered : Bool}
    (hs : (priceContract server).Inv s) (h : Refreshed id s) :
    Prices server id (finishRound server blockNumber hubEvents isRegistered) s := by
  unfold finishRound
  split
  · exact prices_bind (prices_setReadyState hs h) hs fun _ t _ ht => ht
  · refine prices_bind (prices_of_spares (spares_handlePastHubEvents (fun _ _ _ => rfl) _ _) hs h) hs
      fun _ t ht h => prices_bind (prices_of_spares ((spares_callAndWait server _).comp
        Relay.pricing) ht h) ht fun _ t ht h => prices_bind (prices_of_spares (spares_receive _) ht h)
      ht fun workerBalance t ht h => ?_
    split
    · exact prices_bind (prices_setReadyState ht h) ht fun _ t _ ht => ht
    · exact prices_bind (prices_setReadyState ht h) ht fun _ t ht h =>
        prices_of_spares (spares_leaveAlertedState server (fun _ _ _ => rfl) _) ht h

theorem prices_handleChanges {blockNumber : ℕ} (hs : (priceContract server).Inv s)
    (h : Refreshed id s) : Prices server id (handleChanges server blockNumber) s :=
  prices_bind (prices_of_spares (spares_handleEventsSinceLastScan server (fun _ _ => rfl) _) hs h) hs
    fun _ _ ht h => prices_bind (prices_of_spares (spares_updateRelay fun _ => rfl) ht h) ht
    fun _ _ ht h => prices_finishRound ht h

theorem prices_scanBlock {blockNumber : ℕ} (hs : (priceContract server).Inv s)
    (hid : id ∈ s.relay.active) : Prices server id (scanBlock server blockNumber) s := by
  refine sat_bind.mpr (sat_get.mpr ?_)
  split
  · exact hid
  · split
    · have hallows : (priceContract server).Allows id s
          (s.updated fun relay => { relay with lastRefreshBlock := blockNumber }) :=
        priceContract_dependsOn.allows hs rfl
      refine sat_bind.mpr ⟨hallows, ?_⟩
      refine prices_bind (prices_refreshGasPrice hid) hallows.inv fun _ t ht h =>
        prices_bind (prices_of_spares (spares_receive _) ht h) ht fun managerBalance t ht h => ?_
      split
      · exact prices_setReadyState ht h
      · exact prices_handleChanges ht h
    next hfresh =>
      -- a round that skips its block was let by because the server is ready
      refine ⟨hid, hs.2.ready ?_⟩
      simp only [Relay.shouldRefreshState, Bool.or_eq_true, not_or, Bool.not_eq_true',
        Bool.not_eq_false] at hfresh
      exact hfresh.2

theorem prices_worker {blockNumber : ℕ} (hs : (priceContract server).Inv s)
    (hid : id ∈ s.relay.active) : Prices server id (worker server blockNumber) s := by
  refine sat_bind.mpr (sat_get.mpr ?_)
  split
  · exact Sat.spares_bind priceContract_dependsOn (spares_init fun _ => rfl)
      (fun _ _ => mem_active_of_pricing) Reliance.stable_active hs hid (fun _ _ _ h => h)
      fun _ _ ht hid => prices_scanBlock ht hid
  · exact prices_scanBlock hs hid

/-- A request that finds the server ready, and may be held back, gets on while there is
a gas price. -/
theorem sat_slowDown (hs : (priceContract server).Inv s) (hidle : id ∉ s.relay.active)
    (hready : s.relay.isReady server = true) :
    (priceContract server).Sat id (fun _ t => id ∉ t.relay.active ∧ 0 < t.relay.gasPrice)
      (fun _ t => id ∉ t.relay.active) (slowDown id) s := by
  have hpositive := hs.2.ready hready
  refine sat_bind.mpr (sat_get.mpr ?_)
  split
  · have hallows : (priceContract server).Allows id s
        (s.updated fun relay => { relay with delayed := id :: relay.delayed }) :=
      Reliance.allows_free hs rfl rfl ⟨hs.2.ready, fun _ => hpositive, hs.2.accepted⟩ trivial rfl
        fun _ _ hother => List.mem_cons_of_mem id hother
    refine sat_bind.mpr ⟨hallows, ?_⟩
    refine Sat.bind (P := fun _ t => id ∉ t.relay.active ∧ id ∈ t.relay.delayed) (Sat.ask
      (fun _ _ _ hleaves h => ⟨fun hid => h.1 (hleaves.1.mp hid), hleaves.2.2 h.2⟩)
      ⟨hidle, List.mem_cons_self⟩) hallows.inv fun _ t ht h => ?_
    have hheld := ht.2.delayed (List.ne_nil_of_mem h.2)
    exact ⟨Reliance.allows_free ht rfl rfl ⟨ht.2.ready, fun _ => hheld, ht.2.accepted⟩ trivial rfl
      fun _ hne hother => (List.mem_erase_of_ne hne).mpr hother, h.1, hheld⟩
  · exact ⟨hidle, hpositive⟩

theorem sat_createRelayTransaction {request : HttpEnvelopingRequest}
    (hs : (priceContract server).Inv s) (hidle : id ∉ s.relay.active) :
    (priceContract server).Sat id (fun _ t => id ∉ t.relay.active) (fun _ t => id ∉ t.relay.active)
      (createRelayTransaction server id request) s := by
  refine sat_bind.mpr (sat_get.mpr ?_)
  split
  · exact hidle
  next hready =>
    apply Sat.bind (sat_slowDown hs hidle (by simpa using hready)) hs
    intro _ t ht h
    have hvalidate : (priceContract server).Sat id
        (fun _ u => id ∉ u.relay.active ∧ 0 < request.relayRequest.relayData.gasPrice)
        (fun _ u => id ∉ u.relay.active) (validateInput request) t := by
      refine sat_bind.mpr (sat_get.mpr ?_)
      dsimp only
      split
      · exact h.1
      next hacceptable =>
        have hrequest := h.2.trans_le (not_lt.mp hacceptable)
        exact (sat_receive stable_idle h.1).mono ht (fun _ _ _ hidle => ⟨hidle, hrequest⟩)
          fun _ _ _ hidle => hidle
    apply Sat.bind hvalidate ht
    intro _ u hu h
    have hallows : (priceContract server).Allows id u
        (u.updated fun relay => { relay with accepted := relay.accepted ++ [request] }) := by
      refine Reliance.allows_free hu rfl rfl ⟨hu.2.ready, hu.2.delayed, fun it hit => ?_⟩ trivial rfl
        fun _ _ hother => hother
      rcases List.mem_append.mp hit with hold | hnew
      · exact hu.2.accepted it hold
      · exact List.mem_singleton.mp hnew ▸ h.2
    exact sat_bind.mpr ⟨hallows, priceContract_dependsOn.allows hallows.inv rfl, h.1⟩

theorem priceContract_keeps : Keeps (system server) (priceContract server) where
  start job id s hs hidle := by
    cases job with
    | init =>
        have hidle_of_eq : ∀ ⦃t u : TickState⦄, u.relay.pricing = t.relay.pricing →
            id ∉ t.relay.active → id ∉ u.relay.active :=
          fun t u hpart h hid => h (mem_active_of_pricing hpart.symm hid)
        exact Sat.of_spares priceContract_dependsOn (spares_init fun _ => rfl) hidle_of_eq stable_idle
          hs hidle
    | relayRequest request => exact sat_createRelayTransaction hs hidle
    | tick =>
        refine sat_intervalHandler hs hidle (fun t ht htidle => ⟨?_, htidle⟩)
          fun blockNumber t ht htidle _ => ?_
        · exact Reliance.allows_free ht rfl rfl ⟨fun h => ht.2.ready (Relay.isReady_of_reset h),
            ht.2.delayed, ht.2.accepted⟩ trivial rfl fun _ _ hother => hother
        refine sat_workerSemaphore (J := fun u => id ∈ u.relay.active) (K := Refreshed id) htidle
          (fun hfree => ⟨?_, List.mem_cons_self⟩) (fun u hu hid => prices_worker hu hid)
          (fun u hu h => ⟨?_, h.1⟩) (fun u hu hid => ⟨?_, hid⟩) (fun u hu hid => ?_)
          Reliance.stable_active stable_refreshed
        · exact Reliance.allows_acquired ht hfree ⟨ht.2.ready, ht.2.delayed, ht.2.accepted⟩ trivial
            fun _ hother => hother
        · exact Reliance.allows_held hu h.1 rfl rfl ⟨fun _ => h.2, fun _ => h.2, hu.2.accepted⟩
            trivial fun _ hother => hother
        · exact Reliance.allows_held hu hid rfl rfl ⟨hu.2.ready, hu.2.delayed, hu.2.accepted⟩
            trivial fun _ hother => hother
        · exact Reliance.allows_released hu hid ⟨hu.2.ready, hu.2.delayed, hu.2.accepted⟩ trivial
            fun _ hother => hother
  outside s event t hs hstep := by
    obtain ⟨calls, -, rfl⟩ := Option.map_eq_some_iff.mp hstep
    exact priceContract_dependsOn hs rfl

theorem kept_priced (txStore : TxStore) : Kept (priceContract server) (launched server txStore) := by
  refine kept_initial ⟨Or.inl ⟨rfl, rfl⟩, fun hready => ?_, fun hdelayed => absurd rfl hdelayed,
    fun request hrequest => ?_⟩ fun _ hid => by cases hid
  · cases (Relay.isReady_iff.mp hready).2
  · cases hrequest

/-- A finite amount is worth a finite amount of gas at a gas price. -/
theorem convertTokenToGas_finite {services : Services} {amount : BigNumberJs}
    {tokenContract : Address} {gasPrice : ℕ} {native : ℚ} (hprice : 0 < gasPrice)
    (hnative : tokenAmountInNative services amount tokenContract = .ok (.finite native)) :
    convertTokenToGas services amount tokenContract gasPrice =
      .ok (.finite (HalfUp.toPlaces BigNumberJs.decimalPlaces (native / gasPrice))) := by
  have hne : ((gasPrice : ℕ) : ℚ) ≠ 0 := by exact_mod_cast hprice.ne'
  rw [convertTokenToGas, hnative, ← BigNumberJs.dividedBy_finite native hne]
  rfl

/-- While a zero price is reported only to a server that is not ready and holds back no
request, a ready server has a gas price. The requests that it accepts have one too, and
their amounts are never divided by zero. -/
theorem ready_has_gasPrice {txStore : TxStore} {events : List TickEvent} {state : Ticking}
    (hrun : Runs.run (tickStep server) (launched server txStore) events = some state)
    (hprices : Runs.Along (tickStep server) (Permitted (ZeroPriceUnseen server))
      (launched server txStore) events) :
    (state.shared.relay.isReady server = true → 0 < state.shared.relay.gasPrice) ∧
      ∀ request ∈ state.shared.relay.accepted, 0 < request.relayRequest.relayData.gasPrice ∧
        ∀ services amount tokenContract native,
          tokenAmountInNative services amount tokenContract = .ok (.finite native) →
            convertTokenToGas services amount tokenContract
                request.relayRequest.relayData.gasPrice =
              .ok (.finite (HalfUp.toPlaces BigNumberJs.decimalPlaces
                (native / request.relayRequest.relayData.gasPrice))) := by
  obtain ⟨hkept, -⟩ := (kept_priced txStore).run priceContract_keeps hprices hrun
  refine ⟨hkept.inv.2.ready, fun request hrequest => ?_⟩
  have hpositive := hkept.inv.2.accepted request hrequest
  exact ⟨hpositive, fun services amount tokenContract native => convertTokenToGas_finite hpositive⟩

def requestPricedAt (gasPrice : ℕ) : HttpEnvelopingRequest where
  relayRequest := {
    request := { toAddress := sampleWorker, data := "0x", tokenContract := addressZero, tokenAmount := 1 }
    relayData := { gasPrice } }
  metadata := {
    relayHubAddress := addressZero, relayMaxNonce := .finite 5, signature := "0x01", isCustom := false }

/-- A request comes once the server is ready. -/
def readyThenRequest : List TickEvent :=
  readyRound ++ .start (.relayRequest (requestPricedAt 8)) :: resumed 1 1 (quietAnswers 10 (.ok 7))

theorem ready_has_gasPrice_readyThenRequest :
    (ticked readyThenRequest).shared.relay.isReady sampleServer = true ∧
      (ticked readyThenRequest).shared.relay.accepted.length = 1 ∧
      0 < (ticked readyThenRequest).shared.relay.gasPrice :=
  have hready : (ticked readyThenRequest).shared.relay.isReady sampleServer = true := by
    decide +kernel
  ⟨hready, by decide +kernel,
    (ready_has_gasPrice (@run_ticked readyThenRequest (by decide +kernel)) (by decide +kernel)).1
      hready⟩

/-- The node reports a zero price to a ready server, and a request of that price follows. -/
def zeroPriced : List TickEvent :=
  readyRound ++ .start .tick :: resumed 1 2 (quietAnswers 20 (.ok 0)) ++
    .start (.relayRequest (requestPricedAt 0)) :: resumed 2 1 (quietAnswers 20 (.ok 0))

theorem ready_without_gasPrice :
    Runs.run (tickStep sampleServer) (launched sampleServer .empty) zeroPriced =
        some (ticked zeroPriced) ∧
      (ticked zeroPriced).shared.relay.isReady sampleServer = true ∧
      (ticked zeroPriced).shared.relay.gasPrice = 0 ∧
      (ticked zeroPriced).shared.relay.accepted = [requestPricedAt 0] ∧
      ∀ services, convertTokenToGas services (.finite 1) addressZero 0 = .ok (.infinite false) :=
  ⟨run_ticked (by decide +kernel), by decide +kernel, by decide +kernel, rfl, fun _ => rfl⟩

end RifRelayServer.Ticks
