import RifRelayServer.Lib.Runs
import Mathlib

/-!
# Events of a run and runs that match

An event occurs at an index of a run, in the state reached before it. What holds at the
end of a run and not at its start became true at some event. What the events of a run
spend they have found or been given. A system matches another one when each step of that
is a run of its own.
-/

namespace Runs

variable {σ ε τ η : Type*} {step : σ → ε → Option σ} {step' : τ → η → Option τ}

theorem run_append_eq_some_iff {s t : σ} {earlier later : List ε} :
    run step s (earlier ++ later) = some t ↔
      ∃ u, run step s earlier = some u ∧ run step u later = some t := by
  induction earlier generalizing s with
  | nil => simp
  | cons event earlier ih =>
      rw [List.cons_append, run_cons_eq_some_iff]
      constructor
      · rintro ⟨s', hstep, hrest⟩
        obtain ⟨u, hu, hlater⟩ := ih.mp hrest
        exact ⟨u, run_cons_eq_some_iff.mpr ⟨s', hstep, hu⟩, hlater⟩
      · rintro ⟨u, hu, hlater⟩
        obtain ⟨s', hstep, hrest⟩ := run_cons_eq_some_iff.mp hu
        exact ⟨s', hstep, ih.mpr ⟨u, hrest, hlater⟩⟩

/-- The event at an index, and the state it comes in. -/
structure Occurs (step : σ → ε → Option σ) (s : σ) (events : List ε) (n : ℕ) (u : σ)
    (event : ε) : Prop where
  reached : run step s (events.take n) = some u
  event_eq : events[n]? = some event

/-- What a step can make true only at certain events has become true at one of them. -/
theorem occurs_of_run {Q : σ → Prop} {G : σ → ε → Prop} {s t : σ} {events : List ε}
    (hgate : ∀ n u event u', Occurs step s events n u event → step u event = some u' → Q u' →
      Q u ∨ G u event)
    (hs : ¬ Q s) {m : ℕ} (hrun : run step s (events.take m) = some t) (ht : Q t) :
    ∃ n < m, ∃ u event, Occurs step s events n u event ∧ G u event := by
  induction m generalizing t with
  | zero =>
      rw [List.take_zero] at hrun
      exact absurd (Option.some.inj hrun ▸ ht) hs
  | succ m ih =>
      rw [List.take_add_one, run_append_eq_some_iff] at hrun
      obtain ⟨u, hu, hlast⟩ := hrun
      have hearlier : Q u → ∃ n < m + 1, ∃ u event, Occurs step s events n u event ∧ G u event := by
        intro hQ
        obtain ⟨n, hn, hoccurs⟩ := ih hu hQ
        exact ⟨n, Nat.lt_succ_of_lt hn, hoccurs⟩
      cases hevent : events[m]? with
      | none =>
          rw [hevent] at hlast
          exact hearlier (Option.some.inj hlast ▸ ht)
      | some event =>
          rw [hevent] at hlast
          obtain ⟨u', hstep, hend⟩ := run_cons_eq_some_iff.mp hlast
          obtain rfl := Option.some.inj hend
          rcases hgate m u event u' ⟨hu, hevent⟩ hstep ht with hQ | hG
          · exact hearlier hQ
          · exact ⟨m, Nat.lt_succ_self m, u, event, ⟨hu, hevent⟩, hG⟩

/-- Where each event spends no more than the potential falls by and is given, a run spends no
more than it has at the start and is given. -/
theorem spent_le_of_run {potential : σ → ℕ} {spent given : ε → ℕ}
    (hstep : ∀ s event s', step s event = some s' →
      spent event + potential s' ≤ potential s + given event) {s t : σ} {events : List ε}
    (hrun : run step s events = some t) :
    (events.map spent).sum + potential t ≤ potential s + (events.map given).sum := by
  induction events generalizing s with
  | nil =>
      obtain rfl := Option.some.inj hrun
      simp
  | cons event events ih =>
      obtain ⟨s', hs', hrest⟩ := run_cons_eq_some_iff.mp hrun
      have hfirst := hstep s event s' hs'
      have hlater := ih hrest
      simp only [List.map_cons, List.sum_cons]
      omega

/-- A system that matches each step of another one matches its runs. -/
theorem run_matched (abstract : σ → τ)
    (hstep : ∀ s event s', step s event = some s' →
      ∃ events', run step' (abstract s) events' = some (abstract s')) {s t : σ} {events : List ε}
    (hrun : run step s events = some t) :
    ∃ events', run step' (abstract s) events' = some (abstract t) := by
  induction events generalizing s with
  | nil => exact ⟨[], congrArg _ (congrArg _ (Option.some.inj hrun))⟩
  | cons event events ih =>
      obtain ⟨s', hs', hrest⟩ := run_cons_eq_some_iff.mp hrun
      obtain ⟨first, hfirst⟩ := hstep s event s' hs'
      obtain ⟨later, hlater⟩ := ih hrest
      exact ⟨first ++ later, run_append_eq_some_iff.mpr ⟨_, hfirst, hlater⟩⟩

end Runs
