import Mathlib.Order.Basic
import Mathlib.Tactic.Basic

/-!
# Runs of a partial step function

A run is a list of events, each enabled where it comes. A condition on the
steps can be asked along a run; an invariant may rely on it.
-/

namespace Runs

variable {σ ε : Type*}

def run (step : σ → ε → Option σ) (s : σ) : List ε → Option σ
  | [] => some s
  | event :: events => (step s event).bind fun s' => run step s' events

def Along (step : σ → ε → Option σ) (allowed : σ → ε → Prop) (s : σ) : List ε → Prop
  | [] => True
  | event :: events =>
      allowed s event ∧ ∀ s', step s event = some s' → Along step allowed s' events

variable {step : σ → ε → Option σ} {allowed : σ → ε → Prop}

@[simp] theorem run_nil (s : σ) : run step s [] = some s := rfl

theorem run_cons_eq_some_iff {s t : σ} {event : ε} {events : List ε} :
    run step s (event :: events) = some t ↔
      ∃ s', step s event = some s' ∧ run step s' events = some t :=
  Option.bind_eq_some_iff

theorem run_of_total {f : σ → ε → σ} (h : ∀ s event, step s event = some (f s event)) (s : σ)
    (events : List ε) : run step s events = some (events.foldl f s) := by
  induction events generalizing s with
  | nil => rfl
  | cons event events ih => exact run_cons_eq_some_iff.mpr ⟨_, h s event, ih _⟩

theorem along_trivial (s : σ) (events : List ε) : Along step (fun _ _ => True) s events := by
  induction events generalizing s with
  | nil => trivial
  | cons event events ih => exact ⟨trivial, fun s' _ => ih s'⟩

theorem along_of_forall {s : σ} {events : List ε} (h : ∀ event ∈ events, ∀ s, allowed s event) :
    Along step allowed s events := by
  induction events generalizing s with
  | nil => trivial
  | cons event events ih =>
      exact ⟨h event List.mem_cons_self s,
        fun s' _ => ih fun e he => h e (List.mem_cons_of_mem _ he)⟩

theorem Along.and {allowed' : σ → ε → Prop} {s : σ} {events : List ε}
    (h : Along step allowed s events) (h' : Along step allowed' s events) :
    Along step (fun s event => allowed s event ∧ allowed' s event) s events := by
  induction events generalizing s with
  | nil => trivial
  | cons event events ih =>
      exact ⟨⟨h.1, h'.1⟩, fun s' hstep => ih (h.2 s' hstep) (h'.2 s' hstep)⟩

instance decidableAlong [∀ s event, Decidable (allowed s event)] (s : σ) (events : List ε) :
    Decidable (Along step allowed s events) :=
  match events with
  | [] => isTrue trivial
  | event :: events =>
      match hstep : step s event with
      | none => decidable_of_iff (allowed s event) (by simp [Along, hstep])
      | some s' =>
          have := decidableAlong s' events
          decidable_of_iff (allowed s event ∧ Along step allowed s' events) (by simp [Along, hstep])

/-- What every allowed step keeps holds at the end of every allowed run. -/
theorem invariant_of_along {I : σ → Prop}
    (hstep : ∀ s event s', I s → allowed s event → step s event = some s' → I s')
    {s t : σ} {events : List ε} (hs : I s) (hallowed : Along step allowed s events)
    (hrun : run step s events = some t) : I t := by
  induction events generalizing s with
  | nil => exact Option.some.inj hrun ▸ hs
  | cons event events ih =>
      obtain ⟨s', hs', hrest⟩ := run_cons_eq_some_iff.mp hrun
      exact ih (hstep s event s' hs hallowed.1 hs') (hallowed.2 s' hs') hrest

theorem invariant_of_run {I : σ → Prop}
    (hstep : ∀ s event s', I s → step s event = some s' → I s') {s t : σ} {events : List ε}
    (hs : I s) (hrun : run step s events = some t) : I t :=
  invariant_of_along (fun s event s' h _ => hstep s event s' h) hs (along_trivial s events) hrun

/-- Where `allowed` is what it takes to keep `P`, it holds along a run exactly when `P` holds
in every state that is reached. -/
theorem along_iff_reached {I P : σ → Prop} (htotal : ∀ s event, ∃ s', step s event = some s')
    (hP : ∀ s, I s → P s)
    (hkeeps : ∀ s event s', I s → allowed s event → step s event = some s' → I s')
    (honly : ∀ s event s', I s → step s event = some s' → P s' → allowed s event) {s : σ}
    (hs : I s) (events : List ε) :
    Along step allowed s events ↔ ∀ n t, run step s (events.take n) = some t → P t := by
  induction events generalizing s with
  | nil =>
      refine ⟨fun _ n t hrun => ?_, fun _ => trivial⟩
      rw [List.take_nil] at hrun
      exact Option.some.inj hrun ▸ hP s hs
  | cons event events ih =>
      constructor
      · rintro ⟨hallowed, hrest⟩ n t hrun
        cases n with
        | zero => exact Option.some.inj hrun ▸ hP s hs
        | succ n =>
            rw [List.take_succ_cons] at hrun
            obtain ⟨s', hs', hrun⟩ := run_cons_eq_some_iff.mp hrun
            exact (ih (hkeeps s event s' hs hallowed hs')).mp (hrest s' hs') n t hrun
      · intro hreached
        obtain ⟨s', hs'⟩ := htotal s event
        have hallowed : allowed s event := honly s event s' hs hs'
          (hreached 1 s' (run_cons_eq_some_iff.mpr ⟨s', hs', rfl⟩))
        refine ⟨hallowed, fun t ht => ?_⟩
        obtain rfl := Option.some.inj (hs'.symm.trans ht)
        refine (ih (hkeeps s event s' hs hallowed hs')).mpr fun n t hrun => hreached (n + 1) t ?_
        exact run_cons_eq_some_iff.mpr ⟨s', hs', hrun⟩

theorem le_of_run {β : Type*} [Preorder β] {measure : σ → β}
    (hstep : ∀ s event s', step s event = some s' → measure s ≤ measure s') {s t : σ}
    {events : List ε} (hrun : run step s events = some t) : measure s ≤ measure t :=
  invariant_of_run (I := fun u => measure s ≤ measure u)
    (fun u event u' h hu => h.trans (hstep u event u' hu)) le_rfl hrun

section Notes

variable {ν : Type*} {note : σ → ν → ε → ν}

/-- A step at which a note is taken too. -/
def noted (step : σ → ε → Option σ) (note : σ → ν → ε → ν) (s : σ × ν) (event : ε) :
    Option (σ × ν) :=
  (step s.1 event).map fun s' => (s', note s.1 s.2 event)

theorem noted_eq_some_iff {s t : σ × ν} {event : ε} :
    noted step note s event = some t ↔
      step s.1 event = some t.1 ∧ t.2 = note s.1 s.2 event := by
  rw [noted, Option.map_eq_some_iff]
  constructor
  · rintro ⟨s', hstep, rfl⟩
    exact ⟨hstep, rfl⟩
  · rintro ⟨hstep, hnote⟩
    exact ⟨t.1, hstep, Prod.ext rfl hnote.symm⟩

theorem Along.noted {s : σ} {n : ν} {events : List ε} (h : Along step allowed s events) :
    Along (noted step note) (fun s event => allowed s.1 event) (s, n) events := by
  induction events generalizing s n with
  | nil => trivial
  | cons event events ih =>
      exact ⟨h.1, fun s' hs' => ih (h.2 s'.1 (noted_eq_some_iff.mp hs').1)⟩

end Notes

end Runs
