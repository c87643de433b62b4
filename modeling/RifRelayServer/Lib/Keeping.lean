import Mathlib

/-!
# Invariants of stateful programs that can fail

A program keeps an invariant when it does so whether it returns or throws. Such
programs can be run one after another, whatever becomes of each.
-/

namespace Keeping

open Std.Do

set_option mvcgen.warning false

variable {ε σ α : Type}

abbrev Keeps (I : σ → Prop) (program : EStateM ε σ α) : Prop :=
  ⦃fun s => ⌜I s⌝⦄ program ⦃post⟨fun _ s => ⌜I s⌝, fun _ s => ⌜I s⌝⟩⦄

def final (program : EStateM ε σ α) (s : σ) : σ :=
  match program s with
  | .ok _ s' => s'
  | .error _ s' => s'

def returns (program : EStateM ε σ α) (s : σ) : Bool :=
  match program s with
  | .ok _ _ => true
  | .error _ _ => false

section Ends

variable {P Q E : σ → Prop} {program : EStateM ε σ α} {s : σ}
  (h : ⦃fun s => ⌜P s⌝⦄ program ⦃post⟨fun _ s => ⌜Q s⌝, fun _ s => ⌜E s⌝⟩⦄) (hs : P s)

include h hs

theorem final_of_returns (hreturns : returns program s = true) : Q (final program s) := by
  have hpost := h s hs
  simp only [wp, PredTrans.apply, EStateM.run] at hpost
  unfold returns at hreturns
  unfold Keeping.final
  cases hrun : program s with
  | ok a s' => simpa [hrun] using hpost
  | error e s' => simp [hrun] at hreturns

theorem final_of_throws (hreturns : returns program s = false) : E (final program s) := by
  have hpost := h s hs
  simp only [wp, PredTrans.apply, EStateM.run] at hpost
  unfold returns at hreturns
  unfold Keeping.final
  cases hrun : program s with
  | ok a s' => simp [hrun] at hreturns
  | error e s' => simpa [hrun] using hpost

end Ends

theorem final_post {P Q : σ → Prop} {program : EStateM ε σ α}
    (h : ⦃fun s => ⌜P s⌝⦄ program ⦃post⟨fun _ s => ⌜Q s⌝, fun _ s => ⌜Q s⌝⟩⦄) {s : σ}
    (hs : P s) : Q (final program s) := by
  cases hreturns : returns program s with
  | true => exact final_of_returns h hs hreturns
  | false => exact final_of_throws h hs hreturns

theorem Keeps.final {I : σ → Prop} {program : EStateM ε σ α} (h : Keeps I program) {s : σ}
    (hs : I s) : I (final program s) :=
  final_post h hs

section Bind

variable {β : Type} {program : EStateM ε σ α} {next : α → EStateM ε σ β} {s s' : σ}

theorem bind_of_ok {a : α} (h : program s = .ok a s') : (program >>= next) s = next a s' := by
  simp only [bind, EStateM.bind, h]

theorem bind_of_error {e : ε} (h : program s = .error e s') :
    (program >>= next) s = .error e s' := by
  simp only [bind, EStateM.bind, h]

theorem exists_of_bind_eq_ok {b : β} (h : (program >>= next) s = .ok b s') :
    ∃ a t, program s = .ok a t ∧ next a t = .ok b s' := by
  cases hrun : program s with
  | ok a t => exact ⟨a, t, rfl, (bind_of_ok hrun).symm.trans h⟩
  | error e t => cases (bind_of_error hrun).symm.trans h

theorem final_bind_of_ok {a : α} (h : program s = .ok a s') :
    final (program >>= next) s = final (next a) s' := by
  rw [final, bind_of_ok h, final]

theorem final_bind_of_throws (h : returns program s = false) :
    final (program >>= next) s = final program s := by
  unfold returns at h
  cases hrun : program s with
  | ok a s' => simp [hrun] at h
  | error e s' => rw [final, bind_of_error hrun, final, hrun]

theorem exists_ok_of_returns (h : returns program s = true) : ∃ a s', program s = .ok a s' := by
  unfold returns at h
  cases hrun : program s with
  | ok a s' => exact ⟨a, s', rfl⟩
  | error e s' => simp [hrun] at h

theorem final_bind_pure (program : EStateM ε σ α) (f : α → β) (s : σ) :
    final (program >>= fun a => pure (f a)) s = final program s := by
  simp only [final, bind, EStateM.bind]
  cases program s <;> rfl

theorem returns_of_error {e : ε} (h : program s = .error e s') : returns program s = false := by
  rw [returns, h]

end Bind

def ignore (program : EStateM ε σ α) : EStateM ε σ Unit := do
  let _ ← program
  return

theorem Keeps.ignore {I : σ → Prop} {program : EStateM ε σ α} (h : Keeps I program) :
    Keeps I (ignore program) := by
  mvcgen [Keeping.ignore, h]

theorem final_ignore (program : EStateM ε σ α) (s : σ) :
    Keeping.final (Keeping.ignore program) s = Keeping.final program s := by
  simp only [Keeping.final, Keeping.ignore, bind, EStateM.bind]
  cases program s <;> rfl

def focus {τ : Type} (part : σ → τ) (update : τ → σ → σ) (program : EStateM ε τ α) :
    EStateM ε σ α := fun s =>
  match program (part s) with
  | .ok a t => .ok a (update t s)
  | .error e t => .error e (update t s)

/-- What no update of the part touches is kept. -/
theorem keeps_focus {τ : Type} {I : σ → Prop} {part : σ → τ} {update : τ → σ → σ}
    (h : ∀ s t, I s → I (update t s)) (program : EStateM ε τ α) :
    Keeps I (focus part update program) := by
  intro s hs
  simp only [wp, PredTrans.apply, EStateM.run, focus]
  cases program (part s) with
  | ok a t => exact h s t hs
  | error e t => exact h s t hs

theorem post_of_ok {P : σ → Prop} {Q : α → σ → Prop} {E : ε → σ → Prop}
    {program : EStateM ε σ α}
    (h : ⦃fun s => ⌜P s⌝⦄ program ⦃post⟨fun a s => ⌜Q a s⌝, fun e s => ⌜E e s⌝⟩⦄) {s s' : σ}
    {a : α} (hs : P s) (hrun : program s = .ok a s') : Q a s' := by
  have hpost := h s hs
  simp only [wp, PredTrans.apply, EStateM.run, hrun] at hpost
  exact hpost

theorem final_of_error {P : σ → Prop} {Q : α → σ → Prop} {E : ε → σ → Prop}
    {program : EStateM ε σ α}
    (h : ⦃fun s => ⌜P s⌝⦄ program ⦃post⟨fun a s => ⌜Q a s⌝, fun e s => ⌜E e s⌝⟩⦄) {s s' : σ}
    {e : ε} (hs : P s) (hrun : program s = .error e s') : E e (final program s) := by
  have hpost := h s hs
  simp only [wp, PredTrans.apply, EStateM.run, hrun] at hpost
  rw [final, hrun]
  exact hpost

/-- A program whose failures are excluded returns. -/
theorem ok_of_not_error {P : σ → Prop} {Q : α → σ → Prop} {E : ε → σ → Prop}
    {program : EStateM ε σ α}
    (h : ⦃fun s => ⌜P s⌝⦄ program ⦃post⟨fun a s => ⌜Q a s⌝, fun e s => ⌜E e s⌝⟩⦄) {s : σ}
    (hs : P s) (hnot : ∀ e s', ¬ E e s') : ∃ a s', program s = .ok a s' := by
  have hpost := h s hs
  simp only [wp, PredTrans.apply, EStateM.run] at hpost
  cases hrun : program s with
  | ok a s' => exact ⟨a, s', rfl⟩
  | error e s' =>
      rw [hrun] at hpost
      exact absurd hpost (hnot e s')

/-- To prove a triple, fix the state it starts in. -/
theorem triple_of_state {P : σ → Prop} {program : EStateM ε σ α}
    {Q : PostCond α (.except ε (.arg σ .pure))}
    (h : ∀ s, P s → ⦃fun t => ⌜t = s⌝⦄ program ⦃Q⦄) : ⦃fun s => ⌜P s⌝⦄ program ⦃Q⦄ :=
  fun s hs => h s hs s rfl

def finalAll (programs : List (EStateM ε σ α)) (s : σ) : σ :=
  programs.foldl (fun s program => final program s) s

@[simp] theorem finalAll_nil (s : σ) : finalAll ([] : List (EStateM ε σ α)) s = s := rfl

@[simp] theorem finalAll_cons (program : EStateM ε σ α) (programs : List (EStateM ε σ α))
    (s : σ) : finalAll (program :: programs) s = finalAll programs (final program s) := rfl

theorem keeps_finalAll {I : σ → Prop} {programs : List (EStateM ε σ α)}
    (h : ∀ program ∈ programs, Keeps I program) {s : σ} (hs : I s) : I (finalAll programs s) := by
  induction programs generalizing s with
  | nil => exact hs
  | cons program programs ih =>
      rw [finalAll_cons]
      exact ih (fun p hp => h p (List.mem_cons_of_mem _ hp))
        ((h program List.mem_cons_self).final hs)

end Keeping
