import Mathlib.Data.List.Forall2
import Mathlib.Tactic.Common

/-!
# Hexadecimal digits and their spelling

Lower-case hexadecimal digit strings and their value, and the relation between
two texts that differ only in the letter case of hexadecimal digits. Texts of
one letter case are told from mixed ones digit by digit.
-/

namespace Hexadecimal

def digitValue (c : Char) : Option ℕ :=
  if '0' ≤ c ∧ c ≤ '9' then some (c.toNat - '0'.toNat)
  else if 'a' ≤ c ∧ c ≤ 'f' then some (c.toNat - 'a'.toNat + 10)
  else none

def readFrom (acc : ℕ) : List Char → Option ℕ
  | [] => some acc
  | c :: cs => (digitValue c).bind fun d => readFrom (16 * acc + d) cs

def value (cs : List Char) : Option ℕ := readFrom 0 cs

def isLowerDigit (c : Char) : Bool := ('0' ≤ c && c ≤ '9') || ('a' ≤ c && c ≤ 'f')

def isUpperDigit (c : Char) : Bool := ('0' ≤ c && c ≤ '9') || ('A' ≤ c && c ≤ 'F')

def isLetter (c : Char) : Bool := c.toLower ∈ ['a', 'b', 'c', 'd', 'e', 'f']

def SameDigit (c d : Char) : Prop := c = d ∨ isLetter c ∧ isLetter d ∧ c.toLower = d.toLower

/-- Texts that are equal but for the letter case of hexadecimal digits. -/
def SameDigits (s t : List Char) : Prop := List.Forall₂ SameDigit s t

instance (c d : Char) : Decidable (SameDigit c d) :=
  inferInstanceAs (Decidable (_ ∨ _ ∧ _ ∧ _))

instance (s t : List Char) : Decidable (SameDigits s t) :=
  inferInstanceAs (Decidable (List.Forall₂ SameDigit s t))

theorem SameDigit.symm {c d : Char} (h : SameDigit c d) : SameDigit d c := by
  rcases h with rfl | ⟨hc, hd, heq⟩
  · exact Or.inl rfl
  · exact Or.inr ⟨hd, hc, heq.symm⟩

theorem SameDigits.symm {s t : List Char} (h : SameDigits s t) : SameDigits t s :=
  List.Forall₂.flip (h.imp fun _ _ hcd => hcd.symm)

theorem SameDigits.drop {s t : List Char} (h : SameDigits s t) (n : ℕ) :
    SameDigits (s.drop n) (t.drop n) :=
  List.forall₂_drop n h

theorem le_of_readFrom {acc n : ℕ} {cs : List Char} (h : readFrom acc cs = some n) : acc ≤ n := by
  induction cs generalizing acc with
  | nil => exact Nat.le_of_eq (Option.some.inj h)
  | cons c cs ih =>
      obtain ⟨d, -, hd⟩ := Option.bind_eq_some_iff.mp h
      have hle := ih hd
      omega

theorem digitValue_isSome (c : Char) : (digitValue c).isSome = isLowerDigit c := by
  unfold digitValue isLowerDigit
  split_ifs with h₁ h₂ <;> simp_all

theorem readFrom_isSome (acc : ℕ) (cs : List Char) :
    (readFrom acc cs).isSome = cs.all isLowerDigit := by
  induction cs generalizing acc with
  | nil => rfl
  | cons c cs ih =>
      rw [readFrom, List.all_cons, ← digitValue_isSome]
      cases digitValue c with
      | none => rfl
      | some d => simpa using ih (16 * acc + d)

theorem isUpperDigit_ascii : ∀ n < 128,
    isUpperDigit (Char.ofNat n) =
      (decide ((Char.ofNat n).toUpper = Char.ofNat n) && isLowerDigit (Char.ofNat n).toLower) := by
  decide

theorem isUpperDigit_iff (c : Char) :
    isUpperDigit c = true ↔ c.toUpper = c ∧ isLowerDigit c.toLower = true := by
  by_cases hc : c.toNat < 128
  · have h := isUpperDigit_ascii c.toNat hc
    rw [Char.ofNat_toNat] at h
    simp [h]
  · have hbeyond : ∀ d : Char, d.toNat < 128 → ¬ c ≤ d := fun d hd hle =>
      hc (Nat.lt_of_le_of_lt (show c.toNat ≤ d.toNat from hle) hd)
    have hlower : c.toLower = c := dif_neg fun h => hbeyond 'Z' (by decide) h.2
    simp [isUpperDigit, isLowerDigit, hlower, hbeyond '9' (by decide), hbeyond 'F' (by decide),
      hbeyond 'f' (by decide)]

theorem toNat_of_digitValue {c : Char} {d : ℕ} (h : digitValue c = some d) :
    (d < 10 ∧ c.toNat = '0'.toNat + d) ∨ (10 ≤ d ∧ d < 16 ∧ c.toNat + 10 = 'a'.toNat + d) := by
  have hnine : '9'.toNat = '0'.toNat + 9 := rfl
  have hf : 'f'.toNat = 'a'.toNat + 5 := rfl
  unfold digitValue at h
  split at h
  next hrange =>
    have hge : '0'.toNat ≤ c.toNat := hrange.1
    have hle : c.toNat ≤ '9'.toNat := hrange.2
    have hsub : c.toNat - '0'.toNat = d := Option.some.inj h
    omega
  next =>
    split at h
    next hrange =>
      have hge : 'a'.toNat ≤ c.toNat := hrange.1
      have hle : c.toNat ≤ 'f'.toNat := hrange.2
      have hsub : c.toNat - 'a'.toNat + 10 = d := Option.some.inj h
      omega
    next => cases h

theorem digitValue_lt {c : Char} {d : ℕ} (h : digitValue c = some d) : d < 16 := by
  rcases toNat_of_digitValue h with ⟨hd, -⟩ | ⟨-, hd, -⟩
  · omega
  · exact hd

/-- A digit is told by its value. -/
theorem eq_of_digitValue {c c' : Char} {d : ℕ} (h : digitValue c = some d)
    (h' : digitValue c' = some d) : c = c' := by
  apply Char.toNat_inj.mp
  rcases toNat_of_digitValue h with hc | hc <;>
    rcases toNat_of_digitValue h' with hc' | hc' <;>
      omega

theorem digitValue_eq_zero {c : Char} (h : digitValue c = some 0) : c = '0' :=
  eq_of_digitValue h rfl

theorem eq_zero_of_value_eq_zero {cs : List Char} (h : value cs = some 0) :
    ∀ c ∈ cs, c = '0' := by
  unfold value at h
  induction cs with
  | nil => simp
  | cons c cs ih =>
      obtain ⟨d, hc, hd⟩ := Option.bind_eq_some_iff.mp h
      have hzero : d = 0 := by
        have hle := le_of_readFrom hd
        omega
      subst hzero
      rintro a (_ | ⟨_, ha⟩)
      · exact digitValue_eq_zero hc
      · exact ih (by simpa using hd) a ha

theorem digitValue_toLower {c : Char} {d : ℕ} (h : digitValue c = some d) : c.toLower = c := by
  have hupper : ¬ (c.val ≥ 'A'.val ∧ c.val ≤ 'Z'.val) := by
    rintro ⟨hlow, hhigh⟩
    unfold digitValue at h
    split at h
    next hrange => exact absurd (show 'A'.val ≤ '9'.val from UInt32.le_trans hlow hrange.2) (by decide)
    next =>
      split at h
      next hrange => exact absurd (show 'a'.val ≤ 'Z'.val from UInt32.le_trans hrange.1 hhigh) (by decide)
      next => cases h
  exact dif_neg hupper

theorem toLower_of_isLowerDigit {c : Char} (h : isLowerDigit c = true) : c.toLower = c := by
  rw [← digitValue_isSome] at h
  obtain ⟨d, hd⟩ := Option.isSome_iff_exists.mp h
  exact digitValue_toLower hd

theorem map_toLower_of_readFrom {acc n : ℕ} {cs : List Char} (h : readFrom acc cs = some n) :
    cs.map Char.toLower = cs := by
  induction cs generalizing acc with
  | nil => rfl
  | cons c cs ih =>
      obtain ⟨d, hc, hd⟩ := Option.bind_eq_some_iff.mp h
      rw [List.map_cons, digitValue_toLower hc, ih hd]

theorem SameDigits.map_toLower {s t : List Char} (h : SameDigits s t) :
    s.map Char.toLower = t.map Char.toLower := by
  induction h with
  | nil => rfl
  | cons hcd _ ih =>
      rcases hcd with rfl | ⟨-, -, heq⟩
      · rw [List.map_cons, List.map_cons, ih]
      · rw [List.map_cons, List.map_cons, ih, heq]

theorem SameDigits.eq_of_zeroes {s t : List Char} (h : SameDigits s t)
    (hs : ∀ c ∈ s, c.toLower = '0') : s = t := by
  induction h with
  | nil => rfl
  | @cons c d s t hcd _ ih =>
      have hzero : c.toLower = '0' := hs c List.mem_cons_self
      have heq : c = d := by
        rcases hcd with heq | ⟨hletter, -, -⟩
        · exact heq
        · simp [isLetter, hzero] at hletter
      rw [heq, ih fun a ha => hs a (List.mem_cons_of_mem c ha)]

end Hexadecimal
