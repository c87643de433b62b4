import RifRelayServer.Lib.Hexadecimal
import Mathlib.Data.Nat.Digits.Defs

/-!
# Calldata as bytes

Calldata is a selector of four bytes and arguments of 32 bytes each, written as hexadecimal
digits of either letter case. Numbers are big-endian, so that bytes added behind a number
scale it up unless they and the number are zero.
-/

namespace Abi

/-- The bytes that digits spell, two digits a byte. -/
def bytesOf : List Char → Option (List ℕ)
  | [] => some []
  | [_] => none
  | c :: d :: cs => do
      let high ← Hexadecimal.digitValue c.toLower
      let low ← Hexadecimal.digitValue d.toLower
      let bytes ← bytesOf cs
      return (16 * high + low) :: bytes

def bytesOfText (data : String) : Option (List ℕ) :=
  if data.toList.take 2 = ['0', 'x'] then bytesOf (data.toList.drop 2) else none

def uint (bytes : List ℕ) : ℕ := Nat.ofDigits 256 bytes.reverse

def selector (bytes : List ℕ) : List ℕ := bytes.take 4

/-- Where an argument starts. -/
def wordStart (i : ℕ) : ℕ := 4 + 32 * i

def word (i : ℕ) (bytes : List ℕ) : ℕ := uint ((bytes.drop (wordStart i)).take 32)

@[simp] theorem uint_nil : uint [] = 0 := rfl

theorem uint_append (bytes more : List ℕ) :
    uint (bytes ++ more) = uint bytes * 256 ^ more.length + uint more := by
  rw [uint, List.reverse_append, Nat.ofDigits_append, List.length_reverse, uint, uint]
  ring

theorem uint_cons (b : ℕ) (bytes : List ℕ) :
    uint (b :: bytes) = b * 256 ^ bytes.length + uint bytes := by
  have h := uint_append [b] bytes
  simpa [uint] using h

theorem uint_eq_zero_iff (bytes : List ℕ) : uint bytes = 0 ↔ ∀ b ∈ bytes, b = 0 := by
  constructor
  · intro h b hb
    exact Nat.digits_zero_of_eq_zero (by norm_num) h b (List.mem_reverse.mpr hb)
  · intro h
    induction bytes with
    | nil => rfl
    | cons b bytes ih =>
        rw [uint_cons, h b List.mem_cons_self, ih fun a ha => h a (List.mem_cons_of_mem b ha)]
        omega

/-- Bytes behind a number leave it as it is only when everything is zero. -/
theorem uint_append_eq_iff (bytes more : List ℕ) :
    uint (bytes ++ more) = uint bytes ↔ more = [] ∨ ∀ b ∈ bytes ++ more, b = 0 := by
  constructor
  · intro h
    by_cases hmore : more = []
    · exact Or.inl hmore
    · right
      apply (uint_eq_zero_iff _).mp
      rw [h]
      have hscale : 256 ^ 1 ≤ 256 ^ more.length :=
        Nat.pow_le_pow_right (by norm_num) (List.length_pos_iff.mpr hmore)
      have hle : uint bytes * 256 ^ 1 ≤ uint bytes * 256 ^ more.length :=
        Nat.mul_le_mul_left _ hscale
      rw [uint_append] at h
      omega
  · rintro (rfl | hzero)
    · rw [List.append_nil]
    · have hbytes : uint bytes = 0 :=
        (uint_eq_zero_iff bytes).mpr fun b hb => hzero b (List.mem_append_left more hb)
      rw [hbytes]
      exact (uint_eq_zero_iff _).mpr hzero

theorem bytesOf_cons_cons_eq_some {c d : Char} {cs : List Char} {bytes : List ℕ}
    (h : bytesOf (c :: d :: cs) = some bytes) :
    ∃ high low rest, Hexadecimal.digitValue c.toLower = some high ∧
      Hexadecimal.digitValue d.toLower = some low ∧ bytesOf cs = some rest ∧
      bytes = (16 * high + low) :: rest := by
  obtain ⟨high, hhigh, h⟩ := Option.bind_eq_some_iff.mp h
  obtain ⟨low, hlow, h⟩ := Option.bind_eq_some_iff.mp h
  obtain ⟨rest, hrest, h⟩ := Option.bind_eq_some_iff.mp h
  exact ⟨high, low, rest, hhigh, hlow, hrest, (Option.some.inj h).symm⟩

theorem bytesOf_drop {cs : List Char} {bytes : List ℕ} (h : bytesOf cs = some bytes) (n : ℕ) :
    bytesOf (cs.drop (2 * n)) = some (bytes.drop n) := by
  induction n generalizing cs bytes with
  | zero => simpa using h
  | succ n ih =>
      match cs, h with
      | [], h =>
          obtain rfl := Option.some.inj h
          simp [bytesOf]
      | c :: d :: cs, h =>
          obtain ⟨high, low, rest, -, -, hrest, rfl⟩ := bytesOf_cons_cons_eq_some h
          exact ih hrest

theorem bytesOf_take {cs : List Char} {bytes : List ℕ} (h : bytesOf cs = some bytes) (n : ℕ) :
    bytesOf (cs.take (2 * n)) = some (bytes.take n) := by
  induction n generalizing cs bytes with
  | zero => simp [bytesOf]
  | succ n ih =>
      match cs, h with
      | [], h =>
          obtain rfl := Option.some.inj h
          simp [bytesOf]
      | c :: d :: cs, h =>
          obtain ⟨high, low, rest, hhigh, hlow, hrest, rfl⟩ := bytesOf_cons_cons_eq_some h
          have htake : (c :: d :: cs).take (2 * (n + 1)) = c :: d :: cs.take (2 * n) := rfl
          rw [htake, bytesOf, hhigh, hlow, ih hrest]
          rfl

theorem eq_nil_of_bytesOf {cs : List Char} (h : bytesOf cs = some []) : cs = [] := by
  match cs, h with
  | [], _ => rfl
  | c :: d :: cs, h =>
      obtain ⟨high, low, rest, -, -, -, hcons⟩ := bytesOf_cons_cons_eq_some h
      cases hcons

theorem bytesOf_eq_some_cons {cs : List Char} {b : ℕ} {bytes : List ℕ}
    (h : bytesOf cs = some (b :: bytes)) :
    ∃ c d rest high low, Hexadecimal.digitValue c.toLower = some high ∧
      Hexadecimal.digitValue d.toLower = some low ∧ bytesOf rest = some bytes ∧
      cs = c :: d :: rest ∧ b = 16 * high + low := by
  match cs, h with
  | [], h => cases h
  | c :: d :: cs, h =>
      obtain ⟨high, low, rest, hhigh, hlow, hrest, hcons⟩ := bytesOf_cons_cons_eq_some h
      obtain ⟨rfl, rfl⟩ := List.cons.inj hcons
      exact ⟨c, d, cs, high, low, hhigh, hlow, hrest, rfl, rfl⟩

theorem readFrom_of_bytesOf {cs : List Char} {bytes : List ℕ} (h : bytesOf cs = some bytes)
    (acc : ℕ) :
    Hexadecimal.readFrom acc (cs.map Char.toLower) =
      some (acc * 256 ^ bytes.length + uint bytes) := by
  induction bytes generalizing cs acc with
  | nil =>
      rw [eq_nil_of_bytesOf h]
      simp [Hexadecimal.readFrom]
  | cons b bytes ih =>
      obtain ⟨c, d, cs, high, low, hhigh, hlow, hrest, rfl, rfl⟩ := bytesOf_eq_some_cons h
      simp only [List.map_cons, Hexadecimal.readFrom, hhigh, hlow, Option.bind_some, ih hrest,
        uint_cons, List.length_cons]
      congr 1
      ring

/-- The bytes and the digits are one number. -/
theorem value_of_bytesOf {cs : List Char} {bytes : List ℕ} (h : bytesOf cs = some bytes) :
    Hexadecimal.value (cs.map Char.toLower) = some (uint bytes) := by
  rw [Hexadecimal.value, readFrom_of_bytesOf h, zero_mul, zero_add]

/-- Digits are told by the bytes they spell, up to their letter case. -/
theorem map_toLower_of_bytesOf {cs ds : List Char} {bytes : List ℕ}
    (hcs : bytesOf cs = some bytes) (hds : bytesOf ds = some bytes) :
    cs.map Char.toLower = ds.map Char.toLower := by
  induction bytes generalizing cs ds with
  | nil => rw [eq_nil_of_bytesOf hcs, eq_nil_of_bytesOf hds]
  | cons b bytes ih =>
      obtain ⟨c, c', cs, high, low, hhigh, hlow, hrest, rfl, rfl⟩ := bytesOf_eq_some_cons hcs
      obtain ⟨d, d', ds, high', low', hhigh', hlow', hrest', rfl, hbyte⟩ :=
        bytesOf_eq_some_cons hds
      have hlt := Hexadecimal.digitValue_lt hlow
      have hlt' := Hexadecimal.digitValue_lt hlow'
      obtain rfl : high = high' := by omega
      obtain rfl : low = low' := by omega
      rw [List.map_cons, List.map_cons, List.map_cons, List.map_cons, ih hrest hrest',
        Hexadecimal.eq_of_digitValue hhigh hhigh', Hexadecimal.eq_of_digitValue hlow hlow']

/-- Digits in lower case are told by the bytes they spell. -/
theorem eq_of_bytesOf_eq {cs ds : List Char} {bytes : List ℕ} (hcs : bytesOf cs = some bytes)
    (hds : bytesOf ds = some bytes) (hclower : ∀ c ∈ cs, Hexadecimal.isLowerDigit c = true)
    (hdlower : ∀ d ∈ ds, Hexadecimal.isLowerDigit d = true) : cs = ds := by
  have hmap : cs.map Char.toLower = ds.map Char.toLower := map_toLower_of_bytesOf hcs hds
  have hself : ∀ {es : List Char}, (∀ e ∈ es, Hexadecimal.isLowerDigit e = true) →
      es.map Char.toLower = es := by
    intro es hlower
    rw [List.map_congr_left fun e he => Hexadecimal.toLower_of_isLowerDigit (hlower e he),
      List.map_id']
  rwa [hself hclower, hself hdlower] at hmap

theorem bytesOf_of_text {data : String} {bytes : List ℕ} (h : bytesOfText data = some bytes) :
    bytesOf (data.toList.drop 2) = some bytes := by
  unfold bytesOfText at h
  split at h
  next => exact h
  next => cases h

end Abi
