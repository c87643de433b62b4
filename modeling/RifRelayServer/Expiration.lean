import RifRelayServer.Numbers
import RifRelayServer.Lib.Binary64
import Mathlib

/-!
# The expiration of a request

A request names the second until which it is valid. The server reads it off the text
of that number, and compares it with its clock. The difference and the sum of the two are
rounded to doubles.
-/

namespace RifRelayServer

open Binary64

/-- The text of a number is plain digits in this range, and has an exponent elsewhere. -/
def isPlain (x : ℚ) : Bool := x = 0 || (1 / 10 ^ 6 ≤ |x| && |x| < 10 ^ 21)

/-- The digit that the text of a number begins with when it has an exponent. The language
chooses the shortest digits that it would read back as the number. -/
structure ExponentTexts where
  leadingDigit : ℚ → ℕ
  leadingDigit_pos : ∀ x, 0 < leadingDigit x
  leadingDigit_le : ∀ x, leadingDigit x ≤ 9

def truncate (x : ℚ) : ℤ := if 0 ≤ x then ⌊x⌋ else -⌊-x⌋

/-- `parseInt(x.toString())`. It reads digits up to the first character that is none, and
no digits in the texts `NaN` and `Infinity`. -/
def parseIntOfText (texts : ExponentTexts) : JsNumber → Option ℤ
  | .finite x =>
      if isPlain x then some (truncate x)
      else if 0 ≤ x then some (texts.leadingDigit x)
      else some (-texts.leadingDigit x)
  | .infinite _ => none
  | .nan => none

def weekdays : List String := ["Sun", "Mon", "Tue", "Wed", "Thu", "Fri", "Sat"]

def months : List String :=
  ["Jan", "Feb", "Mar", "Apr", "May", "Jun", "Jul", "Aug", "Sep", "Oct", "Nov", "Dec"]

structure CivilDate where
  year : ℤ
  month : ℕ
  day : ℕ
  deriving DecidableEq

/-- The date of a day, counted from 1 January 1970. Years begin in March in between, so that
a leap day comes last. -/
def CivilDate.ofDay (day : ℤ) : CivilDate :=
  let shifted := day + 719468
  let dayOfEra := shifted % 146097
  let yearOfEra := (dayOfEra - dayOfEra / 1460 + dayOfEra / 36524 - dayOfEra / 146096) / 365
  let dayOfYear := dayOfEra - (365 * yearOfEra + yearOfEra / 4 - yearOfEra / 100)
  let monthFromMarch := (5 * dayOfYear + 2) / 153
  let month := if monthFromMarch < 10 then monthFromMarch + 3 else monthFromMarch - 9
  { year := yearOfEra + shifted / 146097 * 400 + if month ≤ 2 then 1 else 0
    month := month.toNat
    day := (dayOfYear - (153 * monthFromMarch + 2) / 5 + 1).toNat }

def padded (width n : ℕ) : String :=
  let digits := Nat.toDigits 10 n
  String.ofList (List.replicate (width - digits.length) '0' ++ digits)

/-- The time of the date, in milliseconds. -/
def secondsToDate (seconds : ℚ) : ℚ := nearest (seconds * 1000)

/-- What the date with this time is written as. Dates end a hundred million days from 1970. -/
def toUTCString (time : ℚ) : String :=
  if 8640000000000000 < |time| then "Invalid Date"
  else
    let seconds := truncate time / 1000
    let day := seconds / 86400
    let time := (seconds % 86400).toNat
    let date := CivilDate.ofDay day
    let sign := if date.year < 0 then "-" else ""
    weekdays.getD ((day + 4) % 7).toNat "" ++ ", " ++ padded 2 date.day ++ " " ++
      months.getD (date.month - 1) "" ++ " " ++ sign ++ padded 4 date.year.natAbs ++ " " ++
      padded 2 (time / 3600) ++ ":" ++ padded 2 (time / 60 % 60) ++ ":" ++ padded 2 (time % 60) ++
      " GMT"

/-- `Math.round(Date.now() / 1000)`. -/
def secondsNow (now : ℕ) : ℤ := ⌊nearest (now / 1000) + 1 / 2⌋

def requestExpired (validUntil : ℤ) (earliest : ℚ) : String :=
  "Request expired (or too close): expiration date received \"" ++
    toUTCString (secondsToDate validUntil) ++
    "\" is expected to be greater than or equal to \"" ++ toUTCString (secondsToDate earliest) ++
    "\""

/-- With no number read off the text, the comparison is false. -/
def validateExpirationTime (texts : ExponentTexts) (requestMinValidSeconds : ℚ≥0) (now : ℕ)
    (validUntilTime : JsNumber) : Except String Unit :=
  match parseIntOfText texts validUntilTime with
  | none => .ok ()
  | some validUntil =>
      if nearest (validUntil - secondsNow now : ℤ) < requestMinValidSeconds then
        .error (requestExpired validUntil (nearest (secondsNow now + requestMinValidSeconds)))
      else .ok ()

theorem truncate_of_nonneg {x : ℚ} (h : 0 ≤ x) : truncate x = ⌊x⌋ := if_pos h

theorem truncate_nonpos {x : ℚ} (h : x < 0) : truncate x ≤ 0 := by
  rw [truncate, if_neg (not_le.mpr h), neg_nonpos]
  exact Int.floor_nonneg.mpr (by linarith)

/-- A bound above nought is reached by the whole part when the number reaches it. -/
theorem le_truncate_iff {m : ℤ} (hm : 0 < m) {x : ℚ} : m ≤ truncate x ↔ (m : ℚ) ≤ x := by
  rcases le_or_gt 0 x with hx | hx
  · rw [truncate_of_nonneg hx, Int.le_floor]
  · have hm' : (0 : ℚ) < m := by exact_mod_cast hm
    have htruncate := truncate_nonpos hx
    constructor
    · intro h
      omega
    · intro h
      linarith

theorem parseIntOfText_of_exponent {texts : ExponentTexts} {x : ℚ} {seconds : ℤ}
    (hx : isPlain x = false) (h : parseIntOfText texts (.finite x) = some seconds) :
    seconds ≤ 9 := by
  have hle : (texts.leadingDigit x : ℤ) ≤ 9 := by exact_mod_cast texts.leadingDigit_le x
  rw [parseIntOfText, if_neg (by simp [hx])] at h
  split at h
  · exact Option.some.inj h ▸ hle
  · obtain rfl := Option.some.inj h
    omega

theorem isPlain_of_one_le {x : ℚ} (h : 1 ≤ x) : isPlain x = decide (x < 10 ^ 21) := by
  have hne : x ≠ 0 := by linarith
  have hlow : (1 / 10 ^ 6 : ℚ) ≤ x := by linarith
  simp [isPlain, hne, abs_of_nonneg (zero_le_one.trans h)]
  intro _
  linarith

theorem nine_lt_secondsNow {now : ℕ} (h : 10000 ≤ now) : 9 < secondsNow now := by
  have hnow : (10000 : ℚ) ≤ now := by exact_mod_cast h
  have hround := @le_nearest 10 (now / 1000) (by decide) (by push_cast; linarith)
  rw [secondsNow, ← Int.add_one_le_iff, Int.le_floor]
  push_cast at hround ⊢
  linarith

/-- What is read off the text of a number reaches a bound above nine when the number does,
unless its text has an exponent. -/
theorem le_parseIntOfText_iff {texts : ExponentTexts} {x : ℚ} {m seconds : ℤ} (hm : 9 < m)
    (h : parseIntOfText texts (.finite x) = some seconds) :
    m ≤ seconds ↔ (m : ℚ) ≤ x ∧ x < 10 ^ 21 := by
  have hm' : (1 : ℚ) ≤ m := by exact_mod_cast (by omega : (1 : ℤ) ≤ m)
  cases hplain : isPlain x with
  | true =>
      rw [parseIntOfText, if_pos hplain] at h
      obtain rfl := Option.some.inj h
      rw [le_truncate_iff (by omega)]
      refine ⟨fun hle => ⟨hle, ?_⟩, And.left⟩
      exact of_decide_eq_true ((isPlain_of_one_le (hm'.trans hle)).symm.trans hplain)
  | false =>
      have hnine := parseIntOfText_of_exponent hplain h
      refine ⟨fun hle => absurd hle (by omega), fun ⟨hle, hlt⟩ => ?_⟩
      rw [isPlain_of_one_le (hm'.trans hle)] at hplain
      exact absurd hlt (of_decide_eq_false hplain)

theorem exists_parseIntOfText (texts : ExponentTexts) (x : ℚ) :
    ∃ seconds, parseIntOfText texts (.finite x) = some seconds := by
  rw [parseIntOfText]
  split
  · exact ⟨_, rfl⟩
  · split <;> exact ⟨_, rfl⟩

/-- From ten seconds after the epoch on, and while the clock and the minimum come to no more
than `2 ^ 53` seconds, the server lets a request through that is valid for long enough after
the nearest second, and one that is valid for ever or until no number. It refuses one that is
valid until a second whose text has an exponent. -/
theorem validateExpirationTime_ok_iff (texts : ExponentTexts) {now : ℕ} (hnow : 10000 ≤ now)
    {requestMinValidSeconds : ℚ≥0} (hmin : (secondsNow now + requestMinValidSeconds : ℚ) ≤ 2 ^ 53)
    (validUntilTime : JsNumber) :
    validateExpirationTime texts requestMinValidSeconds now validUntilTime = .ok () ↔
      ∀ seconds, validUntilTime = .finite seconds →
        ((secondsNow now + ⌈(requestMinValidSeconds : ℚ)⌉ : ℤ) : ℚ) ≤ seconds ∧
          seconds < 10 ^ 21 := by
  cases validUntilTime with
  | infinite negative => simp [validateExpirationTime, parseIntOfText]
  | nan => simp [validateExpirationTime, parseIntOfText]
  | finite x =>
      have hclock := nine_lt_secondsNow hnow
      have hceil : 0 ≤ ⌈(requestMinValidSeconds : ℚ)⌉ := Int.ceil_nonneg requestMinValidSeconds.2
      obtain ⟨seconds, hseconds⟩ := exists_parseIntOfText texts x
      have hbound : (requestMinValidSeconds : ℚ) ≤ 2 ^ 53 := by
        have hpos : (0 : ℚ) ≤ secondsNow now := by exact_mod_cast (by omega : 0 ≤ secondsNow now)
        linarith
      have hreaches : (requestMinValidSeconds : ℚ) ≤ nearest (seconds - secondsNow now : ℤ) ↔
          secondsNow now + ⌈(requestMinValidSeconds : ℚ)⌉ ≤ seconds := by
        rw [le_nearest_intCast_iff (NNRat.coe_nonneg requestMinValidSeconds) hbound]
        omega
      simp only [JsNumber.finite.injEq, forall_eq']
      rw [← le_parseIntOfText_iff (by omega) hseconds, ← hreaches, ← not_lt]
      simp only [validateExpirationTime, hseconds]
      split
      next hexpired => exact iff_of_false nofun (not_not.mpr hexpired)
      next hvalid => exact iff_of_true rfl hvalid

def sampleTexts : ExponentTexts where
  leadingDigit _ := 1
  leadingDigit_pos _ := one_pos
  leadingDigit_le _ := by decide

theorem validateExpirationTime_ok_iff_sample :
    validateExpirationTime sampleTexts 43200 1700000000500 (.finite 1700043201) = .ok () ↔
      ∀ seconds, JsNumber.finite 1700043201 = .finite seconds →
        ((secondsNow 1700000000500 + ⌈((43200 : ℚ≥0) : ℚ)⌉ : ℤ) : ℚ) ≤ seconds ∧
          seconds < 10 ^ 21 :=
  validateExpirationTime_ok_iff sampleTexts (by decide) (by decide +kernel) (.finite 1700043201)

end RifRelayServer
