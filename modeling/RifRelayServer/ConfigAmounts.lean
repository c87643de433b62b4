import RifRelayServer.Numbers
import RifRelayServer.Lib.Hexadecimal
import Mathlib

/-!
# The amounts of the configuration

An amount is configured as a number or as a text. The schema accepts it if it looks
like a `BigNumber`, and the server makes one of it when it comes to use it.
-/

namespace RifRelayServer

/-- A value as it is configured. -/
inductive ConfigValue
  | number (value : JsNumber)
  | text (value : String)
  deriving DecidableEq

/-- `value % 1 === 0` -/
def JsNumber.isInteger : JsNumber → Bool
  | finite value => value.isInt
  | _ => false

def isDigits (digits : List Char) : Bool := !digits.isEmpty && digits.all Char.isDigit

/-- `/^-?[0-9]+$/` -/
def isDecimalInteger (value : String) : Bool :=
  match value.toList with
  | '-' :: digits => isDigits digits
  | digits => isDigits digits

/-- `/^0x[0-9A-Fa-f]*$/` -/
def isHexString (value : String) : Bool :=
  match value.toList with
  | '0' :: 'x' :: digits =>
      digits.all fun c => Hexadecimal.isLowerDigit c || Hexadecimal.isUpperDigit c
  | _ => false

/-- Why a field is refused. The text of a custom validation ends with the value. -/
inductive FieldRule
  | required
  | number (message : String)
  | min (limit : ℕ)
  | custom (message : String) (value : ConfigValue)
  deriving DecidableEq

structure FieldError where
  path : String
  rule : FieldRule
  deriving DecidableEq

def invalidBigNumberRepresentation : String := "Invalid BigNumber string representation: "

def ConfigValue.isValidBigNumberRepresentation : ConfigValue → Bool
  | number value => value.isInteger
  | text value => isDecimalInteger value || isHexString value

/-- What it is given is the value before its coercion to a number. -/
def isBigNumberish (original : ConfigValue) : Except FieldRule ConfigValue :=
  if original.isValidBigNumberRepresentation then .ok original
  else .error (.custom invalidBigNumberRepresentation original)

/-- `Joi.number().min(min).unsafe().custom(isBigNumberish)` at a path. -/
structure AmountField where
  path : String
  min : Option ℕ
  required : Bool
  deriving DecidableEq

/-- `joiNumber` is the coercion of the library. -/
def AmountField.validate (joiNumber : ConfigValue → Except String JsNumber) (field : AmountField)
    (configured : Option ConfigValue) : Except FieldError (Option ConfigValue) :=
  match configured with
  | none => if field.required then .error ⟨field.path, .required⟩ else .ok none
  | some original =>
      match joiNumber original with
      | .error message => .error ⟨field.path, .number message⟩
      | .ok value =>
          match field.min.filter fun limit => value.isExceededBy limit with
          | some limit => .error ⟨field.path, .min limit⟩
          | none =>
              match isBigNumberish original with
              | .error rule => .error ⟨field.path, rule⟩
              | .ok value => .ok (some value)

def workerMinBalance : AmountField := ⟨"blockchain.workerMinBalance", none, false⟩

def workerTargetBalance : AmountField := ⟨"blockchain.workerTargetBalance", some 0, true⟩

def managerMinBalance : AmountField := ⟨"blockchain.managerMinBalance", some 0, true⟩

def managerMinStake : AmountField := ⟨"blockchain.managerMinStake", some 0, true⟩

def managerTargetBalance : AmountField := ⟨"blockchain.managerTargetBalance", some 0, true⟩

def minHubWithdrawalBalance : AmountField := ⟨"blockchain.minHubWithdrawalBalance", some 0, true⟩

def maxGasPrice : AmountField := ⟨"blockchain.maxGasPrice", some 0, true⟩

def defaultGasLimit : AmountField := ⟨"blockchain.defaultGasLimit", some 0, true⟩

def registerGasPrice : AmountField := ⟨"register.gasPrice", some 1, true⟩

/-- The amounts with their defaults. -/
def defaultAmounts : List (AmountField × ℕ) :=
  [(workerMinBalance, 10 ^ 15), (workerTargetBalance, 3 * 10 ^ 15), (managerMinBalance, 10 ^ 15),
    (managerMinStake, 1), (managerTargetBalance, 3 * 10 ^ 15), (minHubWithdrawalBalance, 10 ^ 15),
    (maxGasPrice, 100000000000), (defaultGasLimit, 500000), (registerGasPrice, 60000000)]

/-- What the library says of the numbers that it takes. -/
structure JoiNumberSpec (joiNumber : ConfigValue → Except String JsNumber) : Prop where
  number : ∀ value, joiNumber (.number (.finite value)) = .ok (.finite value)
  bare : ∀ value, joiNumber (.text "0x") ≠ .ok value

/-- What ethers 5 says of `BigNumber.from`. -/
structure BigNumberFromSpec (bigNumberFrom : ConfigValue → Except String ℤ) : Prop where
  integer : ∀ value : ℤ, |value| < maxSafeInteger →
    bigNumberFrom (.number (.finite value)) = .ok value
  fractional : ∀ value : ℚ, ¬ value.isInt → ∀ n, bigNumberFrom (.number (.finite value)) ≠ .ok n
  overflow : ∀ value : ℚ, maxSafeInteger ≤ |value| →
    ∀ n, bigNumberFrom (.number (.finite value)) ≠ .ok n
  decimal : ∀ value, isDecimalInteger value = true → ∃ n, bigNumberFrom (.text value) = .ok n
  hexadecimal : ∀ value, isHexString value = true → value ≠ "0x" →
    ∃ n, bigNumberFrom (.text value) = .ok n

section Amounts

variable {joiNumber : ConfigValue → Except String JsNumber}
  {bigNumberFrom : ConfigValue → Except String ℤ} {field : AmountField}
  {configured : Option ConfigValue} {value : ConfigValue}

/-- A field that is refused is named. -/
theorem AmountField.path_of_validate_error {e : FieldError}
    (h : field.validate joiNumber configured = .error e) : e.path = field.path := by
  unfold validate at h
  cases configured with
  | none =>
      dsimp only at h
      split at h <;> cases h
      rfl
  | some original =>
      dsimp only at h
      split at h
      · cases h; rfl
      · split at h
        · cases h; rfl
        · split at h <;> cases h
          rfl

theorem isBigNumberish_eq_ok_iff {kept : ConfigValue} :
    isBigNumberish value = .ok kept ↔ value.isValidBigNumberRepresentation = true ∧ kept = value := by
  unfold isBigNumberish
  split
  next h => simp [h, eq_comm]
  next h => simp [h]

/-- What is accepted is kept as it is configured. -/
theorem AmountField.validate_eq_ok {validated : Option ConfigValue}
    (h : field.validate joiNumber (some value) = .ok validated) :
    validated = some value ∧ value.isValidBigNumberRepresentation = true ∧
      ∃ n, joiNumber value = .ok n := by
  unfold validate at h
  dsimp only at h
  split at h
  · cases h
  next n hcoerced =>
    split at h
    · cases h
    · split at h
      · cases h
      next kept hkept =>
        obtain ⟨hvalid, rfl⟩ := isBigNumberish_eq_ok_iff.mp hkept
        exact ⟨(Except.ok.inj h).symm, hvalid, n, hcoerced⟩

theorem JsNumber.eq_intCast_of_isInteger {n : JsNumber} (h : n.isInteger = true) :
    ∃ z : ℤ, n = .finite z := by
  cases n with
  | finite q => exact ⟨q.num, congrArg _ (Rat.den_eq_one_iff q |>.mp (eq_of_beq h)).symm⟩
  | infinite => cases h
  | nan => cases h

/-- Of the amounts that are accepted, ethers refuses the numbers, and no texts, that are
not safe integers. -/
theorem accepted_amount_usable_iff (hjoi : JoiNumberSpec joiNumber)
    (hfrom : BigNumberFromSpec bigNumberFrom) {validated : Option ConfigValue}
    (h : field.validate joiNumber (some value) = .ok validated) :
    (∃ n, bigNumberFrom value = .ok n) ↔
      ∀ q : ℚ, value = .number (.finite q) → |q| < maxSafeInteger := by
  obtain ⟨-, hvalid, m, hcoerced⟩ := field.validate_eq_ok h
  cases value with
  | number number =>
      obtain ⟨z, rfl⟩ := JsNumber.eq_intCast_of_isInteger hvalid
      constructor
      · rintro ⟨n, hn⟩ q hq
        obtain rfl : (z : ℚ) = q := by injection hq with hq; injection hq
        by_contra hlarge
        exact hfrom.overflow z (not_lt.mp hlarge) n hn
      · intro hsafe
        exact ⟨z, hfrom.integer z (by exact_mod_cast hsafe z rfl)⟩
  | text text =>
      apply iff_of_true _ nofun
      rcases Bool.or_eq_true_iff.mp hvalid with hdecimal | hhex
      · exact hfrom.decimal text hdecimal
      · apply hfrom.hexadecimal text hhex
        rintro rfl
        exact hjoi.bare m hcoerced

/-- Every default is accepted, and ethers takes it. -/
theorem default_amounts_usable (hjoi : JoiNumberSpec joiNumber)
    (hfrom : BigNumberFromSpec bigNumberFrom) :
    ∀ it ∈ defaultAmounts,
      it.1.validate joiNumber (some (.number (.finite it.2))) =
          .ok (some (.number (.finite it.2))) ∧
        bigNumberFrom (.number (.finite it.2)) = .ok it.2 := by
  intro it hit
  have hbounds : ∀ it ∈ defaultAmounts, it.1.min.getD 0 ≤ it.2 ∧ it.2 < maxSafeInteger := by decide
  obtain ⟨hmin, hmax⟩ := hbounds it hit
  have hlimit : it.1.min.filter (fun limit => (JsNumber.finite it.2).isExceededBy limit) = none := by
    cases hfield : it.1.min with
    | none => rfl
    | some limit =>
        rw [hfield, Option.getD_some] at hmin
        simp [JsNumber.isExceededBy, hmin]
  constructor
  · have hvalid : isBigNumberish (.number (.finite it.2)) = .ok (.number (.finite it.2)) :=
      isBigNumberish_eq_ok_iff.mpr ⟨rfl, rfl⟩
    rw [AmountField.validate, hjoi.number]
    dsimp only
    rw [hlimit, hvalid]
  · exact_mod_cast hfrom.integer it.2 (by rw [Nat.abs_cast]; exact_mod_cast hmax)

end Amounts

def decimalValue (value : String) : ℤ :=
  let read (digits : List Char) : ℕ := digits.foldl (fun n c => 10 * n + (c.toNat - '0'.toNat)) 0
  match value.toList with
  | '-' :: digits => -read digits
  | digits => read digits

def sampleJoiNumber : ConfigValue → Except String JsNumber
  | .number (.finite value) => .ok (.finite value)
  | .number _ => .error "must be a number"
  | .text value =>
      if isDecimalInteger value then .ok (.finite (decimalValue value))
      else .error "must be a number"

def sampleBigNumberFrom : ConfigValue → Except String ℤ
  | .number (.finite value) =>
      if !value.isInt then .error "underflow"
      else if maxSafeInteger ≤ |value| then .error "overflow"
      else .ok value.num
  | .number _ => .error "invalid BigNumber string"
  | .text value =>
      if isDecimalInteger value then .ok (decimalValue value)
      else if isHexString value && value ≠ "0x" then
        .ok ((Hexadecimal.value ((value.toList.drop 2).map Char.toLower)).getD 0 : ℕ)
      else .error "invalid BigNumber string"

theorem sampleJoiNumber_spec : JoiNumberSpec sampleJoiNumber where
  number _ := rfl
  bare value h := by
    rw [sampleJoiNumber, if_neg (by decide)] at h
    cases h

theorem sampleBigNumberFrom_spec : BigNumberFromSpec sampleBigNumberFrom where
  integer value hsafe := by
    have hint : (value : ℚ).isInt = true := rfl
    have hsmall : ¬ (maxSafeInteger : ℚ) ≤ |(value : ℚ)| := not_le.mpr (by exact_mod_cast hsafe)
    rw [sampleBigNumberFrom, hint, if_neg (by decide), if_neg hsmall, Rat.num_intCast]
  fractional value hfraction n h := by
    rw [sampleBigNumberFrom, if_pos (by simpa using hfraction)] at h
    cases h
  overflow value hlarge n h := by
    rw [sampleBigNumberFrom, if_pos hlarge] at h
    split at h <;> cases h
  decimal value hdecimal := ⟨decimalValue value, by rw [sampleBigNumberFrom, if_pos hdecimal]⟩
  hexadecimal value hhex hbare := by
    rw [sampleBigNumberFrom]
    split
    · exact ⟨_, rfl⟩
    · rw [if_pos (by simp [hhex, hbare])]
      exact ⟨_, rfl⟩

theorem accepted_amount_usable_iff_default :
    (∃ n, sampleBigNumberFrom (.number (.finite (10 ^ 15))) = .ok n) ↔
      ∀ q : ℚ, ConfigValue.number (.finite (10 ^ 15)) = .number (.finite q) →
        |q| < maxSafeInteger :=
  @accepted_amount_usable_iff _ _ workerMinBalance _ sampleJoiNumber_spec sampleBigNumberFrom_spec
    (some (.number (.finite (10 ^ 15)))) (by decide +kernel)

/-- One coin, written as a number of its smallest units. -/
theorem accepted_amount_unusable :
    ¬ ∀ (joiNumber : ConfigValue → Except String JsNumber)
        (bigNumberFrom : ConfigValue → Except String ℤ) (field : AmountField)
        (value : ConfigValue) (validated : Option ConfigValue),
      JoiNumberSpec joiNumber → BigNumberFromSpec bigNumberFrom →
      field.validate joiNumber (some value) = .ok validated →
      ∃ n, bigNumberFrom value = .ok n := by
  intro h
  have haccepted : workerTargetBalance.validate sampleJoiNumber
      (some (.number (.finite (10 ^ 18)))) = .ok (some (.number (.finite (10 ^ 18)))) := by
    decide +kernel
  obtain ⟨n, hn⟩ := h sampleJoiNumber sampleBigNumberFrom workerTargetBalance _ _
    sampleJoiNumber_spec sampleBigNumberFrom_spec haccepted
  exact sampleBigNumberFrom_spec.overflow _ (by norm_num [maxSafeInteger]) n hn

end RifRelayServer
