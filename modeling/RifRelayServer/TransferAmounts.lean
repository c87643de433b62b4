import RifRelayServer.Lib.Abi
import RifRelayServer.Spelling

/-!
# The amount that a transfer is charged for

A token contract decodes the amount of a transfer from the bytes of its calldata, and neither
the letter case of the digits nor bytes behind the arguments matter. The fee reads the amount
off the text, from where it starts to the end. This module says exactly where the two agree.
-/

namespace RifRelayServer

def isLowerSelector (data : String) : Bool :=
  (getMethodHashFromData data).all Hexadecimal.isLowerDigit

/-- The methods whose amount is charged for. -/
inductive TransferMethod
  | transfer
  | transferFrom
  deriving DecidableEq

namespace TransferMethod

def selector : TransferMethod → List ℕ
  | transfer => [0xa9, 0x05, 0x9c, 0xbb]
  | transferFrom => [0x23, 0xb8, 0x72, 0xdd]

def hash : TransferMethod → String
  | transfer => transferHash
  | transferFrom => transferFromHash

/-- The amount is the last of the arguments. -/
def amountIndex : TransferMethod → ℕ
  | transfer => 1
  | transferFrom => 2

/-- The amount that the token contract decodes. -/
def amount (method : TransferMethod) (bytes : List ℕ) : ℕ := Abi.word method.amountIndex bytes

/-- The amount together with all that follows it. -/
def amountToEnd (method : TransferMethod) (bytes : List ℕ) : ℕ :=
  Abi.uint (bytes.drop (Abi.wordStart method.amountIndex))

/-- The calldata calls the method with all of its arguments. Bytes may follow them. -/
structure IsCalledBy (method : TransferMethod) (data : String) (bytes : List ℕ) : Prop where
  spells : Abi.bytesOfText data = some bytes
  selector : Abi.selector bytes = method.selector
  complete : Abi.wordStart (method.amountIndex + 1) ≤ bytes.length

theorem bytesOf_hash (method : TransferMethod) :
    Abi.bytesOf method.hash.toList = some method.selector := by
  cases method <;> decide

theorem hash_lower (method : TransferMethod) :
    method.hash.toList.all Hexadecimal.isLowerDigit = true := by
  cases method <;> decide

/-- The amount starts behind `0x`, the selector and the arguments before it. -/
theorem valueIndexInData_hash (method : TransferMethod) :
    valueIndexInData method.hash.toList = some (2 + 2 * Abi.wordStart method.amountIndex) := by
  cases method <;> decide

theorem eq_hash_of_valueIndexInData {methodHash : List Char}
    (h : (valueIndexInData methodHash).isSome = true) :
    ∃ method : TransferMethod, methodHash = method.hash.toList := by
  obtain ⟨index, hindex⟩ := Option.isSome_iff_exists.mp h
  rcases valueIndexInData_eq_some hindex with ⟨heq, -⟩ | ⟨heq, -⟩
  · exact ⟨transfer, heq⟩
  · exact ⟨transferFrom, heq⟩

theorem amountToEnd_eq_amount_iff {method : TransferMethod} {bytes : List ℕ}
    (hcomplete : Abi.wordStart (method.amountIndex + 1) ≤ bytes.length) :
    method.amountToEnd bytes = method.amount bytes ↔
      bytes.length = Abi.wordStart (method.amountIndex + 1) ∨
        ∀ b ∈ bytes.drop (Abi.wordStart method.amountIndex), b = 0 := by
  have hsplit := List.take_append_drop 32 (bytes.drop (Abi.wordStart method.amountIndex))
  have hiff := Abi.uint_append_eq_iff ((bytes.drop (Abi.wordStart method.amountIndex)).take 32)
    ((bytes.drop (Abi.wordStart method.amountIndex)).drop 32)
  have hstart : Abi.wordStart (method.amountIndex + 1) = Abi.wordStart method.amountIndex + 32 := by
    simp only [Abi.wordStart]
    omega
  rw [hsplit, List.drop_drop, List.drop_eq_nil_iff, ← hstart] at hiff
  rw [amountToEnd, amount, Abi.word, hiff]
  constructor
  · rintro (hle | hzero)
    · exact Or.inl (le_antisymm hle hcomplete)
    · exact Or.inr hzero
  · rintro (heq | hzero)
    · exact Or.inl heq.le
    · exact Or.inr hzero

namespace IsCalledBy

variable {method : TransferMethod} {data : String} {bytes : List ℕ}

/-- Of the spellings of a selector only the one in lower case is recognised. -/
theorem getMethodHashFromData_eq_iff
    (call : method.IsCalledBy data bytes) :
    getMethodHashFromData data = method.hash.toList ↔
      isLowerSelector data = true := by
  have hbytes : Abi.bytesOf (getMethodHashFromData data) = some method.selector := by
    rw [← call.selector]
    exact Abi.bytesOf_take (Abi.bytesOf_of_text call.spells) 4
  constructor
  · intro h
    rw [isLowerSelector, h]
    exact method.hash_lower
  · intro hlower
    exact Abi.eq_of_bytesOf_eq hbytes method.bytesOf_hash (List.all_eq_true.mp hlower)
      (List.all_eq_true.mp method.hash_lower)

theorem isTransferOrTransferFrom_iff
    (call : method.IsCalledBy data bytes) :
    isTransferOrTransferFrom data = true ↔
      isLowerSelector data = true := by
  constructor
  · intro h
    obtain ⟨other, hother⟩ := TransferMethod.eq_hash_of_valueIndexInData h
    rw [isLowerSelector, hother]
    exact other.hash_lower
  · intro hlower
    rw [isTransferOrTransferFrom, call.getMethodHashFromData_eq_iff.mpr hlower,
      method.valueIndexInData_hash, Option.isSome_some]

/-- The digits that are read spell the bytes from the amount to the end. -/
theorem bytesOf_amountDigits (call : method.IsCalledBy data bytes)
    (hlower : isLowerSelector data = true) :
    Abi.bytesOf (amountDigits data) =
      some (bytes.drop (Abi.wordStart method.amountIndex)) := by
  have hdigits : amountDigits data =
      (data.toList.drop 2).drop (2 * Abi.wordStart method.amountIndex) := by
    rw [amountDigits, call.getMethodHashFromData_eq_iff.mpr hlower, method.valueIndexInData_hash,
      Option.getD_some, List.drop_drop]
  rw [hdigits]
  exact Abi.bytesOf_drop (Abi.bytesOf_of_text call.spells) _

theorem valueInDecimal_eq (call : method.IsCalledBy data bytes)
    (hlower : isLowerSelector data = true) :
    valueInDecimal data =
      if inOneCase (amountDigits data) then .finite (method.amountToEnd bytes) else .nan := by
  have hvalue : valueInDecimal data = .ofHexDigits (amountDigits data) := rfl
  have hread := BigNumberJs.ofHexDigits_ne_nan_iff (amountDigits data)
  split
  next hcase =>
    obtain ⟨n, hn, hdigits⟩ := BigNumberJs.value_of_ofHexDigits (hread.mpr hcase)
    rw [Abi.value_of_bytesOf (call.bytesOf_amountDigits hlower)] at hn
    rw [hvalue, hdigits, ← Option.some.inj hn, TransferMethod.amountToEnd]
  next hcase =>
    rw [hvalue]
    by_contra hnan
    exact hcase (hread.mp hnan)

end IsCalledBy

end TransferMethod

/-- The transfer fee of the calldata is computed on the amount, whatever the fraction, the
request and the services. -/
def ChargesFor (data : String) (amount : ℕ) : Prop :=
  ∀ (services : Services) (transferFeePercentage : ℚ) (envelopingRequest : EnvelopingRequest),
    calculateFeeFromTransfer services data transferFeePercentage envelopingRequest =
      convertTokenToGas services
        ((BigNumberJs.finite amount).multipliedBy (.finite transferFeePercentage))
        envelopingRequest.request.tokenContract envelopingRequest.relayData.gasPrice

theorem convertTokenToGas_addressZero (services : Services) (amount : BigNumberJs) (gasPrice : ℕ) :
    convertTokenToGas services amount addressZero gasPrice =
      .ok (amount.dividedBy (.finite gasPrice)) := rfl

theorem BigNumberJs.multipliedBy_dividedBy_one (n : ℕ) :
    ((finite n).multipliedBy (.finite 1)).dividedBy (.finite 1) = .finite n := by
  rw [multipliedBy_finite, dividedBy_finite _ one_ne_zero, mul_one, div_one]
  exact congrArg finite (by exact_mod_cast HalfUp.toPlaces_intCast (α := ℚ) decimalPlaces n)

/-- A payment in the native token at a price of one shows what the fee is computed on, and at
a price of zero whether it is computed at all. -/
theorem chargesFor_iff (data : String) (amount : ℕ) :
    ChargesFor data amount ↔
      isTransferOrTransferFrom data = true ∧ valueInDecimal data = .finite amount := by
  constructor
  · intro h
    have hrec : isTransferOrTransferFrom data = true := by
      by_contra hnot
      have hfree := h parServices 1 ⟨⟨"", data, addressZero, 0⟩, ⟨0⟩⟩
      rw [calculateFeeFromTransfer, if_neg hnot, convertTokenToGas_addressZero] at hfree
      simp only [BigNumberJs.multipliedBy_finite, BigNumberJs.dividedBy, Nat.cast_zero,
        if_true] at hfree
      split at hfree <;> cases hfree
    refine ⟨hrec, ?_⟩
    have hfee := h parServices 1 (nativeRequest "" data)
    rw [calculateFeeFromTransfer, if_pos hrec] at hfee
    simp only [nativeRequest, convertTokenToGas_addressZero, Nat.cast_one,
      Except.ok.injEq] at hfee
    by_cases hnan : valueInDecimal data = .nan
    · rw [hnan] at hfee
      simp [BigNumberJs.dividedBy_finite] at hfee
    · obtain ⟨n, -, hn⟩ := BigNumberJs.value_of_ofHexDigits hnan
      have hvalue : valueInDecimal data = .finite n := hn
      rw [hvalue, BigNumberJs.multipliedBy_dividedBy_one,
        BigNumberJs.multipliedBy_dividedBy_one] at hfee
      rw [hvalue, hfee]
  · rintro ⟨hrec, hvalue⟩ services transferFeePercentage envelopingRequest
    rw [calculateFeeFromTransfer, if_pos hrec, hvalue]

/-- The fee is computed on the amount that the token contract decodes exactly when the selector
is spelled in lower case, the digits from the amount on are spelled in one case, and no bytes
follow the arguments, unless those and the amount are all zero. -/
theorem chargesFor_amount_iff {method : TransferMethod} {data : String} {bytes : List ℕ}
    (call : method.IsCalledBy data bytes) :
    ChargesFor data (method.amount bytes) ↔
      isLowerSelector data = true ∧ inOneCase (amountDigits data) = true ∧
        (bytes.length = Abi.wordStart (method.amountIndex + 1) ∨
          ∀ b ∈ bytes.drop (Abi.wordStart method.amountIndex), b = 0) := by
  rw [chargesFor_iff, call.isTransferOrTransferFrom_iff]
  apply and_congr_right
  intro hlower
  rw [call.valueInDecimal_eq hlower, ← TransferMethod.amountToEnd_eq_amount_iff call.complete]
  split
  next hcase => simp [hcase]
  next hcase => simp [hcase]

/-- What `lowerCaseTransfer` spells. -/
def transferBytes : List ℕ :=
  TransferMethod.transfer.selector ++ List.replicate 12 0 ++
    [0xcb, 0x8f, 0x81, 0x30, 0xe2, 0x89, 0x94, 0x6a, 0xec, 0x9a, 0x17, 0xb2, 0x98, 0x19, 0x71,
      0x6b, 0x1e, 0x9e, 0x49, 0x98] ++ List.replicate 30 0 ++ [0x03, 0xe8]

theorem lowerCaseTransfer_chargesFor :
    ChargesFor lowerCaseTransfer (TransferMethod.transfer.amount transferBytes) :=
  (chargesFor_amount_iff ⟨by decide +kernel, rfl, by decide⟩).mpr
    ⟨by decide +kernel, by decide +kernel, Or.inl rfl⟩

/-- One zero byte behind a transfer of 1000 is charged for as a transfer of 256000. -/
theorem transfer_with_more_bytes_overcharged :
    ¬ ∀ (method : TransferMethod) (data : String) (bytes : List ℕ),
      method.IsCalledBy data bytes → ChargesFor data (method.amount bytes) := by
  intro h
  have hcharges := h .transfer (lowerCaseTransfer ++ "00") (transferBytes ++ [0])
    ⟨by decide +kernel, rfl, by decide⟩
  have hread : valueInDecimal (lowerCaseTransfer ++ "00") = .finite 256000 := by decide +kernel
  have hdecoded : TransferMethod.transfer.amount (transferBytes ++ [0]) = 1000 := by decide
  have hvalue := ((chargesFor_iff _ _).mp hcharges).2
  rw [hread, hdecoded] at hvalue
  norm_num at hvalue

end RifRelayServer
