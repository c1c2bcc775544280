import PadOS.Core.ByteOrder
import PadOS.Usb.ReportLayout
import Mathlib.Tactic.Ring
import Mathlib.Tactic.Positivity
import Mathlib.Tactic.Zify

/-!
# The values in a report

A report is read as one number, its first byte lowest. A field is the part of it that its bits
stand for, and a report that is packed from values has each of them in its place.
-/

namespace PadOS.Usb

open ByteOrder Tiling HIDReportDescriptorParser List Option

/-- What an extraction comes to; `outside` is a read beyond the end of the report. -/
inductive Extraction (α : Type)
  | refused
  | outside
  | value (value : α)
  deriving DecidableEq, Repr

/-- The loop over the field's bits; `none` is a read beyond the end of the report. -/
def extractBits (report : List UInt8) (bitOffset : Nat) : Nat → Option Nat
  | 0 => some 0
  | fieldBitIndex + 1 =>
    match extractBits report bitOffset fieldBitIndex with
    | none => none
    | some outValue =>
      let reportBitIndex := (bitOffset + fieldBitIndex) % 2 ^ 32
      match report[reportBitIndex / 8]? with
      | none => none
      | some byte =>
        if byte.toNat &&& 1 <<< (reportBitIndex % 8) ≠ 0 then
          some (outValue ||| 1 <<< fieldBitIndex)
        else some outValue

/-- A report that is `none` is a null pointer. -/
def ExtractUnsignedValue (report : Option (List UInt8)) (field : USBHIDReportField) :
    Extraction Nat :=
  match report with
  | none => .refused
  | some report =>
    if field.bitSize = 0 ∨ field.bitSize > 32 then .refused
    else
      let reportBitSize := report.length * 8 % 2 ^ 32
      if field.bitOffset > reportBitSize then .refused
      else if field.bitSize > reportBitSize - field.bitOffset then .refused
      else
        match extractBits report field.bitOffset field.bitSize with
        | none => .outside
        | some outValue => .value outValue

/-- `int32_t` of an `uint32_t`. -/
def toInt32 (value : Nat) : Int := signed 32 value

def SignExtendValue (value bitSize : Nat) : Int :=
  if bitSize = 0 then 0
  else if bitSize ≥ 32 then toInt32 value
  else
    let signBit := 2 ^ (bitSize - 1)
    let valueMask := signBit ||| (signBit - 1)
    if value &&& signBit ≠ 0 then toInt32 (value ||| (2 ^ 32 - 1 - valueMask))
    else toInt32 (value &&& valueMask)

def ExtractSignedValue (report : Option (List UInt8)) (field : USBHIDReportField) :
    Extraction Int :=
  match ExtractUnsignedValue report field with
  | .refused => .refused
  | .outside => .outside
  | .value unsignedValue =>
    if field.logicalMinimum < 0 then .value (SignExtendValue unsignedValue field.bitSize)
    else .value (toInt32 unsignedValue)

/-! ## What a field stands for -/

variable (report : List UInt8)

/-- The number that the field's bits make up. -/
def fieldValue (field : USBHIDReportField) : Nat :=
  littleEndian report / 2 ^ field.bitOffset % 2 ^ field.bitSize

/-- The same with its sign, where the field has one. -/
def signedFieldValue (field : USBHIDReportField) : Int :=
  if field.logicalMinimum < 0 then signed field.bitSize (fieldValue report field)
  else fieldValue report field

theorem and_shiftLeft_ne_zero (value index : Nat) :
    value &&& 1 <<< index ≠ 0 ↔ value.testBit index = true := by
  rw [Nat.one_shiftLeft, Nat.and_two_pow]
  cases value.testBit index with
  | false => simp
  | true => simp

theorem extractBits_eq {report : List UInt8} {bitOffset bits : Nat}
    (inside : bitOffset + bits ≤ report.length * 8) (narrow : bitOffset + bits ≤ 2 ^ 32) :
    extractBits report bitOffset bits = some (littleEndian report / 2 ^ bitOffset % 2 ^ bits) := by
  induction bits with
  | zero => simp [extractBits, Nat.mod_one]
  | succ bits ih =>
    have before := ih (by omega) (by omega)
    have same : (bitOffset + bits) % 2 ^ 32 = bitOffset + bits := Nat.mod_eq_of_lt (by omega)
    have there : (bitOffset + bits) / 8 < report.length := by omega
    have read : report[(bitOffset + bits) / 8]? = some report[(bitOffset + bits) / 8] :=
      getElem?_eq_getElem there
    have bit := testBit_littleEndian report (bitOffset + bits)
    rw [read, map_some, getD_some] at bit
    have split : littleEndian report / 2 ^ bitOffset % 2 ^ (bits + 1) =
        2 ^ bits * ((littleEndian report).testBit (bitOffset + bits)).toNat +
          littleEndian report / 2 ^ bitOffset % 2 ^ bits := by
      rw [add_comm bitOffset, ← Nat.testBit_div_two_pow, Nat.toNat_testBit, Nat.pow_succ,
        Nat.mod_mul, add_comm]
    have low : littleEndian report / 2 ^ bitOffset % 2 ^ bits < 2 ^ bits :=
      Nat.mod_lt _ (Nat.two_pow_pos bits)
    rw [extractBits, before]
    simp only [same, read]
    rw [split, bit]
    split
    · rename_i set
      rw [(and_shiftLeft_ne_zero _ _).mp set, Nat.one_shiftLeft, Nat.or_comm,
        Nat.two_pow_add_eq_or_of_lt low]
      simp
    · rename_i clear
      rw [Bool.eq_false_iff.mpr (mt (and_shiftLeft_ne_zero _ _).mpr clear)]
      simp

/-- The code gets to reading the field. -/
def Reads (field : USBHIDReportField) : Prop :=
  (1 ≤ field.bitSize ∧ field.bitSize ≤ 32) ∧ field.extent.finish ≤ report.length * 8 % 2 ^ 32

instance (report : List UInt8) (field : USBHIDReportField) : Decidable (Reads report field) :=
  inferInstanceAs (Decidable (_ ∧ _))

theorem extractUnsignedValue_eq {report : List UInt8} {field : USBHIDReportField}
    (narrow : field.extent.finish < 2 ^ 32) :
    ExtractUnsignedValue (some report) field =
      if Reads report field then .value (fieldValue report field) else .refused := by
  have ends : field.extent.finish = field.bitOffset + field.bitSize := rfl
  have wraps : report.length * 8 % 2 ^ 32 ≤ report.length * 8 := Nat.mod_le _ _
  unfold ExtractUnsignedValue
  dsimp only
  split
  · rename_i size
    rw [if_neg (by unfold Reads; omega)]
  · rename_i size
    split
    · rw [if_neg (by unfold Reads; omega)]
    · split
      · rw [if_neg (by unfold Reads; omega)]
      · rw [if_pos (by unfold Reads; omega), extractBits_eq (by omega) (by omega)]
        rfl

/-! ## Signs -/

theorem signed_eq {bits value : Nat} (small : value < 2 ^ bits) :
    signed bits value = if value < 2 ^ (bits - 1) then (value : Int) else value - 2 ^ bits := by
  unfold signed
  rw [Nat.mod_eq_of_lt small]

theorem signMask_eq (bits : Nat) : 2 ^ bits ||| (2 ^ bits - 1) = 2 ^ (bits + 1) - 1 := by
  have low : 2 ^ bits - 1 < 2 ^ bits := Nat.sub_lt (Nat.two_pow_pos bits) (by decide)
  have both := Nat.two_pow_add_eq_or_of_lt low 1
  rw [mul_one] at both
  rw [← both, Nat.pow_succ]
  omega

theorem signExtendValue_eq {value bitSize : Nat} (positive : 1 ≤ bitSize) (narrow : bitSize ≤ 32)
    (small : value < 2 ^ bitSize) : SignExtendValue value bitSize = signed bitSize value := by
  rcases Nat.lt_or_ge bitSize 32 with below | full
  · obtain ⟨low, rfl⟩ : ∃ low, bitSize = low + 1 := ⟨bitSize - 1, by omega⟩
    have negative : value &&& 2 ^ low ≠ 0 ↔ 2 ^ low ≤ value := by
      rw [← Nat.one_shiftLeft, and_shiftLeft_ne_zero, Nat.one_shiftLeft]
      constructor
      · exact Nat.ge_two_pow_of_testBit
      · exact fun above => Nat.testBit_of_two_pow_le_and_two_pow_add_one_gt above small
    have fits : 2 ^ (low + 1) ≤ 2 ^ 31 := Nat.pow_le_pow_right (by decide) (by omega)
    rw [signed_eq small]
    unfold SignExtendValue
    rw [if_neg (by omega), if_neg (by omega)]
    simp only [Nat.add_sub_cancel, signMask_eq]
    by_cases above : 2 ^ low ≤ value
    · -- the bits above the mask are a multiple of the field's range
      have mask : 2 ^ 32 - 1 - (2 ^ (low + 1) - 1) = 2 ^ (low + 1) * (2 ^ (31 - low) - 1) := by
        have whole : 2 ^ (low + 1) * 2 ^ (31 - low) = 2 ^ 32 := by
          rw [← Nat.pow_add]
          congr 1
          omega
        rw [Nat.mul_sub, whole]
        omega
      have extended : value ||| (2 ^ 32 - 1 - (2 ^ (low + 1) - 1)) =
          2 ^ 32 - 2 ^ (low + 1) + value := by
        rw [Nat.or_comm, mask, ← Nat.two_pow_add_eq_or_of_lt small, ← mask]
        omega
      rw [if_pos (negative.mpr above), if_neg (by omega), extended, toInt32,
        signed_eq (by omega), if_neg (by omega), Nat.cast_add, Nat.cast_sub (by omega)]
      push_cast
      ring
    · rw [if_neg (mt negative.mp above), if_pos (by omega),
        Nat.and_two_pow_sub_one_of_lt_two_pow small, toInt32, signed_eq (by omega),
        if_pos (by omega)]
  · obtain rfl : bitSize = 32 := by omega
    rfl

/-! ## Any report -/

/-- Nothing is read beyond the report, and what is not refused is the value of the field. -/
structure ExactAndBounded (report : Option (List UInt8)) (field : USBHIDReportField) : Prop where
  unsigned : ExtractUnsignedValue report field = .refused ∨
    ∃ bytes, report = some bytes ∧ ExtractUnsignedValue report field = .value (fieldValue bytes field)
  signed : ExtractSignedValue report field = .refused ∨
    ∃ bytes, report = some bytes ∧
      ExtractSignedValue report field = .value (signedFieldValue bytes field)

theorem fieldValue_lt (field : USBHIDReportField) :
    fieldValue report field < 2 ^ field.bitSize :=
  Nat.mod_lt _ (Nat.two_pow_pos _)

theorem extractSignedValue_eq {report : List UInt8} {field : USBHIDReportField}
    (narrow : field.extent.finish < 2 ^ 32) :
    ExtractSignedValue (some report) field = if Reads report field then
        .value (if field.logicalMinimum < 0 then signed field.bitSize (fieldValue report field)
          else toInt32 (fieldValue report field))
      else .refused := by
  unfold ExtractSignedValue
  rw [extractUnsignedValue_eq narrow]
  by_cases reads : Reads report field
  · rw [if_pos reads, if_pos reads]
    dsimp only
    split
    · rw [signExtendValue_eq reads.1.1 reads.1.2 (fieldValue_lt report field)]
    · rfl
  · rw [if_neg reads, if_neg reads]

theorem toInt32_eq_iff {value : Nat} (small : value < 2 ^ 32) :
    toInt32 value = value ↔ value < 2 ^ 31 := by
  rw [toInt32, signed_eq small]
  split
  · rename_i below
    simpa using below
  · rename_i above
    constructor
    · intro same
      omega
    · exact fun below => absurd below above

/-- A report is read exactly unless it holds too large a value for a sign in a field of 32 bits
without a sign. -/
theorem exactAndBounded_iff {report : List UInt8} {field : USBHIDReportField}
    (narrow : field.extent.finish < 2 ^ 32) :
    ExactAndBounded (some report) field ↔
      (Reads report field → 0 ≤ field.logicalMinimum → fieldValue report field < 2 ^ 31) := by
  have unsigned : ExtractUnsignedValue (some report) field = _ := extractUnsignedValue_eq narrow
  have signedValue : ExtractSignedValue (some report) field = _ := extractSignedValue_eq narrow
  by_cases reads : Reads report field
  · rw [if_pos reads] at unsigned signedValue
    have wide : 2 ^ field.bitSize ≤ 2 ^ 32 := Nat.pow_le_pow_right (by decide) reads.1.2
    have small := fieldValue_lt report field
    have exact_iff : signedFieldValue report field = (if field.logicalMinimum < 0 then
        signed field.bitSize (fieldValue report field) else toInt32 (fieldValue report field)) ↔
        (0 ≤ field.logicalMinimum → fieldValue report field < 2 ^ 31) := by
      unfold signedFieldValue
      split
      · rename_i negative
        simp only [true_iff]
        omega
      · rename_i nonneg
        rw [eq_comm, toInt32_eq_iff (by omega)]
        exact ⟨fun below _ => below, fun below => below (by omega)⟩
    constructor
    · intro holds _ nonneg
      rcases holds.signed with refused | ⟨bytes, same, value⟩
      · rw [signedValue] at refused
        cases refused
      · obtain rfl := some.inj same
        rw [signedValue] at value
        exact exact_iff.mp (Extraction.value.inj value).symm nonneg
    · intro below
      refine ⟨.inr ⟨report, rfl, unsigned⟩, .inr ⟨report, rfl, ?_⟩⟩
      rw [signedValue, exact_iff.mpr (below reads)]
  · rw [if_neg reads] at unsigned signedValue
    exact ⟨fun _ isRead => absurd isRead reads, fun _ => ⟨.inl unsigned, .inl signedValue⟩⟩

/-! ## Packed reports -/

/-- A value that the field's bits can stand for. -/
def InRange (field : USBHIDReportField) (value : Int) : Prop :=
  if field.logicalMinimum < 0 then -2 ^ field.bitSize ≤ 2 * value ∧ 2 * value < 2 ^ field.bitSize
  else 0 ≤ value ∧ value < 2 ^ field.bitSize

/-- The bits that stand for a value. -/
def encode (field : USBHIDReportField) (value : Int) : Nat := (value % 2 ^ field.bitSize).toNat

def packedNumber : List (USBHIDReportField × Int) → Nat
  | [] => 0
  | (field, value) :: rest => encode field value * 2 ^ field.bitOffset + packedNumber rest

/-- The report of so many bytes with every value in its place. -/
def packReport (length : Nat) (fields : List USBHIDReportField) (values : List Int) :
    List UInt8 :=
  toBytes length (packedNumber (fields.zip values))

/-- Extraction gives the value back. -/
def Returns (field : USBHIDReportField) (value : Int) : Prop :=
  if field.logicalMinimum < 0 then ExtractSignedValue (some report) field = .value value
  else ExtractUnsignedValue (some report) field = .value value.toNat

variable {fields : List USBHIDReportField} {field : USBHIDReportField} {value : Int}
  {values : List Int} {pairs : List (USBHIDReportField × Int)} {length start number : Nat}

theorem encode_lt (field : USBHIDReportField) (value : Int) :
    encode field value < 2 ^ field.bitSize := by
  have positive : (0 : Int) < 2 ^ field.bitSize := by positivity
  have below := Int.emod_lt_of_pos value positive
  have nonneg := Int.emod_nonneg value positive.ne'
  unfold encode
  zify
  rw [Int.toNat_of_nonneg nonneg]
  exact below

theorem signed_encode (negative : field.logicalMinimum < 0) (inRange : InRange field value) :
    signed field.bitSize (encode field value) = value := by
  have below := encode_lt field value
  unfold InRange at inRange
  rw [if_pos negative] at inRange
  rw [signed_eq below]
  cases size : field.bitSize with
  | zero =>
    unfold encode
    rw [size] at inRange ⊢
    omega
  | succ low =>
    have half : (2 : Int) ^ (low + 1) = 2 * 2 ^ low := pow_succ' 2 low
    have nat : ((2 ^ low : Nat) : Int) = 2 ^ low := by push_cast; rfl
    rw [size, half] at inRange
    rw [Nat.add_sub_cancel]
    unfold encode
    rw [size, half]
    rcases lt_or_ge value 0 with isNegative | nonneg
    · have same : value % (2 * 2 ^ low) = value + 2 * 2 ^ low := by
        rw [← Int.add_emod_right]
        exact Int.emod_eq_of_lt (by omega) (by omega)
      rw [same]
      split
      · omega
      · omega
    · have same : value % (2 * 2 ^ low) = value := Int.emod_eq_of_lt nonneg (by omega)
      rw [same]
      split
      · omega
      · omega

theorem dvd_packedNumber (behind : ∀ pair ∈ pairs, start ≤ pair.1.bitOffset) :
    2 ^ start ∣ packedNumber pairs := by
  induction pairs with
  | nil => exact Nat.dvd_zero _
  | cons pair rest ih =>
    have first := behind pair (mem_cons_self ..)
    refine Nat.dvd_add ?_ (ih fun other isOne => behind other (mem_cons_of_mem _ isOne))
    exact Nat.dvd_mul_left_of_dvd (Nat.pow_dvd_pow 2 first) _

theorem packedNumber_bits
    (apart : pairs.Pairwise fun one other => one.1.extent.finish ≤ other.1.bitOffset)
    (isOne : (field, value) ∈ pairs) :
    packedNumber pairs / 2 ^ field.bitOffset % 2 ^ field.bitSize = encode field value := by
  induction pairs with
  | nil => cases isOne
  | cons pair rest ih =>
    rcases pair with ⟨first, firstValue⟩
    rcases pairwise_cons.mp apart with ⟨behind, others⟩
    have small := encode_lt first firstValue
    have positive := Nat.two_pow_pos first.bitOffset
    rcases dvd_packedNumber behind with ⟨high, above⟩
    change packedNumber rest = 2 ^ (first.bitOffset + first.bitSize) * high at above
    rcases mem_cons.mp isOne with same | isOne
    · cases same
      rw [packedNumber, above, Nat.pow_add, mul_assoc, mul_comm,
        ← Nat.mul_add, Nat.mul_div_cancel_left _ positive, Nat.add_mul_mod_self_left,
        Nat.mod_eq_of_lt small]
    · have further : first.bitOffset + first.bitSize ≤ field.bitOffset := behind _ isOne
      have low : encode first firstValue * 2 ^ first.bitOffset <
          2 ^ (first.bitOffset + first.bitSize) := by
        rw [Nat.pow_add, mul_comm]
        exact Nat.mul_lt_mul_of_pos_left small positive
      rw [← ih others isOne, packedNumber, ← Nat.add_sub_cancel' further, Nat.pow_add,
        ← Nat.div_div_eq_div_mul, ← Nat.div_div_eq_div_mul, above,
        Nat.add_mul_div_left _ _ (Nat.two_pow_pos _), Nat.div_eq_of_lt low, zero_add,
        Nat.mul_div_cancel_left _ (Nat.two_pow_pos _)]

section

variable
  (apart : (fields.zip values).Pairwise fun one other => one.1.extent.finish ≤ other.1.bitOffset)

include apart

theorem fieldValue_packReport
    (isOne : (field, value) ∈ fields.zip values) (inside : field.extent.finish ≤ 8 * length) :
    fieldValue (packReport length fields values) field = encode field value := by
  rw [← packedNumber_bits apart isOne, fieldValue, packReport, littleEndian_toBytes]
  refine Nat.eq_of_testBit_eq fun index => ?_
  simp only [Nat.testBit_mod_two_pow, Nat.testBit_div_two_pow]
  by_cases within : index < field.bitSize
  · have before : index + field.bitOffset < 8 * length := by
      have ends : field.extent.finish = field.bitOffset + field.bitSize := rfl
      omega
    simp [before]
  · simp [within]

theorem returns_packReport_iff
    (isOne : (field, value) ∈ fields.zip values) (inRange : InRange field value)
    (size : 1 ≤ field.bitSize ∧ field.bitSize ≤ 32) (inside : field.extent.finish ≤ 8 * length)
    (narrow : field.extent.finish < 2 ^ 32) :
    Returns (packReport length fields values) field value ↔
      field.extent.finish ≤ 8 * length % 2 ^ 32 := by
  have long : (packReport length fields values).length = length := length_toBytes _ _
  have stored := fieldValue_packReport apart isOne inside
  have reads_iff : Reads (packReport length fields values) field ↔
      field.extent.finish ≤ 8 * length % 2 ^ 32 := by
    rw [Reads, long, mul_comm]
    exact and_iff_right size
  rw [← reads_iff, Returns]
  by_cases negative : field.logicalMinimum < 0
  · rw [if_pos negative, extractSignedValue_eq narrow, stored, if_pos negative,
      signed_encode negative inRange]
    split
    · simp_all
    · simp_all
  · have same : encode field value = value.toNat := by
      rw [InRange, if_neg negative] at inRange
      rw [encode, Int.emod_eq_of_lt inRange.1 inRange.2]
    rw [if_neg negative, extractUnsignedValue_eq narrow, stored, same]
    split
    · simp_all
    · simp_all

end

/-! ## Reports of a parsed descriptor -/

variable {parser : HIDReportDescriptorParser} {descriptor : List UInt8}
  {reportType : USBHIDReportType} {reportID : Nat}

/-- The fields of one report, in the order of the descriptor. -/
def fieldsOf (parser : HIDReportDescriptorParser) (reportType : USBHIDReportType)
    (reportID : Nat) : List USBHIDReportField :=
  parser.fields.filter (USBHIDReportField.belongs reportType reportID)

theorem extents_sublist (pieces : List Piece) :
    ((pieces.filterMap Piece.field?).map USBHIDReportField.extent).Sublist
      (pieces.map Piece.extent) := by
  induction pieces with
  | nil => exact .slnil
  | cons piece rest ih =>
    cases piece with
    | field f => exact ih.cons_cons _
    | padding e => exact ih.cons _

theorem fieldsOf_apart (accepted : Parse (some descriptor) = some parser)
    (reportType : USBHIDReportType) (reportID : Nat) :
    (fieldsOf parser reportType reportID).Pairwise
        (fun one other => one.extent.finish ≤ other.bitOffset) ∧
      (∀ f ∈ fieldsOf parser reportType reportID,
        f.extent.finish ≤ parser.GetReportBitSize reportType reportID) ∧
      parser.GetReportBitSize reportType reportID < 2 ^ 32 := by
  rcases laidOut_of_parse accepted reportType reportID with ⟨groups, laid⟩
  have sublist := extents_sublist groups.flatten
  rw [laid.fields_eq] at sublist
  refine ⟨?_, ?_, laid.fits⟩
  · exact pairwise_map.mp (laid.tiles.pairwise.sublist sublist)
  · intro f isOne
    have place : f.extent ∈ (fieldsOf parser reportType reportID).map USBHIDReportField.extent :=
      mem_map_of_mem isOne
    exact (laid.tiles.within _ (sublist.subset place)).2

theorem pairwise_zip {R : USBHIDReportField → USBHIDReportField → Prop}
    (related : fields.Pairwise R) (values : List Int) :
    (fields.zip values).Pairwise fun one other => R one.1 other.1 := by
  induction fields generalizing values with
  | nil => exact .nil
  | cons first rest ih =>
    cases values with
    | nil => exact .nil
    | cons value values =>
      rcases pairwise_cons.mp related with ⟨behind, others⟩
      rw [zip_cons_cons]
      refine .cons (fun pair isOne => ?_) (ih others values)
      exact behind _ (of_mem_zip isOne).1

theorem inRange_zero (field : USBHIDReportField) : InRange field 0 := by
  unfold InRange
  split
  · simp
  · simp

/-- Every value packed into a report of so many bytes comes back. -/
def PackedReturns (fields : List USBHIDReportField) (length : Nat) : Prop :=
  ∀ values : List Int, List.Forall₂ InRange fields values → ∀ pair ∈ fields.zip values,
    1 ≤ pair.1.bitSize → pair.1.bitSize ≤ 32 →
    Returns (packReport length fields values) pair.1 pair.2

theorem packedReturns_iff (accepted : Parse (some descriptor) = some parser)
    (whole : parser.GetReportBitSize reportType reportID ≤ 8 * length) :
    PackedReturns (fieldsOf parser reportType reportID) length ↔
      ∀ field ∈ fieldsOf parser reportType reportID, 1 ≤ field.bitSize → field.bitSize ≤ 32 →
        field.extent.finish ≤ 8 * length % 2 ^ 32 := by
  rcases fieldsOf_apart accepted reportType reportID with
    ⟨apart, within, fits⟩
  constructor
  · intro returns field isOne positive narrow
    have zeros : List.Forall₂ InRange (fieldsOf parser reportType reportID)
        ((fieldsOf parser reportType reportID).map fun _ => 0) := by
      rw [forall₂_map_right_iff]
      exact forall₂_same.mpr fun field _ => inRange_zero field
    have place : (field, (0 : Int)) ∈ (fieldsOf parser reportType reportID).zip
        ((fieldsOf parser reportType reportID).map fun _ => 0) := by
      rw [← List.map_id (fieldsOf parser reportType reportID), List.map_map, List.zip_map']
      exact List.mem_map.mpr ⟨field, isOne, rfl⟩
    have inside := within field isOne
    exact (returns_packReport_iff (pairwise_zip apart _) place (inRange_zero field)
      ⟨positive, narrow⟩ (by omega) (by omega)).mp (returns _ zeros _ place positive narrow)
  · intro reaches values inRange pair isOne positive narrow
    rcases pair with ⟨field, value⟩
    have ofField := (of_mem_zip isOne).1
    have inside := within field ofField
    exact (returns_packReport_iff (pairwise_zip apart _) isOne
      ((forall₂_iff_zip.mp inRange).2 isOne) ⟨positive, narrow⟩ (by omega) (by omega)).mpr
      (reaches field ofField positive narrow)

/-- A report of any length is read exactly and within its bytes but for a value of 2 ^ 31 or more in
a field of 32 bits without a sign, which turns negative. Packed values come back from a report
that is long enough exactly when its size in bits, counted in 32 bits, still reaches behind every
field. -/
theorem extraction_iff (accepted : Parse (some descriptor) = some parser)
    (reportType : USBHIDReportType) (reportID length : Nat) :
    (∀ field ∈ fieldsOf parser reportType reportID, ExactAndBounded none field) ∧
    (∀ report : List UInt8, report.length = length →
      ∀ field ∈ fieldsOf parser reportType reportID, (ExactAndBounded (some report) field ↔
          (Reads report field → 0 ≤ field.logicalMinimum → fieldValue report field < 2 ^ 31))) ∧
    (parser.GetReportBitSize reportType reportID ≤ 8 * length →
      (PackedReturns (fieldsOf parser reportType reportID) length ↔
        ∀ field ∈ fieldsOf parser reportType reportID, 1 ≤ field.bitSize → field.bitSize ≤ 32 →
          field.extent.finish ≤ 8 * length % 2 ^ 32)) := by
  rcases fieldsOf_apart accepted reportType reportID with
    ⟨_, within, fits⟩
  refine ⟨fun _ _ => ⟨.inl rfl, .inl rfl⟩, ?_, packedReturns_iff accepted⟩
  intro report _ field isOne
  have inside := within field isOne
  exact exactAndBounded_iff (by omega)

theorem extraction_iff_sample : PackedReturns (fieldsOf sampleParser .Input 2) 3 :=
  ((extraction_iff sample_accepted .Input 2 3).2.2 (by decide +kernel)).mpr (by decide +kernel)

/-- A byte of data, and then constant bits up to a report of 2 ^ 32 - 1 bits. -/
def longDescriptor : List UInt8 :=
  [0x75, 8, 0x95, 1, 0x81, 2, 0x77, 0xf7, 0xff, 0xff, 0xff, 0x81, 1]

def longParser : HIDReportDescriptorParser := (Parse (some longDescriptor)).getD {}

theorem long_accepted : Parse (some longDescriptor) = some longParser := by decide +kernel

/-- A word of data without a sign. -/
def wideParser : HIDReportDescriptorParser := (Parse (some [0x75, 32, 0x95, 1, 0x81, 2])).getD {}

/-- The value 2 ^ 31 of the word comes out negative, and the bits of 2 ^ 29 bytes count as none. -/
theorem report_values_not_returned :
    (Parse (some [0x75, 32, 0x95, 1, 0x81, 2]) = some wideParser ∧
      (fieldsOf wideParser .Input 0).length = 1 ∧
      ∀ field ∈ fieldsOf wideParser .Input 0, ¬ExactAndBounded (some [0, 0, 0, 0x80]) field) ∧
    Parse (some longDescriptor) = some longParser ∧
    8 * (2 ^ 29 - 1) < longParser.GetReportBitSize .Input 0 ∧
    longParser.GetReportBitSize .Input 0 ≤ 8 * 2 ^ 29 ∧
    ¬PackedReturns (fieldsOf longParser .Input 0) (2 ^ 29) := by
  refine ⟨⟨by decide +kernel, by decide +kernel, fun field member exact_ => ?_⟩, long_accepted,
    by decide +kernel, by decide +kernel, ?_⟩
  · have wide : ∀ field ∈ fieldsOf wideParser .Input 0, field.extent.finish < 2 ^ 32 ∧
        Reads [0, 0, 0, 0x80] field ∧ 0 ≤ field.logicalMinimum ∧
          2 ^ 31 ≤ fieldValue [0, 0, 0, 0x80] field := by decide +kernel
    obtain ⟨narrow, reads, unsigned, large⟩ := wide field member
    have small := (exactAndBounded_iff narrow).1 exact_ reads unsigned
    omega
  · rw [packedReturns_iff long_accepted (by decide +kernel)]
    decide +kernel

end PadOS.Usb
