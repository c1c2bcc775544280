import PadOS.Core.Unicode
import Mathlib.Data.List.DropRight
import Mathlib.Tactic.IntervalCases

/-! # `PString::parse_byte_size`

A text is a number and a suffix. Without a decimal point the number is scaled in 64 bits, where
the power of the base is computed first; what is done with a decimal point, in floating point, is
a parameter here.
-/

namespace PadOS.Utils

open List Option
open Unicode (PString)

def ascii (c : Char) : UInt8 := .ofNat c.toNat

def isSpace (c : UInt8) : Bool := c == ascii ' ' || (0x09 ≤ c && c ≤ 0x0d)

def isDigit (c : UInt8) : Bool := ascii '0' ≤ c && c ≤ ascii '9'

def toUpper (c : UInt8) : UInt8 := if ascii 'a' ≤ c && c ≤ ascii 'z' then c - 0x20 else c

def lstrip (text : PString) : PString := text.dropWhile isSpace

def rstrip (text : PString) : PString := text.rdropWhile isSpace

def strip (text : PString) : PString := lstrip (rstrip text)

inductive PUnitSystem
  | auto
  | si
  | iec
  deriving DecidableEq

def prefixToExp (prefixUpper : UInt8) : Option Nat :=
  if prefixUpper = ascii 'K' then some 1
  else if prefixUpper = ascii 'M' then some 2
  else if prefixUpper = ascii 'G' then some 3
  else if prefixUpper = ascii 'T' then some 4
  else if prefixUpper = ascii 'P' then some 5
  else if prefixUpper = ascii 'E' then some 6
  else if prefixUpper = ascii 'Z' then some 7
  else if prefixUpper = ascii 'Y' then some 8
  else none

def parseSuffix : PString → Option (Nat × PUnitSystem)
  | [] => some (0, .iec)
  | letter :: remaining =>
    match prefixToExp letter with
    | none => none
    | some exp =>
      if remaining = [] then some (exp, .iec)
      else if remaining = [ascii 'B'] then some (exp, .si)
      else if remaining = [ascii 'I', ascii 'B'] then some (exp, .iec)
      else none

def isNumeric (c : UInt8) : Bool :=
  isDigit c || c == ascii '.' || c == ascii '+' || c == ascii '-' || c == ascii ' ' ||
    c == ascii '\t'

def findSuffixStart : PString → Nat
  | [] => 0
  | c :: rest => if isNumeric c then findSuffixStart rest + 1 else 0

/-! ## 64 bits -/

def int64Max : Int := 2 ^ 63 - 1

def int64Min : Int := -2 ^ 63

def powU64 (base : Nat) : Nat → Nat
  | 0 => 1
  | exp + 1 => powU64 base exp * base % 2 ^ 64

def checkedMulU64 (inOut factor limit : Nat) : Option Nat :=
  if factor = 0 then some 0 else if inOut > limit / factor then none
    else some (inOut * factor % 2 ^ 64)

def signedToUnsignedAbs (value : Int) : Nat :=
  if value < 0 then (-(value + 1)).toNat + 1 else value.toNat

def decimalValue (digits : PString) : Nat :=
  digits.foldl (fun value c => 10 * value + (c.toNat - (ascii '0').toNat)) 0

/-- `std::from_chars` for an `int64_t`: the number and what stands behind it. There is none without
a digit, and none out of range. -/
def fromChars (text : PString) : Option (Int × PString) :=
  let negative := text.head? == some (ascii '-')
  let number := if negative then text.tail else text
  let digits := number.takeWhile isDigit
  let value : Int := if negative then -decimalValue digits else decimalValue digits
  if digits = [] then none
  else if int64Min ≤ value ∧ value ≤ int64Max then some (value, number.dropWhile isDigit)
  else none

/-- The number scaled by a factor; none when the product is checked to be out of range. -/
def scale (mantissa : Int) (base exponent : Nat) : Option Int :=
  let limitMag := if mantissa < 0 then int64Max.toNat + 1 else int64Max.toNat
  let mag :=
    if exponent ≠ 0 then
      checkedMulU64 (signedToUnsignedAbs mantissa) (powU64 base exponent) limitMag
    else some (signedToUnsignedAbs mantissa)
  mag.map fun mag =>
    if mantissa < 0 then if mag = int64Max.toNat + 1 then int64Min else -(mag : Int)
      else (mag : Int)

def parseByteSize (decimalPoint : PString → Nat → Nat → Option Int) (text : PString)
    (unitSystem : PUnitSystem) :
    Option Int :=
  let strippedText := strip text
  let suffixStart := findSuffixStart strippedText
  let numPart := rstrip (strippedText.take suffixStart)
  let sufPart := (strippedText.drop suffixStart).map toUpper
  if strippedText = [] then none
  else if numPart = [] then none
  else
    match parseSuffix sufPart with
    | none => none
    | some (exponent, valueUnitSystem) =>
      let unitSystem := if unitSystem = .auto then valueUnitSystem else unitSystem
      let base := if exponent = 0 then 1 else if unitSystem = .si then 1000 else 1024
      if ascii '.' ∈ numPart then decimalPoint numPart base exponent
      else
        match fromChars numPart with
        | some (mantissa, []) => scale mantissa base exponent
        | _ => none

/-! ## Texts with an integer and a valid suffix -/

/-- Nothing, `K`, `KB` or `KiB`, and so on with the other letters. -/
inductive ByteUnit
  | bytes
  | short (letter : Fin 8)
  | decimal (letter : Fin 8)
  | binary (letter : Fin 8)

namespace ByteUnit

def letterOf (letter : Fin 8) : UInt8 := ascii (['K', 'M', 'G', 'T', 'P', 'E', 'Z', 'Y'].get letter)

def spelling : ByteUnit → PString
  | bytes => []
  | short letter => [letterOf letter]
  | decimal letter => [letterOf letter, ascii 'B']
  | binary letter => [letterOf letter, ascii 'I', ascii 'B']

def exponent : ByteUnit → Nat
  | bytes => 0
  | short letter | decimal letter | binary letter => letter + 1

def system : ByteUnit → PUnitSystem
  | decimal _ => .si
  | _ => .iec

def base (unit : ByteUnit) (unitSystem : PUnitSystem) : Nat :=
  match unitSystem with
  | .auto => if unit.system = .si then 1000 else 1024
  | .si => 1000
  | .iec => 1024

theorem parseSuffix_spelling (unit : ByteUnit) :
    parseSuffix unit.spelling = some (unit.exponent, unit.system) := by
  cases unit with
  | bytes => rfl
  | short letter | decimal letter | binary letter => revert letter; decide

theorem exponent_le (unit : ByteUnit) : unit.exponent ≤ 8 := by
  cases unit with
  | bytes => exact zero_le
  | short letter | decimal letter | binary letter => exact letter.isLt

theorem base_eq (unit : ByteUnit) (unitSystem : PUnitSystem) :
    unit.base unitSystem = 1000 ∨ unit.base unitSystem = 1024 := by
  unfold base
  cases unitSystem with
  | auto =>
    dsimp only
    split
    · exact .inl rfl
    · exact .inr rfl
  | si => exact .inl rfl
  | iec => exact .inr rfl

end ByteUnit

/-- A text with an integer and a valid suffix in letters of either case, with white space around
the text and blanks between the two parts. -/
structure SizeText where
  lead : PString
  negative : Bool
  digits : PString
  gap : PString
  unit : ByteUnit
  suffix : PString
  trail : PString
  lead_isSpace : ∀ c ∈ lead, isSpace c
  digits_isDigit : ∀ c ∈ digits, isDigit c
  digits_ne : digits ≠ []
  gap_isBlank : ∀ c ∈ gap, c = ascii ' ' ∨ c = ascii '\t'
  spelled : suffix.map toUpper = unit.spelling
  trail_isSpace : ∀ c ∈ trail, isSpace c

namespace SizeText

def number (t : SizeText) : PString := (if t.negative then [ascii '-'] else []) ++ t.digits

def text (t : SizeText) : PString := t.lead ++ (t.number ++ (t.gap ++ t.suffix)) ++ t.trail

def value (t : SizeText) : Int :=
  if t.negative then -(decimalValue t.digits : Int) else decimalValue t.digits

end SizeText

/-- A number of bytes, where it is an `int64_t`. -/
def exactSize (value : Int) : Option Int :=
  if int64Min ≤ value ∧ value ≤ int64Max then some value else none

/-! ## The parts of the text -/

theorem numeric_of_isDigit {c : UInt8} (digit : isDigit c) : isNumeric c := by
  simp [isNumeric, digit]

theorem digit_props {c : UInt8} (digit : isDigit c) :
    isSpace c = false ∧ c ≠ ascii '.' ∧ c ≠ ascii '-' := by
  revert digit
  have table : ∀ n < 256, isDigit (.ofNat n) →
      isSpace (.ofNat n) = false ∧ (UInt8.ofNat n) ≠ ascii '.' ∧ (UInt8.ofNat n) ≠ ascii '-' := by
        decide +kernel
  have here := table c.toNat c.toNat_lt
  rw [UInt8.ofNat_toNat] at here
  exact here

theorem suffix_head {unit : ByteUnit} {c : UInt8} {rest : PString}
    (spelled : (c :: rest).map toUpper = unit.spelling) :
    isNumeric c = false := by
  have table : ∀ n < 256, isNumeric (.ofNat n) →
      ∀ letter : Fin 8, toUpper (.ofNat n) ≠ ByteUnit.letterOf letter := by decide +kernel
  have head : ∃ letter, toUpper c = ByteUnit.letterOf letter := by
    cases unit with
    | bytes => cases spelled
    | short letter | decimal letter | binary letter => exact ⟨letter, (cons.inj spelled).1⟩
  obtain ⟨letter, upper⟩ := head
  have here := table c.toNat c.toNat_lt
  rw [UInt8.ofNat_toNat] at here
  exact Bool.eq_false_iff.2 fun numeric => here numeric letter upper

theorem suffix_last {unit : ByteUnit} {c : UInt8} {rest : PString}
    (spelled : (rest ++ [c]).map toUpper = unit.spelling) :
    isSpace c = false := by
  have table : ∀ n < 256, isSpace (.ofNat n) → ∀ letter : Fin 8,
      ¬(toUpper (.ofNat n) = ByteUnit.letterOf letter ∨ toUpper (.ofNat n) = ascii 'B') := by
    decide +kernel
  have last : ∃ letter, toUpper c = ByteUnit.letterOf letter ∨ toUpper c = ascii 'B' := by
    have spelled := congrArg List.getLast? spelled
    rw [map_append, map_singleton, getLast?_concat] at spelled
    cases unit with
    | bytes => cases spelled
    | short letter => exact ⟨letter, .inl (some.inj spelled)⟩
    | decimal letter | binary letter => exact ⟨letter, .inr (some.inj spelled)⟩
  obtain ⟨letter, upper⟩ := last
  have here := table c.toNat c.toNat_lt
  rw [UInt8.ofNat_toNat] at here
  exact Bool.eq_false_iff.2 fun space => here space letter upper

theorem findSuffixStart_eq (text : PString) :
    text.take (findSuffixStart text) = text.takeWhile isNumeric ∧
    text.drop (findSuffixStart text) = text.dropWhile isNumeric := by
  induction text with
  | nil => exact ⟨rfl, rfl⟩
  | cons c rest ih =>
    unfold findSuffixStart
    split
    · rename_i numeric
      rw [take_succ_cons, drop_succ_cons, ih.1, ih.2, takeWhile_cons_of_pos numeric,
        dropWhile_cons_of_pos numeric]
      exact ⟨rfl, rfl⟩
    · rename_i other
      rw [takeWhile_cons_of_neg other, dropWhile_cons_of_neg other]
      exact ⟨rfl, rfl⟩

theorem rstrip_append {text trail : PString} (space : ∀ c ∈ trail, isSpace c) :
    rstrip (text ++ trail) = rstrip text := by
  induction trail using List.reverseRecOn with
  | nil => rw [append_nil]
  | append_singleton rest c ih =>
    have last : isSpace c := space c (mem_append_right _ mem_cons_self)
    rw [rstrip, ← append_assoc, rdropWhile_concat_pos _ _ _ last]
    exact ih fun c member => space c (mem_append_left _ member)

theorem rstrip_concat {text : PString} {c : UInt8} (visible : isSpace c = false) :
    rstrip (text ++ [c]) = text ++ [c] :=
  rdropWhile_concat_neg _ _ _ (by rw [visible]; exact Bool.false_ne_true)

theorem lstrip_append {lead text : PString} (space : ∀ c ∈ lead, isSpace c) :
    lstrip (lead ++ text) = lstrip text :=
  dropWhile_append_of_pos space

namespace SizeText

variable {t : SizeText}

section

variable (t : SizeText)

theorem number_concat : ∃ rest c, t.number = rest ++ [c] ∧ isDigit c := by
  obtain ⟨rest, c, split⟩ : ∃ rest c, t.digits = rest ++ [c] := by
    induction digits : t.digits using List.reverseRecOn with
    | nil => exact absurd digits t.digits_ne
    | append_singleton rest c _ => exact ⟨rest, c, rfl⟩
  have digit := t.digits_isDigit c (by rw [split]; exact mem_append_right _ mem_cons_self)
  refine ⟨(if t.negative then [ascii '-'] else []) ++ rest, c, ?_, digit⟩
  rw [number, split, ← append_assoc]

theorem number_numeric : ∀ c ∈ t.number ++ t.gap, isNumeric c := by
  intro c member
  rcases mem_append.1 member with member | member
  · rcases mem_append.1 member with member | member
    · split at member
      · rw [mem_singleton.1 member]
        decide
      · cases member
    · exact numeric_of_isDigit (t.digits_isDigit c member)
  · rcases t.gap_isBlank c member with rfl | rfl
    · decide
    · decide

theorem gap_isSpace : ∀ c ∈ t.gap, isSpace c := by
  intro c member
  rcases t.gap_isBlank c member with rfl | rfl
  · decide
  · decide

theorem number_head : ∃ c rest, t.number = c :: rest ∧ isSpace c = false := by
  unfold number
  cases t.negative with
  | true => exact ⟨ascii '-', t.digits, rfl, by decide⟩
  | false =>
    cases digits : t.digits with
    | nil => exact absurd digits t.digits_ne
    | cons c rest =>
      exact ⟨c, rest, rfl,
        (digit_props (t.digits_isDigit c (by rw [digits]; exact mem_cons_self))).1⟩

/-- The stripped text keeps the blanks before a suffix. -/
theorem strip_text :
    strip t.text = if t.suffix = [] then t.number else t.number ++ (t.gap ++ t.suffix) := by
  have trimmed : rstrip t.text =
      t.lead ++ if t.suffix = [] then t.number else t.number ++ (t.gap ++ t.suffix) := by
    rw [text, rstrip_append t.trail_isSpace]
    split
    · rename_i none'
      obtain ⟨rest, c, split, digit⟩ := t.number_concat
      rw [none', append_nil, ← append_assoc, rstrip_append t.gap_isSpace, split, ← append_assoc]
      exact rstrip_concat (digit_props digit).1
    · rename_i some'
      obtain ⟨rest, c, split⟩ : ∃ rest c, t.suffix = rest ++ [c] := by
        induction suffix : t.suffix using List.reverseRecOn with
        | nil => exact absurd suffix some'
        | append_singleton rest c _ => exact ⟨rest, c, rfl⟩
      have visible := suffix_last (split ▸ t.spelled)
      rw [split]
      simp only [← append_assoc]
      exact rstrip_concat visible
  obtain ⟨c, rest, head, visible⟩ := t.number_head
  rw [strip, trimmed, lstrip_append t.lead_isSpace, head]
  split
  · exact dropWhile_cons_of_neg (by rw [visible]; exact Bool.false_ne_true)
  · exact dropWhile_cons_of_neg (by rw [visible]; exact Bool.false_ne_true)

theorem numPart_eq :
    rstrip ((strip t.text).take (findSuffixStart (strip t.text))) = t.number ∧
    (strip t.text).drop (findSuffixStart (strip t.text)) = t.suffix := by
  obtain ⟨rest, c, split, digit⟩ := t.number_concat
  have visible := (digit_props digit).1
  rw [(findSuffixStart_eq _).1, (findSuffixStart_eq _).2]
  rw [strip_text]
  cases suffix : t.suffix with
  | nil =>
    have numeric : ∀ c ∈ t.number, isNumeric c := fun c member =>
      t.number_numeric c (mem_append_left _ member)
    rw [if_pos rfl, takeWhile_eq_self_iff.2 numeric, dropWhile_eq_nil_iff.2 numeric, split]
    exact ⟨rstrip_concat visible, rfl⟩
  | cons first others =>
    have stop := suffix_head (suffix ▸ t.spelled)
    rw [if_neg (cons_ne_nil _ _), ← append_assoc, takeWhile_append_of_pos t.number_numeric,
      dropWhile_append_of_pos t.number_numeric,
      takeWhile_cons_of_neg (by rw [stop]; exact Bool.false_ne_true),
      dropWhile_cons_of_neg (by rw [stop]; exact Bool.false_ne_true), append_nil,
      rstrip_append t.gap_isSpace, split]
    exact ⟨rstrip_concat visible, rfl⟩

theorem fromChars_number :
    fromChars t.number = (exactSize t.value).map fun value => (value, []) := by
  have whole : t.digits.takeWhile isDigit = t.digits :=
    takeWhile_eq_self_iff.2 t.digits_isDigit
  have nothing : t.digits.dropWhile isDigit = [] := dropWhile_eq_nil_iff.2 t.digits_isDigit
  unfold fromChars number value exactSize
  cases sign : t.negative with
  | true =>
    simp only [if_true, cons_append, nil_append, head?_cons, beq_self_eq_true, tail_cons,
      whole, nothing, if_neg t.digits_ne]
    split <;> rfl
  | false =>
    obtain ⟨c, rest, digits⟩ := exists_cons_of_ne_nil t.digits_ne
    have plain : (t.digits.head? == some (ascii '-')) = false := by
      have digit := t.digits_isDigit c (by rw [digits]; exact mem_cons_self)
      rw [digits, head?_cons, beq_eq_false_iff_ne]
      exact fun same => (digit_props digit).2.2 (some.inj same)
    simp only [Bool.false_eq_true, if_false, nil_append, plain, whole, nothing, if_neg t.digits_ne]
    split <;> rfl

end

theorem parseByteSize_text (decimalPoint : PString → Nat → Nat → Option Int) (t : SizeText)
    (unitSystem : PUnitSystem) : parseByteSize decimalPoint t.text unitSystem =
      (exactSize t.value).bind fun value =>
        scale value (t.unit.base unitSystem) t.unit.exponent := by
  obtain ⟨number, suffix⟩ := t.numPart_eq
  obtain ⟨c, rest, head, -⟩ := t.number_head
  have some' : strip t.text ≠ [] := by
    intro none'
    rw [none'] at number
    rw [← number] at head
    cases head
  have integer : ascii '.' ∉ t.number := by
    intro member
    rcases mem_append.1 member with member | member
    · split at member
      · exact absurd (mem_singleton.1 member) (by decide)
      · cases member
    · exact (digit_props (t.digits_isDigit _ member)).2.1 rfl
  have scaled (value : Int) : scale value (if t.unit.exponent = 0 then 1
      else if (if unitSystem = .auto then t.unit.system else unitSystem) = .si then 1000 else 1024)
        t.unit.exponent =
        scale value (t.unit.base unitSystem) t.unit.exponent := by
    by_cases zero : t.unit.exponent = 0
    · simp [scale, zero]
    · rw [if_neg zero]
      congr 1
      cases unitSystem with
      | auto => rfl
      | si => rfl
      | iec => rfl
  unfold parseByteSize
  dsimp only
  rw [if_neg some', number, suffix, t.spelled, t.unit.parseSuffix_spelling, head,
    if_neg (cons_ne_nil _ _), ← head]
  dsimp only
  rw [if_neg integer, fromChars_number]
  cases exactSize t.value with
  | none => rfl
  | some value => exact scaled value

end SizeText

/-! ## Scaling -/

theorem powU64_eq (base exp : Nat) : powU64 base exp = base ^ exp % 2 ^ 64 := by
  induction exp with
  | zero => rfl
  | succ exp ih => rw [powU64, ih, Nat.mod_mul_mod, Nat.pow_succ base exp]

variable {value : Int}

/-- With a factor that is not zero the product is exact where it is in range. -/
theorem checkedMul_eq {factor : Nat} (positive : 0 < factor) :
    ((checkedMulU64 (signedToUnsignedAbs value) factor
      (if value < 0 then int64Max.toNat + 1 else int64Max.toNat)).map
      fun mag =>
        if value < 0 then if mag = int64Max.toNat + 1 then int64Min else -(mag : Int)
          else (mag : Int)) =
        exactSize (value * factor) := by
  have limit : int64Max.toNat = 9223372036854775807 := rfl
  have top : int64Max = 9223372036854775807 := rfl
  have bottom : int64Min = -9223372036854775808 := rfl
  have size : signedToUnsignedAbs value = value.natAbs := by
    unfold signedToUnsignedAbs
    split <;> omega
  have product : ((value.natAbs * factor : Nat) : Int) =
      if value < 0 then -(value * factor) else value * factor := by
    push_cast
    split
    · rename_i negative
      rw [abs_of_neg negative, neg_mul]
    · rename_i positive'
      rw [abs_of_nonneg (not_lt.1 positive')]
  unfold checkedMulU64 exactSize
  rw [if_neg (by omega), size, limit, top, bottom]
  generalize whole : value.natAbs * factor = mag at product ⊢
  by_cases negative : value < 0
  · simp only [if_pos negative] at product ⊢
    have fits : value.natAbs > (9223372036854775807 + 1) / factor ↔ 9223372036854775808 < mag := by
      rw [← whole, gt_iff_lt, Nat.div_lt_iff_lt_mul positive]
    by_cases large : 9223372036854775808 < mag
    · rw [if_pos (fits.2 large), if_neg (by omega)]
      rfl
    · rw [if_neg fun more => large (fits.1 more), if_pos (by omega), Nat.mod_eq_of_lt (by omega)]
      simp only [map_some, some.injEq]
      split <;> omega
  · simp only [if_neg negative] at product ⊢
    have fits : value.natAbs > 9223372036854775807 / factor ↔ 9223372036854775807 < mag := by
      rw [← whole, gt_iff_lt, Nat.div_lt_iff_lt_mul positive]
    by_cases large : 9223372036854775807 < mag
    · rw [if_pos (fits.2 large), if_neg (by omega)]
      rfl
    · rw [if_neg fun more => large (fits.1 more), if_pos (by omega), Nat.mod_eq_of_lt (by omega)]
      simp only [map_some, some.injEq]
      omega

variable {base exponent : Nat}

theorem scale_factor (inside : exponent ≠ 0)
    (positive : 0 < base ^ exponent % 2 ^ 64) :
    scale value base exponent = exactSize (value * (base ^ exponent % 2 ^ 64 : Nat)) := by
  unfold scale
  dsimp only
  rw [if_pos inside, powU64_eq]
  exact checkedMul_eq positive

theorem scale_zero {base : Nat} (fits : int64Min ≤ value ∧ value ≤ int64Max) :
    scale value base 0 = some value := by
  have limit : int64Max.toNat = 9223372036854775807 := rfl
  have top : int64Max = 9223372036854775807 := rfl
  have bottom : int64Min = -9223372036854775808 := rfl
  rw [top, bottom] at fits
  unfold scale signedToUnsignedAbs
  simp only [ne_eq, not_true_eq_false, if_false, map_some, some.injEq]
  rw [limit, bottom]
  by_cases negative : value < 0
  · simp only [if_pos negative]
    split <;> omega
  · simp only [if_neg negative]
    omega

/-- The power of the base fits up to the sixth. -/
theorem scale_exact (isBase : base = 1000 ∨ base = 1024)
    (small : exponent ≤ 6) (fits : int64Min ≤ value ∧ value ≤ int64Max) :
    scale value base exponent = exactSize (value * base ^ exponent) := by
  by_cases zero : exponent = 0
  · rw [zero, scale_zero fits, pow_zero, mul_one, exactSize, if_pos fits]
  · have power : base ^ exponent < 2 ^ 64 ∧ 0 < base ^ exponent := by
      have step : base ^ exponent ≤ 1024 ^ 6 :=
        (Nat.pow_le_pow_left (by omega) _).trans (Nat.pow_le_pow_right (by decide) small)
      exact ⟨lt_of_le_of_lt step (by decide), Nat.pow_pos (by omega)⟩
    have same : base ^ exponent % 2 ^ 64 = base ^ exponent := Nat.mod_eq_of_lt power.1
    rw [scale_factor zero (by rw [same]; exact power.2), same, Int.natCast_pow]

/-- Where the factor has wrapped around, to `factor`, the product must be out of range. -/
theorem scale_wrapped (factor : Nat)
    (power : 2 ^ 64 ≤ base ^ exponent)
    (wrapped : base ^ exponent % 2 ^ 64 = factor) (some' : value ≠ 0) :
    scale value base exponent = exactSize (value * base ^ exponent) ↔
      ¬(int64Min ≤ value * factor ∧ value * factor ≤ int64Max) := by
  have large : exactSize (value * base ^ exponent) = none := by
    apply if_neg
    have top : int64Max = 9223372036854775807 := rfl
    have bottom : int64Min = -9223372036854775808 := rfl
    have power : (18446744073709551616 : Int) ≤ (base : Int) ^ exponent := by exact_mod_cast power
    rw [top, bottom]
    rcases lt_or_gt_of_ne some' with negative | positive
    · have := mul_le_mul_of_nonpos_left power negative.le
      omega
    · have := mul_le_mul_of_nonneg_left power positive.le
      omega
  have inside : exponent ≠ 0 := by
    intro zero
    rw [zero, Nat.pow_zero] at power
    exact absurd power (by decide)
  rw [large]
  by_cases zero : factor = 0
  · have nothing : scale value base exponent = some 0 := by
      unfold scale checkedMulU64
      dsimp only
      rw [if_pos inside, powU64_eq, wrapped, if_pos zero, map_some]
      simp [int64Max]
    rw [nothing, zero]
    simp [int64Min, int64Max]
  · rw [scale_factor inside (by omega), wrapped]
    unfold exactSize
    split
    · rename_i within
      simp only [reduceCtorEq, false_iff, not_not]
      exact within
    · rename_i outside
      simp only [true_iff]
      exact outside

/-- Where the scaled size comes out right: the power of the base is representable, or the number is
zero or too large in any case. -/
def ScalesRight (value : Int) (base exponent : Nat) : Prop :=
  exponent ≤ 6 ∨ value = 0 ∨ value < int64Min ∨ int64Max < value ∨
    base = 1000 ∧ (exponent = 7 ∧ 3 ≤ |value| ∨ exponent = 8 ∧ 5 ≤ |value|)

theorem scale_iff (isBase : base = 1000 ∨ base = 1024)
    (small : exponent ≤ 8) (fits : int64Min ≤ value ∧ value ≤ int64Max) :
    scale value base exponent = exactSize (value * base ^ exponent) ↔
      ScalesRight value base exponent := by
  unfold ScalesRight
  by_cases low : exponent ≤ 6
  · simp only [scale_exact isBase low fits, low, true_or]
  by_cases zero : value = 0
  · have nothing : scale 0 base exponent = some 0 := by
      unfold scale checkedMulU64 signedToUnsignedAbs
      simp
    rw [zero, nothing]
    simp [exactSize, int64Min, int64Max]
  have top : int64Max = 9223372036854775807 := rfl
  have bottom : int64Min = -9223372036854775808 := rfl
  have absolute : |value| = value ∨ |value| = -value := abs_choice value
  have positive : 0 ≤ |value| := abs_nonneg value
  have exponents : exponent = 7 ∨ exponent = 8 := by omega
  rcases isBase with rfl | rfl
  · rcases exponents with rfl | rfl
    · rw [scale_wrapped 3875820019684212736 (by decide) (by decide) zero, top, bottom]
      omega
    · rw [scale_wrapped 2003764205206896640 (by decide) (by decide) zero, top, bottom]
      omega
  · rcases exponents with rfl | rfl
    · rw [scale_wrapped 0 (by decide) (by decide) zero, top, bottom]
      omega
    · rw [scale_wrapped 0 (by decide) (by decide) zero, top, bottom]
      omega

theorem exactSize_mul_of_outside
    (isBase : base = 1000 ∨ base = 1024) (outside : ¬(int64Min ≤ value ∧ value ≤ int64Max)) :
    exactSize (value * base ^ exponent) = none := by
  apply if_neg
  have top : int64Max = 9223372036854775807 := rfl
  have bottom : int64Min = -9223372036854775808 := rfl
  have power : (1 : Int) ≤ (base : Int) ^ exponent := by
    have := Nat.pow_pos (n := exponent) (show 0 < base by omega)
    exact_mod_cast this
  rw [top, bottom] at outside ⊢
  by_cases negative : value < 0
  · have := mul_le_mul_of_nonpos_left power negative.le
    omega
  · have := mul_le_mul_of_nonneg_left power (not_lt.1 negative)
    omega

/-- A size is exact where the power of the base does not wrap around, or where that does not
matter. -/
theorem byteSize_exact_iff (decimalPoint : PString → Nat → Nat → Option Int) (t : SizeText)
    (unitSystem : PUnitSystem) :
    parseByteSize decimalPoint t.text unitSystem =
        exactSize (t.value * (t.unit.base unitSystem) ^ t.unit.exponent) ↔
      ScalesRight t.value (t.unit.base unitSystem) t.unit.exponent := by
  have isBase := t.unit.base_eq unitSystem
  rw [t.parseByteSize_text]
  by_cases fits : int64Min ≤ t.value ∧ t.value ≤ int64Max
  · rw [exactSize, if_pos fits, bind_some]
    exact scale_iff isBase t.unit.exponent_le fits
  · rw [exactSize_mul_of_outside isBase fits, exactSize, if_neg fits, bind_none]
    unfold ScalesRight
    simp only [true_iff]
    omega

/-- `1` and the letter of a unit. -/
def oneOf (letter : Fin 8) (c : UInt8) (spelled : [toUpper c] = (ByteUnit.short letter).spelling) :
    SizeText :=
  { lead := [], negative := false, digits := [ascii '1'], gap := [], unit := .short letter,
    suffix := [c]
    trail := [], lead_isSpace := by simp, digits_isDigit := forall_mem_singleton.2 rfl
    digits_ne := cons_ne_nil _ _
    gap_isBlank := by simp, spelled := spelled, trail_isSpace := by simp }

theorem byteSize_exact_iff_kilo :
    parseByteSize (fun _ _ _ => none) (oneOf 0 (ascii 'k') rfl).text .si = some 1000 :=
  (byteSize_exact_iff _ _ .si).2 (.inl (by decide))

/-- `1Z` is nothing instead of too large. -/
theorem not_byteSize_exact_always :
    ¬∀ (decimalPoint : PString → Nat → Nat → Option Int) (t : SizeText)
    (unitSystem : PUnitSystem), parseByteSize decimalPoint t.text unitSystem =
      exactSize (t.value * (t.unit.base unitSystem) ^ t.unit.exponent) := by
  intro always
  have wrong := always (fun _ _ _ => none) (oneOf 6 (ascii 'Z') rfl) .auto
  revert wrong
  decide

end PadOS.Utils
