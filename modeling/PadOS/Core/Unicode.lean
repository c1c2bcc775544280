import Mathlib.Data.List.Basic
import Mathlib.Data.Nat.Bitwise
import Mathlib.Tactic.Common

/-! # UTF-8 and UTF-16

Strings are byte sequences. The conversions read and write one code point at a
time; on valid UTF-8 they are the encodings of a list of scalar values, and going
through UTF-16 gives the bytes back.
-/

namespace PadOS.Unicode

open List

abbrev PString := List UInt8

def replacementCharacter : Nat := 0xfffd

def isUtf8ContinuationByte (byte : UInt8) : Bool := byte.toNat &&& 0xc0 == 0x80

def isUtf16HighSurrogate (character : Nat) : Bool := 0xd800 ≤ character && character ≤ 0xdbff

def isUtf16LowSurrogate (character : Nat) : Bool := 0xdc00 ≤ character && character ≤ 0xdfff

def isUnicodeScalarValue (character : Nat) : Bool :=
  character ≤ 0x10ffff && !isUtf16HighSurrogate character && !isUtf16LowSurrogate character

def utf8CharLength (firstByte : UInt8) : Nat :=
  ((0xe5000000 >>> ((firstByte.toNat >>> 3) &&& 0x1e)) &&& 3) + 1

/-- The code point at the front and the number of bytes it takes. -/
def utf8ToUnicode : List UInt8 → Nat × Nat
  | [] => (replacementCharacter, 1)
  | first :: rest =>
    let firstByte := first.toNat
    if firstByte &&& 0x80 = 0 then (firstByte, 1)
    else if firstByte &&& 0x20 = 0 then
      match rest with
      | second :: _ => (((firstByte &&& 0x1f) <<< 6) ||| (second.toNat &&& 0x3f), 2)
      | _ => (replacementCharacter, 1)
    else if firstByte &&& 0x10 = 0 then
      match rest with
      | second :: third :: _ =>
        (((firstByte &&& 0x0f) <<< 12) |||
          (((second.toNat &&& 0x3f) <<< 6) ||| (third.toNat &&& 0x3f)), 3)
      | _ => (replacementCharacter, 1)
    else
      match rest with
      | second :: third :: fourth :: _ =>
        (((firstByte &&& 0x07) <<< 18) ||| (((second.toNat &&& 0x3f) <<< 12) |||
          (((third.toNat &&& 0x3f) <<< 6) ||| (fourth.toNat &&& 0x3f))), 4)
      | _ => (replacementCharacter, 1)

def utf8ValidSequenceLength : List UInt8 → Nat
  | [] => 0
  | first :: rest =>
    let firstByte := first.toNat
    if firstByte < 0x80 then 1
    else if firstByte < 0xc2 then 0
    else if firstByte < 0xe0 then
      match rest with
      | second :: _ => if isUtf8ContinuationByte second then 2 else 0
      | _ => 0
    else if firstByte < 0xf0 then
      match rest with
      | second :: third :: _ =>
        if isUtf8ContinuationByte second ∧ isUtf8ContinuationByte third ∧
            (firstByte ≠ 0xe0 ∨ second.toNat ≥ 0xa0) ∧ (firstByte ≠ 0xed ∨ second.toNat < 0xa0)
          then 3 else 0
      | _ => 0
    else if firstByte ≤ 0xf4 then
      match rest with
      | second :: third :: fourth :: _ =>
        if isUtf8ContinuationByte second ∧ isUtf8ContinuationByte third ∧
            isUtf8ContinuationByte fourth ∧
            (firstByte ≠ 0xf0 ∨ second.toNat ≥ 0x90) ∧ (firstByte ≠ 0xf4 ∨ second.toNat < 0x90)
          then 4 else 0
      | _ => 0
    else 0

def unicodeToUtf8 (character : Nat) : List UInt8 :=
  if character < 0x80 then [.ofNat character]
  else if character < 0x800 then
    [.ofNat (0xc0 ||| (character >>> 6)), .ofNat (0x80 ||| (character &&& 0x3f))]
  else if character < 0x10000 then
    [.ofNat (0xe0 ||| (character >>> 12)), .ofNat (0x80 ||| ((character >>> 6) &&& 0x3f)),
      .ofNat (0x80 ||| (character &&& 0x3f))]
  else
    [.ofNat (0xf0 ||| (character >>> 18)), .ofNat (0x80 ||| ((character >>> 12) &&& 0x3f)),
      .ofNat (0x80 ||| ((character >>> 6) &&& 0x3f)), .ofNat (0x80 ||| (character &&& 0x3f))]

/-! ## Whole strings

Each round takes at least one byte, so the length bounds the rounds. -/

def isValidUtf8From : Nat → PString → Bool
  | 0, string => string.isEmpty
  | rounds + 1, string =>
    if string.isEmpty then true
    else
      let characterLength := utf8ValidSequenceLength string
      characterLength != 0 && isValidUtf8From rounds (string.drop characterLength)

def PString.isValidUtf8 (string : PString) : Bool := isValidUtf8From string.length string

/-- The code points that `utf32_iterator` visits. -/
def utf32From : Nat → PString → List Nat
  | 0, _ => []
  | _ + 1, [] => []
  | rounds + 1, first :: rest =>
    (utf8ToUnicode (first :: rest)).1 ::
      utf32From rounds ((first :: rest).drop (utf8CharLength first))

def PString.utf32 (string : PString) : List Nat := utf32From string.length string

/-- The units of a code point. -/
def utf16Units (character : Nat) : List Nat :=
  if character < 0x10000 then [character]
  else [0xd800 + ((character - 0x10000) >>> 10), 0xdc00 + ((character - 0x10000) &&& 0x3ff)]

/-- `copy_utf16` into a buffer of `length` units. -/
def copyUtf16From : Nat → PString → Nat → List Nat
  | 0, _, _ => []
  | _ + 1, [], _ => []
  | rounds + 1, string, length =>
    let (character, byteLength) := utf8ToUnicode string
    if length < (utf16Units character).length then []
    else utf16Units character ++
      copyUtf16From rounds (string.drop byteLength) (length - (utf16Units character).length)

def PString.copyUtf16 (string : PString) (length : Nat) : List Nat :=
  copyUtf16From string.length string length

/-- `assign_utf16`: unpaired surrogates become replacement characters. -/
def assignUtf16 : List Nat → PString
  | [] => []
  | [unit] =>
    if isUtf16HighSurrogate unit ∨ isUtf16LowSurrogate unit then
      unicodeToUtf8 replacementCharacter
    else unicodeToUtf8 unit
  | unit :: next :: rest =>
    if isUtf16HighSurrogate unit then
      if isUtf16LowSurrogate next then
        unicodeToUtf8 (0x10000 + ((unit - 0xd800) <<< 10) + (next - 0xdc00)) ++ assignUtf16 rest
      else unicodeToUtf8 replacementCharacter ++ assignUtf16 (next :: rest)
    else if isUtf16LowSurrogate unit then
      unicodeToUtf8 replacementCharacter ++ assignUtf16 (next :: rest)
    else unicodeToUtf8 unit ++ assignUtf16 (next :: rest)

/-! ## One code point -/

theorem forall_byte {P : UInt8 → Prop} (all : ∀ n < 256, P (.ofNat n)) (byte : UInt8) : P byte := by
  have one := all byte.toNat byte.toNat_lt
  rwa [UInt8.ofNat_toNat] at one

theorem toNat_ofNat {n : Nat} (small : n < 256) : (UInt8.ofNat n).toNat = n := by
  rw [UInt8.toNat_ofNat', Nat.mod_eq_of_lt small]

theorem continuation (y : Nat) (small : y < 64) :
    (0x80 ||| y) < 256 ∧ (0x80 ||| y) &&& 0x3f = y ∧ (0x80 ||| y) &&& 0xc0 = 0x80 := by
  revert y
  decide

theorem lead1 (x : Nat) (small : x < 0x80) : x &&& 0x80 = 0 := by
  revert x
  decide +kernel

theorem lead2 (x : Nat) (small : x < 32) :
    (0xc0 ||| x) < 256 ∧ (0xc0 ||| x) &&& 0x80 ≠ 0 ∧ (0xc0 ||| x) &&& 0x20 = 0 ∧
      (0xc0 ||| x) &&& 0x1f = x := by
  revert x
  decide

theorem lead3 (x : Nat) (small : x < 16) :
    (0xe0 ||| x) < 256 ∧ (0xe0 ||| x) &&& 0x80 ≠ 0 ∧ (0xe0 ||| x) &&& 0x20 ≠ 0 ∧
      (0xe0 ||| x) &&& 0x10 = 0 ∧ (0xe0 ||| x) &&& 0x0f = x := by
  revert x
  decide

theorem lead4 (x : Nat) (small : x < 8) :
    (0xf0 ||| x) < 256 ∧ (0xf0 ||| x) &&& 0x80 ≠ 0 ∧ (0xf0 ||| x) &&& 0x20 ≠ 0 ∧
      (0xf0 ||| x) &&& 0x10 ≠ 0 ∧ (0xf0 ||| x) &&& 0x07 = x := by
  revert x
  decide

theorem low6 (x : Nat) : x &&& 0x3f = x % 64 := Nat.and_two_pow_sub_one_eq_mod x 6

theorem join {x y : Nat} (i : Nat) (small : y < 2 ^ i) : x <<< i ||| y = 2 ^ i * x + y := by
  rw [← Nat.shiftLeft_add_eq_or_of_lt small, Nat.shiftLeft_eq, mul_comm]

theorem utf8ToUnicode_encoded {c : Nat} (small : c < 0x200000) (rest : List UInt8) :
    utf8ToUnicode (unicodeToUtf8 c ++ rest) = (c, (unicodeToUtf8 c).length) := by
  unfold unicodeToUtf8
  by_cases one : c < 0x80
  · rw [if_pos one]
    simp [utf8ToUnicode, toNat_ofNat (show c < 256 by omega), lead1 c one]
  rw [if_neg one]
  have y0 := continuation (c &&& 0x3f) (by rw [low6]; omega)
  by_cases two : c < 0x800
  · have x := lead2 (c >>> 6) (by rw [Nat.shiftRight_eq_div_pow]; omega)
    rw [if_pos two]
    simp only [cons_append, nil_append, utf8ToUnicode, toNat_ofNat x.1, toNat_ofNat y0.1,
      x.2.1, x.2.2.1, x.2.2.2, y0.2.1, if_false, if_true]
    rw [low6, join 6 (by omega), Nat.shiftRight_eq_div_pow]
    simp only [length_cons, length_nil, Prod.mk.injEq, and_true]
    omega
  rw [if_neg two]
  have y1 := continuation ((c >>> 6) &&& 0x3f) (by rw [low6]; omega)
  by_cases three : c < 0x10000
  · have x := lead3 (c >>> 12) (by rw [Nat.shiftRight_eq_div_pow]; omega)
    rw [if_pos three]
    simp only [cons_append, nil_append, utf8ToUnicode, toNat_ofNat x.1, toNat_ofNat y0.1,
      toNat_ofNat y1.1, x.2.1, x.2.2.1, x.2.2.2.1, x.2.2.2.2, y0.2.1, y1.2.1, if_false, if_true]
    rw [low6, low6, join 6 (by omega), join 12 (by omega), Nat.shiftRight_eq_div_pow,
      Nat.shiftRight_eq_div_pow]
    simp only [length_cons, length_nil, Prod.mk.injEq, and_true]
    omega
  rw [if_neg three]
  have y2 := continuation ((c >>> 12) &&& 0x3f) (by rw [low6]; omega)
  have x := lead4 (c >>> 18) (by rw [Nat.shiftRight_eq_div_pow]; omega)
  simp only [cons_append, nil_append, utf8ToUnicode, toNat_ofNat x.1, toNat_ofNat y0.1,
    toNat_ofNat y1.1, toNat_ofNat y2.1, x.2.1, x.2.2.1, x.2.2.2.1, x.2.2.2.2, y0.2.1, y1.2.1, y2.2.1,
    if_false]
  rw [low6, low6, low6, join 6 (by omega), join 12 (by omega), join 18 (by omega),
    Nat.shiftRight_eq_div_pow, Nat.shiftRight_eq_div_pow, Nat.shiftRight_eq_div_pow]
  simp only [length_cons, length_nil, Prod.mk.injEq, and_true]
  omega

/-- The bytes of a code point are a valid sequence, if it is a scalar value. -/
theorem scalar_iff {c : Nat} : isUnicodeScalarValue c ↔
    c < 0x110000 ∧ (c < 0xd800 ∨ 0xe000 ≤ c) := by
  simp only [isUnicodeScalarValue, isUtf16HighSurrogate, isUtf16LowSurrogate, Bool.and_eq_true,
    Bool.not_eq_true', Bool.and_eq_false_imp, decide_eq_true_eq, decide_eq_false_iff_not]
  omega

theorem isContinuation_iff (byte : UInt8) :
    isUtf8ContinuationByte byte ↔ 0x80 ≤ byte.toNat ∧ byte.toNat < 0xc0 := by
  have table : ∀ x < 256, (x &&& 0xc0 == 0x80) = (decide (0x80 ≤ x) && decide (x < 0xc0)) := by
    decide +kernel
  rw [isUtf8ContinuationByte, table _ byte.toNat_lt]
  simp

/-- A continuation byte from its six bits. -/
theorem continuation_eq {byte : UInt8} (cont : isUtf8ContinuationByte byte) :
    byte.toNat &&& 0x3f = byte.toNat - 0x80 ∧ byte.toNat - 0x80 < 64 ∧
      UInt8.ofNat (0x80 ||| (byte.toNat - 0x80)) = byte := by
  have bounds := (isContinuation_iff byte).1 cont
  have small : byte.toNat - 0x80 < 64 := by omega
  have joined : 0x80 ||| (byte.toNat - 0x80) = byte.toNat := by
    have := join (x := 2) 6 small
    rw [show (2 <<< 6 : Nat) = 0x80 from rfl] at this
    omega
  refine ⟨?_, small, ?_⟩
  · rw [low6]
    omega
  · rw [joined, UInt8.ofNat_toNat]

theorem encode2 {x y : Nat} (low : 2 ≤ x) (high : x < 32) (small : y < 64) :
    unicodeToUtf8 (64 * x + y) = [.ofNat (0xc0 ||| x), .ofNat (0x80 ||| y)] := by
  have lead : (64 * x + y) >>> 6 = x := by rw [Nat.shiftRight_eq_div_pow]; omega
  have last : (64 * x + y) &&& 0x3f = y := by rw [low6]; omega
  rw [unicodeToUtf8, if_neg (by omega), if_pos (by omega), lead, last]

theorem encode3 {x y z : Nat} (high : x < 16) (smallY : y < 64) (small : z < 64)
    (low : 0x800 ≤ 4096 * x + (64 * y + z)) :
    unicodeToUtf8 (4096 * x + (64 * y + z)) =
      [.ofNat (0xe0 ||| x), .ofNat (0x80 ||| y), .ofNat (0x80 ||| z)] := by
  have lead : (4096 * x + (64 * y + z)) >>> 12 = x := by rw [Nat.shiftRight_eq_div_pow]; omega
  have middle : ((4096 * x + (64 * y + z)) >>> 6) &&& 0x3f = y := by
    rw [low6, Nat.shiftRight_eq_div_pow]
    omega
  have last : (4096 * x + (64 * y + z)) &&& 0x3f = z := by rw [low6]; omega
  rw [unicodeToUtf8, if_neg (by omega), if_neg (by omega), if_pos (by omega), lead, middle, last]

theorem encode4 {x y z w : Nat} (smallY : y < 64) (smallZ : z < 64) (small : w < 64)
    (low : 0x10000 ≤ 262144 * x + (4096 * y + (64 * z + w))) :
    unicodeToUtf8 (262144 * x + (4096 * y + (64 * z + w))) =
      [.ofNat (0xf0 ||| x), .ofNat (0x80 ||| y), .ofNat (0x80 ||| z), .ofNat (0x80 ||| w)] := by
  have lead : (262144 * x + (4096 * y + (64 * z + w))) >>> 18 = x := by
    rw [Nat.shiftRight_eq_div_pow]
    omega
  have second : ((262144 * x + (4096 * y + (64 * z + w))) >>> 12) &&& 0x3f = y := by
    rw [low6, Nat.shiftRight_eq_div_pow]
    omega
  have third : ((262144 * x + (4096 * y + (64 * z + w))) >>> 6) &&& 0x3f = z := by
    rw [low6, Nat.shiftRight_eq_div_pow]
    omega
  have last : (262144 * x + (4096 * y + (64 * z + w))) &&& 0x3f = w := by rw [low6]; omega
  rw [unicodeToUtf8, if_neg (by omega), if_neg (by omega), if_neg (by omega), lead, second, third,
    last]

/-- A lead byte from its tag and its payload. -/
theorem lead_eq {byte : UInt8} {tag bits i : Nat} (isTag : tag = bits <<< i)
    (above : tag ≤ byte.toNat) (below : byte.toNat - tag < 2 ^ i) :
    UInt8.ofNat (tag ||| (byte.toNat - tag)) = byte := by
  have joined : tag ||| (byte.toNat - tag) = byte.toNat := by
    have sum := Nat.shiftLeft_add_eq_or_of_lt below bits
    rw [← isTag] at sum
    omega
  rw [joined, UInt8.ofNat_toNat]

/-- A valid sequence is the encoding of a scalar value. -/
theorem encoded_of_valid {string : List UInt8} (valid : utf8ValidSequenceLength string ≠ 0) :
    ∃ c rest, isUnicodeScalarValue c ∧ string = unicodeToUtf8 c ++ rest ∧
      utf8ValidSequenceLength string = (unicodeToUtf8 c).length := by
  cases string with
  | nil => exact absurd rfl valid
  | cons first rest =>
    have byte := first.toNat_lt
    unfold utf8ValidSequenceLength at valid ⊢
    by_cases one : first.toNat < 0x80
    · refine ⟨first.toNat, rest, scalar_iff.2 (by omega), ?_⟩
      simp [one, unicodeToUtf8]
    by_cases bad : first.toNat < 0xc2
    · simp [one, bad] at valid
    by_cases two : first.toNat < 0xe0
    · simp only [one, bad, two, if_false, if_true] at valid ⊢
      match rest, valid with
      | second :: rest, valid =>
        by_cases cont : isUtf8ContinuationByte second
        · obtain ⟨_, small, isSecond⟩ := continuation_eq cont
          refine ⟨64 * (first.toNat - 0xc0) + (second.toNat - 0x80), rest,
            scalar_iff.2 (by omega), ?_⟩
          have lead : UInt8.ofNat (0xc0 ||| (first.toNat - 0xc0)) = first :=
            lead_eq (show 0xc0 = 6 <<< 5 from rfl) (by omega) (by omega)
          rw [encode2 (by omega) (by omega) small, isSecond, lead]
          simp [cont]
        · simp [cont] at valid
      | [], valid => exact absurd rfl valid
    by_cases three : first.toNat < 0xf0
    · simp only [one, bad, two, three, if_false, if_true] at valid ⊢
      match rest, valid with
      | second :: third :: rest, valid =>
        simp only at valid ⊢
        split at valid
        · rename_i checked
          obtain ⟨_, smallY, isSecond⟩ := continuation_eq checked.1
          obtain ⟨_, small, isThird⟩ := continuation_eq checked.2.1
          have low := checked.2.2.1
          have high := checked.2.2.2
          have bounds := (isContinuation_iff second).1 checked.1
          refine ⟨4096 * (first.toNat - 0xe0) + (64 * (second.toNat - 0x80) +
            (third.toNat - 0x80)), rest, scalar_iff.2 (by omega), ?_⟩
          have lead : UInt8.ofNat (0xe0 ||| (first.toNat - 0xe0)) = first :=
            lead_eq (show 0xe0 = 14 <<< 4 from rfl) (by omega) (by omega)
          rw [encode3 (by omega) smallY small (by omega), isSecond, isThird, lead, if_pos checked]
          exact ⟨rfl, rfl⟩
        · exact absurd rfl valid
      | [_], valid => exact absurd rfl valid
      | [], valid => exact absurd rfl valid
    by_cases four : first.toNat ≤ 0xf4
    · simp only [one, bad, two, three, four, if_false, if_true] at valid ⊢
      match rest, valid with
      | second :: third :: fourth :: rest, valid =>
        simp only at valid ⊢
        split at valid
        · rename_i checked
          obtain ⟨_, smallY, isSecond⟩ := continuation_eq checked.1
          obtain ⟨_, smallZ, isThird⟩ := continuation_eq checked.2.1
          obtain ⟨_, small, isFourth⟩ := continuation_eq checked.2.2.1
          have low := checked.2.2.2.1
          have high := checked.2.2.2.2
          have bounds := (isContinuation_iff second).1 checked.1
          refine ⟨262144 * (first.toNat - 0xf0) + (4096 * (second.toNat - 0x80) +
            (64 * (third.toNat - 0x80) + (fourth.toNat - 0x80))), rest,
            scalar_iff.2 (by omega), ?_⟩
          have lead : UInt8.ofNat (0xf0 ||| (first.toNat - 0xf0)) = first :=
            lead_eq (show 0xf0 = 15 <<< 4 from rfl) (by omega) (by omega)
          rw [encode4 smallY smallZ small (by omega), isSecond, isThird, isFourth,
            lead, if_pos checked]
          exact ⟨rfl, rfl⟩
        · exact absurd rfl valid
      | [_, _], valid => exact absurd rfl valid
      | [_], valid => exact absurd rfl valid
      | [], valid => exact absurd rfl valid
    · simp [one, bad, two, three, four] at valid

/-! ## Strings of scalar values -/

def encode (characters : List Nat) : PString := characters.flatMap unicodeToUtf8

def utf16 (characters : List Nat) : List Nat := characters.flatMap utf16Units

theorem unicodeToUtf8_ne_nil (c : Nat) : unicodeToUtf8 c ≠ [] := by
  unfold unicodeToUtf8
  split
  · simp
  · split
    · simp
    · split <;> simp

theorem unicodeToUtf8_length_le (c : Nat) : (unicodeToUtf8 c).length ≤ 4 := by
  unfold unicodeToUtf8
  split
  · simp
  · split
    · simp
    · split <;> simp

theorem assignUtf16_length_le (units : List Nat) : (assignUtf16 units).length ≤ 4 * units.length := by
  induction units using assignUtf16.induct with
  | case1 => exact Nat.zero_le _
  | case2 unit surrogate =>
    rw [assignUtf16, if_pos surrogate]
    exact unicodeToUtf8_length_le _
  | case3 unit plain =>
    rw [assignUtf16, if_neg plain]
    exact unicodeToUtf8_length_le _
  | case4 unit next rest high low ih =>
    have first := unicodeToUtf8_length_le (0x10000 + ((unit - 0xd800) <<< 10) + (next - 0xdc00))
    rw [assignUtf16, if_pos high, if_pos low, length_append, length_cons, length_cons]
    omega
  | case5 unit next rest high low ih =>
    have first := unicodeToUtf8_length_le replacementCharacter
    rw [assignUtf16, if_pos high, if_neg low, length_append, length_cons]
    omega
  | case6 unit next rest high low ih =>
    have first := unicodeToUtf8_length_le replacementCharacter
    rw [assignUtf16, if_neg high, if_pos low, length_append, length_cons]
    omega
  | case7 unit next rest high low ih =>
    have first := unicodeToUtf8_length_le unit
    rw [assignUtf16, if_neg high, if_neg low, length_append, length_cons]
    omega

theorem unicodeToUtf8_length_pos (c : Nat) : 0 < (unicodeToUtf8 c).length :=
  length_pos_of_ne_nil (unicodeToUtf8_ne_nil c)

theorem encode_cons (c : Nat) (cs : List Nat) : encode (c :: cs) = unicodeToUtf8 c ++ encode cs := rfl

theorem encode_append (cs cs' : List Nat) : encode (cs ++ cs') = encode cs ++ encode cs' :=
  flatMap_append

theorem encode_of_isValidUtf8 {string : PString} (valid : string.isValidUtf8) :
    ∃ cs, (∀ c ∈ cs, isUnicodeScalarValue c) ∧ string = encode cs := by
  unfold PString.isValidUtf8 at valid
  generalize string.length = rounds at valid
  induction rounds generalizing string with
  | zero =>
    rw [isValidUtf8From, List.isEmpty_iff] at valid
    exact ⟨[], by simp, valid⟩
  | succ rounds ih =>
    rw [isValidUtf8From] at valid
    split at valid
    · rename_i empty
      rw [List.isEmpty_iff] at empty
      exact ⟨[], by simp, empty⟩
    · simp only [Bool.and_eq_true, bne_iff_ne] at valid
      obtain ⟨c, rest, scalar, split, length⟩ := encoded_of_valid valid.1
      have tail : string.drop (utf8ValidSequenceLength string) = rest := by
        rw [length, split, drop_left]
      rw [tail] at valid
      obtain ⟨cs, scalars, encoded⟩ := ih valid.2
      refine ⟨c :: cs, ?_, by rw [encode_cons, ← encoded, ← split]⟩
      intro x member
      rcases mem_cons.1 member with rfl | member
      · exact scalar
      · exact scalars x member

theorem utf8ToUnicode_scalar {c : Nat} (scalar : isUnicodeScalarValue c) (rest : List UInt8) :
    utf8ToUnicode (unicodeToUtf8 c ++ rest) = (c, (unicodeToUtf8 c).length) := by
  have bound := (scalar_iff.1 scalar).1
  exact utf8ToUnicode_encoded (by omega) rest

variable {cs : List Nat}

theorem copyUtf16From_encode (scalars : ∀ c ∈ cs, isUnicodeScalarValue c)
    {rounds length : Nat} (enough : (encode cs).length ≤ rounds)
    (room : (utf16 cs).length ≤ length) : copyUtf16From rounds (encode cs) length = utf16 cs := by
  induction cs generalizing rounds length with
  | nil => cases rounds <;> rfl
  | cons c cs ih =>
    have positive := unicodeToUtf8_length_pos c
    have split : (encode (c :: cs)).length = (unicodeToUtf8 c).length + (encode cs).length := by
      rw [encode_cons, length_append]
    have units : (utf16 (c :: cs)).length = (utf16Units c).length + (utf16 cs).length := by
      rw [utf16, flatMap_cons, length_append]
      rfl
    obtain ⟨rounds, rfl⟩ : ∃ n, rounds = n + 1 := ⟨rounds - 1, by omega⟩
    obtain ⟨first, rest, isCons⟩ := exists_cons_of_ne_nil (l := encode (c :: cs))
      (ne_nil_of_length_pos (by omega))
    have decoded : utf8ToUnicode (encode (c :: cs)) = (c, (unicodeToUtf8 c).length) :=
      utf8ToUnicode_scalar (scalars c mem_cons_self) _
    have dropped : (encode (c :: cs)).drop (unicodeToUtf8 c).length = encode cs := by
      rw [encode_cons, drop_left]
    rw [isCons, copyUtf16From, ← isCons, decoded]
    · simp only [dropped]
      rw [if_neg (by omega), ih (fun x member => scalars x (mem_cons_of_mem _ member))
        (by omega) (by omega)]
      rfl
    · intro isNil
      cases isNil

/-- Copying yields the units when there is room for all of them. -/
theorem copyUtf16_encode (scalars : ∀ c ∈ cs, isUnicodeScalarValue c) {length : Nat}
    (room : (utf16 cs).length ≤ length) : (encode cs).copyUtf16 length = utf16 cs :=
  copyUtf16From_encode scalars le_rfl room

theorem assignUtf16_unit {unit : Nat} (high : ¬isUtf16HighSurrogate unit)
    (low : ¬isUtf16LowSurrogate unit) (units : List Nat) :
    assignUtf16 (unit :: units) = unicodeToUtf8 unit ++ assignUtf16 units := by
  cases units with
  | nil | cons next rest => simp [assignUtf16, high, low]

theorem assignUtf16_utf16 (scalars : ∀ c ∈ cs, isUnicodeScalarValue c) :
    assignUtf16 (utf16 cs) = encode cs := by
  induction cs with
  | nil => rfl
  | cons c cs ih =>
    have rest := ih fun x member => scalars x (mem_cons_of_mem _ member)
    have scalar := scalar_iff.1 (scalars c mem_cons_self)
    rw [encode_cons, ← rest]
    show assignUtf16 (utf16Units c ++ utf16 cs) = _
    unfold utf16Units
    split
    · apply assignUtf16_unit
      · simp only [isUtf16HighSurrogate, Bool.and_eq_true, decide_eq_true_eq]
        omega
      · simp only [isUtf16LowSurrogate, Bool.and_eq_true, decide_eq_true_eq]
        omega
    · have low10 : (c - 0x10000) &&& 0x3ff = (c - 0x10000) % 1024 :=
        Nat.and_two_pow_sub_one_eq_mod _ 10
      have high : isUtf16HighSurrogate (0xd800 + ((c - 0x10000) >>> 10)) := by
        simp only [isUtf16HighSurrogate, Bool.and_eq_true, decide_eq_true_eq]
        rw [Nat.shiftRight_eq_div_pow]
        omega
      have low : isUtf16LowSurrogate (0xdc00 + ((c - 0x10000) &&& 0x3ff)) := by
        simp only [isUtf16LowSurrogate, Bool.and_eq_true, decide_eq_true_eq]
        omega
      have joined : 0x10000 + ((0xd800 + ((c - 0x10000) >>> 10) - 0xd800) <<< 10) +
          (0xdc00 + ((c - 0x10000) &&& 0x3ff) - 0xdc00) = c := by
        rw [Nat.add_sub_cancel_left, Nat.add_sub_cancel_left, low10, Nat.shiftLeft_eq,
          Nat.shiftRight_eq_div_pow]
        omega
      simp only [cons_append, nil_append, assignUtf16]
      rw [if_pos high, if_pos low, joined]

theorem utf8CharLength_encoded {c : Nat} (scalar : isUnicodeScalarValue c) (tail : PString) :
    ∃ first rest, unicodeToUtf8 c ++ tail = first :: rest ∧
      utf8CharLength first = (unicodeToUtf8 c).length := by
  have bound := (scalar_iff.1 scalar).1
  have lengths : (∀ x < 0x80, utf8CharLength (.ofNat x) = 1) ∧
      (∀ x < 32, utf8CharLength (.ofNat (0xc0 ||| x)) = 2) ∧
      (∀ x < 16, utf8CharLength (.ofNat (0xe0 ||| x)) = 3) ∧
      ∀ x < 8, utf8CharLength (.ofNat (0xf0 ||| x)) = 4 := by
    decide +kernel
  obtain ⟨one, two, three, four⟩ := lengths
  unfold unicodeToUtf8
  split
  · rename_i small
    exact ⟨_, _, rfl, one c small⟩
  · split
    · refine ⟨_, _, rfl, two _ ?_⟩
      rw [Nat.shiftRight_eq_div_pow]
      omega
    · split
      · refine ⟨_, _, rfl, three _ ?_⟩
        rw [Nat.shiftRight_eq_div_pow]
        omega
      · refine ⟨_, _, rfl, four _ ?_⟩
        rw [Nat.shiftRight_eq_div_pow]
        omega

theorem utf32From_encode (scalars : ∀ c ∈ cs, isUnicodeScalarValue c) {rounds : Nat}
    (enough : (encode cs).length ≤ rounds) : utf32From rounds (encode cs) = cs := by
  induction cs generalizing rounds with
  | nil => cases rounds <;> rfl
  | cons c cs ih =>
    have scalar := scalars c mem_cons_self
    have positive := unicodeToUtf8_length_pos c
    have split : (encode (c :: cs)).length = (unicodeToUtf8 c).length + (encode cs).length := by
      rw [encode_cons, length_append]
    obtain ⟨rounds, rfl⟩ : ∃ n, rounds = n + 1 := ⟨rounds - 1, by omega⟩
    obtain ⟨first, rest, isCons, length⟩ := utf8CharLength_encoded scalar (encode cs)
    have decoded : utf8ToUnicode (unicodeToUtf8 c ++ encode cs) = (c, (unicodeToUtf8 c).length) :=
      utf8ToUnicode_scalar scalar _
    have rest' := ih (fun x member => scalars x (mem_cons_of_mem _ member)) 
      (show _ ≤ rounds by omega)
    rw [encode_cons, isCons, utf32From, ← isCons, decoded, length, drop_left, rest']

theorem utf32_encode (scalars : ∀ c ∈ cs, isUnicodeScalarValue c) :
    (encode cs).utf32 = cs :=
  utf32From_encode scalars le_rfl

end PadOS.Unicode
