import PadOS.Core.Unicode

/-! # Validation and conversion of UTF-8

`is_valid_utf8` accepts the encodings of scalar values and nothing else, the decoder reads them
back, and through UTF-16 a valid string comes back as it was.
-/

namespace PadOS.Utils

open Unicode List

variable {c : Nat} {string : PString}

theorem tail_byte {y : Nat} (small : y < 64) : (UInt8.ofNat (0x80 ||| y)).toNat = 0x80 + y ∧
    isUtf8ContinuationByte (.ofNat (0x80 ||| y)) := by
  revert y
  decide

theorem lead_byte2 {x : Nat} (small : x < 32) : (UInt8.ofNat (0xc0 ||| x)).toNat = 0xc0 + x := by
  revert x
  decide

theorem lead_byte3 {x : Nat} (small : x < 16) : (UInt8.ofNat (0xe0 ||| x)).toNat = 0xe0 + x := by
  revert x
  decide

theorem lead_byte4 {x : Nat} (small : x < 8) : (UInt8.ofNat (0xf0 ||| x)).toNat = 0xf0 + x := by
  revert x
  decide

/-- The second byte keeps overlong forms, surrogates and values above the last scalar value out. -/
theorem utf8ValidSequenceLength_encoded (scalar : isUnicodeScalarValue c) (rest : PString) :
    utf8ValidSequenceLength (unicodeToUtf8 c ++ rest) = (unicodeToUtf8 c).length := by
  have bounds := scalar_iff.1 scalar
  have last := tail_byte (show c &&& 0x3f < 64 by rw [low6]; omega)
  have middle := tail_byte (show (c >>> 6) &&& 0x3f < 64 by rw [low6]; omega)
  have second := tail_byte (show (c >>> 12) &&& 0x3f < 64 by rw [low6]; omega)
  unfold unicodeToUtf8
  by_cases one : c < 0x80
  · have byte : (UInt8.ofNat c).toNat = c := toNat_ofNat (by omega)
    simp [one, utf8ValidSequenceLength, byte]
  by_cases two : c < 0x800
  · have lead := lead_byte2 (show c >>> 6 < 32 by omega)
    simp only [if_neg one, if_pos two, cons_append, nil_append, utf8ValidSequenceLength,
      lead, last.2,
      length_cons, length_nil]
    rw [if_neg (by omega), if_neg (by omega), if_pos (by omega), if_pos trivial]
  by_cases three : c < 0x10000
  · have lead := lead_byte3 (show c >>> 12 < 16 by omega)
    simp only [if_neg one, if_neg two, if_pos three, cons_append, nil_append,
      utf8ValidSequenceLength, lead,
      last.2, middle.2, middle.1, length_cons, length_nil, true_and]
    have ranges : (0xe0 + c >>> 12 ≠ 0xe0 ∨ 0x80 + ((c >>> 6) &&& 0x3f) ≥ 0xa0) ∧
        (0xe0 + c >>> 12 ≠ 0xed ∨ 0x80 + ((c >>> 6) &&& 0x3f) < 0xa0) := by
      rw [low6]
      omega
    rw [if_neg (by omega), if_neg (by omega), if_neg (by omega), if_pos (by omega), if_pos ranges]
  · have lead := lead_byte4 (show c >>> 18 < 8 by omega)
    simp only [if_neg one, if_neg two, if_neg three, cons_append, nil_append,
      utf8ValidSequenceLength, lead,
      last.2, middle.2, second.2, second.1, length_cons, length_nil, true_and]
    have ranges : (0xf0 + c >>> 18 ≠ 0xf0 ∨ 0x80 + ((c >>> 12) &&& 0x3f) ≥ 0x90) ∧
        (0xf0 + c >>> 18 ≠ 0xf4 ∨ 0x80 + ((c >>> 12) &&& 0x3f) < 0x90) := by
      rw [low6]
      omega
    rw [if_neg (by omega), if_neg (by omega), if_neg (by omega), if_neg (by omega),
      if_pos (by omega), if_pos ranges]

theorem isValidUtf8From_encode {cs : List Nat} (scalars : ∀ c ∈ cs, isUnicodeScalarValue c)
    {rounds : Nat} (enough : (encode cs).length ≤ rounds) : isValidUtf8From rounds (encode cs) := by
  induction cs generalizing rounds with
  | nil => cases rounds <;> rfl
  | cons c cs ih =>
    have scalar := scalars c mem_cons_self
    have positive := unicodeToUtf8_length_pos c
    have length : (encode (c :: cs)).length = (unicodeToUtf8 c).length + (encode cs).length := by
      rw [encode_cons, length_append]
    obtain ⟨rounds, rfl⟩ : ∃ n, rounds = n + 1 := ⟨rounds - 1, by omega⟩
    have rest :=
      ih (fun x member => scalars x (mem_cons_of_mem _ member)) (show _ ≤ rounds by omega)
    have some' : (encode (c :: cs)).isEmpty = false := by
      rw [isEmpty_eq_false_iff]
      exact ne_nil_of_length_pos (by omega)
    have accepted : utf8ValidSequenceLength (encode (c :: cs)) = (unicodeToUtf8 c).length :=
      utf8ValidSequenceLength_encoded scalar _
    have dropped : (encode (c :: cs)).drop (unicodeToUtf8 c).length = encode cs := by
      rw [encode_cons, drop_left]
    have taken : ((unicodeToUtf8 c).length != 0) = true := bne_iff_ne.2 (by omega)
    rw [isValidUtf8From, some', accepted]
    dsimp only
    rw [dropped]
    simp [taken, rest]

theorem isValidUtf8_iff :
    string.isValidUtf8 ↔ ∃ cs, (∀ c ∈ cs, isUnicodeScalarValue c) ∧ string = encode cs := by
  constructor
  · exact encode_of_isValidUtf8
  · rintro ⟨cs, scalars, rfl⟩
    exact isValidUtf8From_encode scalars le_rfl

theorem utf16_length_le (cs : List Nat) : (utf16 cs).length ≤ (encode cs).length := by
  induction cs with
  | nil => exact le_rfl
  | cons c cs ih =>
    have units : (utf16Units c).length ≤ (unicodeToUtf8 c).length := by
      by_cases small : c < 0x10000
      · rw [utf16Units, if_pos small]
        exact unicodeToUtf8_length_pos c
      · rw [utf16Units, if_neg small, unicodeToUtf8, if_neg (by omega), if_neg (by omega),
          if_neg small]
        exact Nat.le_add_right 2 2
    rw [encode_cons, length_append]
    have whole : (utf16 (c :: cs)).length = (utf16Units c).length + (utf16 cs).length :=
      length_append
    omega

/-- Exactly the encodings are valid, decoding reads a character back with the bytes that were
produced, and a valid string comes back from UTF-16 if the buffer has room for its units; the
number of its bytes is enough. -/
theorem utf8_accepts_encodings (string : PString) :
    (string.isValidUtf8 ↔ ∃ cs, (∀ c ∈ cs, isUnicodeScalarValue c) ∧ string = encode cs) ∧
      (∀ c rest, isUnicodeScalarValue c →
        utf8ToUnicode (unicodeToUtf8 c ++ rest) = (c, (unicodeToUtf8 c).length)) ∧
      (string.isValidUtf8 → (utf16 string.utf32).length ≤ string.length ∧
        ∀ length, (utf16 string.utf32).length ≤ length →
          assignUtf16 (string.copyUtf16 length) = string) := by
  refine ⟨isValidUtf8_iff, fun c rest scalar => utf8ToUnicode_scalar scalar rest, ?_⟩
  intro valid
  obtain ⟨cs, scalars, rfl⟩ := isValidUtf8_iff.1 valid
  rw [utf32_encode scalars]
  refine ⟨utf16_length_le cs, fun length room => ?_⟩
  rw [copyUtf16_encode scalars room, assignUtf16_utf16 scalars]

end PadOS.Utils
