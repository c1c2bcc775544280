import PadOS.Utils.ByteSize

/-! # `PBase64Codec`

`Decode` derives the length of its result, the number of full groups and the kind of the last
group from the length of its input and up to two padding characters. Sizes are natural numbers;
a read outside the input or a length below zero is no result.
-/

namespace PadOS.Utils

open List Option Nat
open Unicode (PString join)

namespace PBase64Codec

def encodeAlphabet : List UInt8 :=
  (['A', 'B', 'C', 'D', 'E', 'F', 'G', 'H', 'I', 'J', 'K', 'L', 'M', 'N', 'O', 'P', 'Q', 'R', 'S',
    'T', 'U', 'V', 'W', 'X', 'Y', 'Z', 'a', 'b', 'c', 'd', 'e', 'f', 'g', 'h', 'i', 'j', 'k', 'l',
    'm', 'n', 'o', 'p', 'q', 'r', 's', 't', 'u', 'v', 'w', 'x', 'y', 'z', '0', '1', '2', '3', '4',
    '5', '6', '7', '8', '9', '+', '/'] : List Char).map ascii

def decodeAlphabet : List Nat :=
  [ 0,  0,  0,  0,  0,  0,  0,  0,  0,  0,  0,  0,  0,  0,  0,  0,
    0,  0,  0,  0,  0,  0,  0,  0,  0,  0,  0,  0,  0,  0,  0,  0,
    0,  0,  0,  0,  0,  0,  0,  0,  0,  0,  0, 62, 63, 62,  0, 63,
   52, 53, 54, 55, 56, 57, 58, 59, 60, 61,  0,  0,  0,  0,  0,  0,
    0,  0,  1,  2,  3,  4,  5,  6,  7,  8,  9, 10, 11, 12, 13, 14,
   15, 16, 17, 18, 19, 20, 21, 22, 23, 24, 25,  0,  0,  0,  0, 63,
    0, 26, 27, 28, 29, 30, 31, 32, 33, 34, 35, 36, 37, 38, 39, 40,
   41, 42, 43, 44, 45, 46, 47, 48, 49, 50, 51,  0,  0,  0,  0,  0]

def padding : UInt8 := ascii '='

/-! ## `Encode` -/

def encodeCharacter (index : Nat) : UInt8 := encodeAlphabet.getD index 0

def encodeBit00_05 (a : UInt8) : UInt8 := encodeCharacter (a.toNat >>> 2)

def encodeBit06_07 (a : UInt8) : UInt8 := encodeCharacter ((a.toNat &&& 0x03) <<< 4)

def encodeBit06_11 (a b : UInt8) : UInt8 :=
  encodeCharacter (((a.toNat &&& 0x03) <<< 4) ||| (b.toNat >>> 4))

def encodeBit12_15 (b : UInt8) : UInt8 := encodeCharacter ((b.toNat &&& 0x0f) <<< 2)

def encodeBit12_17 (b c : UInt8) : UInt8 :=
  encodeCharacter (((b.toNat &&& 0x0f) <<< 2) ||| (c.toNat >>> 6))

def encodeBit18_23 (c : UInt8) : UInt8 := encodeCharacter (c.toNat &&& 0x3f)

/-- The loop and the last group. -/
def encodeGroups : List UInt8 → PString
  | a :: b :: c :: rest =>
    encodeBit00_05 a :: encodeBit06_11 a b :: encodeBit12_17 b c :: encodeBit18_23 c ::
      encodeGroups rest
  | [a, b] => [encodeBit00_05 a, encodeBit06_11 a b, encodeBit12_15 b, padding]
  | [a] => [encodeBit00_05 a, encodeBit06_07 a, padding, padding]
  | [] => []

/-- The code tests whether the length has left `size_t`; here lengths have no bound. -/
def encode (data : List UInt8) : PString :=
  let resultLength := (data.length + 2) / 3 * 4
  if resultLength < data.length then [] else encodeGroups data

/-! ## `Decode` -/

def decodeCharacter (character : UInt8) : Nat := decodeAlphabet.getD (character.toNat &&& 0x7f) 0

def decodeGroup (data : List UInt8) (i : Nat) : Option (List UInt8) := do
  let a ← data[i]?
  let b ← data[i + 1]?
  let c ← data[i + 2]?
  let d ← data[i + 3]?
  let value :=
    decodeCharacter a <<< 18 ||| decodeCharacter b <<< 12 ||| decodeCharacter c <<< 6 |||
      decodeCharacter d
  return [.ofNat (value >>> 16), .ofNat (value >>> 8), .ofNat value]

/-- The loop over the full groups, as many as are left. -/
def decodeGroups (data : List UInt8) : Nat → Nat → Option (List UInt8)
  | 0, _ => some []
  | groups + 1, i => do
      let group ← decodeGroup data i
      let rest ← decodeGroups data groups (i + 4)
      return group ++ rest

def decodeTail (data : List UInt8) (paddingBytes i : Nat) : Option (List UInt8) :=
  if paddingBytes = 2 then do
    let a ← data[i]?
    let b ← data[i + 1]?
    let value := decodeCharacter a <<< 18 ||| decodeCharacter b <<< 12
    return [.ofNat (value >>> 16)]
  else if paddingBytes = 1 then do
    let a ← data[i]?
    let b ← data[i + 1]?
    let c ← data[i + 2]?
    let value := decodeCharacter a <<< 18 ||| decodeCharacter b <<< 12 ||| decodeCharacter c <<< 6
    return [.ofNat (value >>> 16), .ofNat (value >>> 8)]
  else some []

/-- The number of padding bytes and the length up to the last group that is not full. -/
def unpad (data : List UInt8) : Option (Nat × Nat) :=
  let length := data.length
  if length &&& 0x03 = 0 then do
    let twice ← if length > 1 then (data[length - 2]?).map (· == padding) else some false
    let once ← if !twice && length > 0 then (data[length - 1]?).map (· == padding) else some false
    let paddingBytes := if twice then 2 else if once then 1 else 0
    if paddingBytes = 0 then return (0, length)
    else if length < 4 then none
    else return (paddingBytes, length - 4)
  else some (4 - (length &&& 0x03), length - (length &&& 0x03))

/-- The length of the result and what is written to it. -/
structure Decoded where
  resultLength : Nat
  written : List UInt8

def decode (data : List UInt8) : Option Decoded := do
  let (paddingBytes, unpaddedLength) ← unpad data
  let whole := (data.length + 3) / 4 * 3
  if whole < paddingBytes then none
  let groups ← decodeGroups data ((unpaddedLength + 3) / 4) 0
  let tail ← decodeTail data paddingBytes unpaddedLength
  return ⟨whole - paddingBytes, groups ++ tail⟩

/-! ## What is decoded -/

/-- The bytes of groups of characters, where the last group may be short. -/
def decodeList : List UInt8 → List UInt8
  | a :: b :: c :: d :: rest =>
    let value :=
      decodeCharacter a <<< 18 ||| decodeCharacter b <<< 12 ||| decodeCharacter c <<< 6 |||
      decodeCharacter d
    .ofNat (value >>> 16) :: .ofNat (value >>> 8) :: .ofNat value :: decodeList rest
  | [a, b, c] =>
    let value := decodeCharacter a <<< 18 ||| decodeCharacter b <<< 12 ||| decodeCharacter c <<< 6
    [.ofNat (value >>> 16), .ofNat (value >>> 8)]
  | [a, b] => [.ofNat ((decodeCharacter a <<< 18 ||| decodeCharacter b <<< 12) >>> 16)]
  | [_] => []
  | [] => []

/-- The characters without the padding that `Decode` looks for. -/
def core (data : List UInt8) : List UInt8 :=
  if data.length % 4 ≠ 0 then data
  else if data[data.length - 2]? = some padding then data.take (data.length - 2)
  else if data[data.length - 1]? = some padding then data.take (data.length - 1)
  else data

variable {data : List UInt8} {i k : Nat}

theorem length_decodeList (data : List UInt8) :
    (decodeList data).length = data.length / 4 * 3 + (data.length % 4 - 1) := by
  induction data using decodeList.induct with
  | case1 a b c d rest ih =>
    simp only [decodeList, length_cons, ih]
    omega
  | case2 a b c | case3 a b | case4 a => simp [decodeList]
  | case5 => rfl

theorem decodeList_append {full tail : List UInt8} (whole : full.length % 4 = 0) :
    decodeList (full ++ tail) = decodeList full ++ decodeList tail := by
  induction full using decodeList.induct with
  | case1 a b c d rest ih =>
    have whole' : rest.length % 4 = 0 := by
      simp only [length_cons] at whole
      omega
    simp only [cons_append, decodeList, ih whole']
  | case2 a b c => cases whole
  | case3 a b => cases whole
  | case4 a => cases whole
  | case5 => rfl

theorem drop_of_getElem? {a : UInt8} (here : data[i]? = some a) :
    data.drop i = a :: data.drop (i + 1) := by
  obtain ⟨inside, rfl⟩ := List.getElem?_eq_some_iff.1 here
  exact drop_eq_getElem_cons inside

theorem decodeGroup_eq (inside : i + 4 ≤ data.length) :
    decodeGroup data i = some (decodeList ((data.drop i).take 4)) := by
  have a := getElem?_eq_getElem (l := data) (i := i) (by omega)
  have b := getElem?_eq_getElem (l := data) (i := i + 1) (by omega)
  have c := getElem?_eq_getElem (l := data) (i := i + 2) (by omega)
  have d := getElem?_eq_getElem (l := data) (i := i + 3) (by omega)
  rw [drop_of_getElem? a, drop_of_getElem? b, drop_of_getElem? c, drop_of_getElem? d]
  unfold decodeGroup
  rw [a, b, c, d]
  rfl

theorem decodeGroups_eq (data : List UInt8) (i k : Nat) (inside : i + 4 * k ≤ data.length) :
    decodeGroups data k i = some (decodeList ((data.drop i).take (4 * k))) := by
  induction k generalizing i with
  | zero => simp [decodeGroups, decodeList]
  | succ k ih =>
    have first : ((data.drop i).take 4).length % 4 = 0 := by
      rw [length_take, length_drop]
      omega
    have split : (data.drop i).take (4 * (k + 1)) =
        (data.drop i).take 4 ++ (data.drop (i + 4)).take (4 * k) := by
      rw [← drop_drop, ← take_add]
      congr 1
      omega
    rw [decodeGroups, decodeGroup_eq (by omega), ih _ (by omega), split, decodeList_append first]
    rfl

theorem decodeTail_eq (data : List UInt8) (i : Nat) {paddingBytes : Nat} (some' : paddingBytes ≤ 3)
    (inside : i + (4 - paddingBytes) % 4 ≤ data.length) :
    decodeTail data paddingBytes i = some
      (decodeList ((data.drop i).take ((4 - paddingBytes) % 4))) := by
  have cases' : paddingBytes = 0 ∨ paddingBytes = 1 ∨ paddingBytes = 2 ∨ paddingBytes = 3 := by
    omega
  rcases cases' with rfl | rfl | rfl | rfl
  · rfl
  · have a := getElem?_eq_getElem (l := data) (i := i) (by omega)
    have b := getElem?_eq_getElem (l := data) (i := i + 1) (by omega)
    have c := getElem?_eq_getElem (l := data) (i := i + 2) (by omega)
    rw [drop_of_getElem? a, drop_of_getElem? b, drop_of_getElem? c]
    unfold decodeTail
    rw [a, b, c]
    rfl
  · have a := getElem?_eq_getElem (l := data) (i := i) (by omega)
    have b := getElem?_eq_getElem (l := data) (i := i + 1) (by omega)
    rw [drop_of_getElem? a, drop_of_getElem? b]
    unfold decodeTail
    rw [a, b]
    rfl
  · have a := getElem?_eq_getElem (l := data) (i := i) (by omega)
    rw [drop_of_getElem? a]
    rfl

/-- How the sizes are derived. -/
structure Unpadded (data : List UInt8) (paddingBytes unpaddedLength : Nat) : Prop where
  found : unpad data = some (paddingBytes, unpaddedLength)
  short : paddingBytes ≤ 3
  aligned : unpaddedLength % 4 = 0
  inside : unpaddedLength + (4 - paddingBytes) % 4 ≤ data.length
  core : core data = data.take (unpaddedLength + (4 - paddingBytes) % 4)
  whole : (data.length + 3) / 4 * 3 = unpaddedLength / 4 * 3 + ((4 - paddingBytes) % 4 - 1) +
      paddingBytes

theorem low2 (x : Nat) : x &&& 0x03 = x % 4 := and_two_pow_sub_one_eq_mod x 2

theorem unpad_spec (data : List UInt8) :
    ∃ paddingBytes unpaddedLength, Unpadded data paddingBytes unpaddedLength := by
  by_cases aligned : data.length % 4 = 0
  · by_cases empty : data.length = 0
    · obtain rfl := length_eq_zero_iff.1 empty
      exact ⟨0, 0, rfl, by decide, rfl, le_refl _, rfl, rfl⟩
    · have last := getElem?_eq_getElem (l := data) (i := data.length - 1) (by omega)
      have second := getElem?_eq_getElem (l := data) (i := data.length - 2) (by omega)
      by_cases twice : data[data.length - 2]? = some padding
      · refine ⟨2, data.length - 4, ?_, by decide, by omega, by omega, ?_, by omega⟩
        · simp [unpad, low2, aligned, twice, show 1 < data.length by omega,
            show ¬data.length < 4 by omega]
        · rw [core, if_neg (by omega), if_pos twice]
          congr 1
          omega
      · by_cases once : data[data.length - 1]? = some padding
        · refine ⟨1, data.length - 4, ?_, by decide, by omega, by omega, ?_, by omega⟩
          · rw [second, some.injEq] at twice
            rw [last, some.injEq] at once
            simp [unpad, low2, aligned, twice, once, show 1 < data.length by omega,
              show 0 < data.length by omega, show ¬data.length < 4 by omega]
          · rw [core, if_neg (by omega), if_neg twice, if_pos once]
            congr 1
            omega
        · refine ⟨0, data.length, ?_, by decide, aligned, by omega, ?_, by omega⟩
          · rw [second, some.injEq] at twice
            rw [last, some.injEq] at once
            simp [unpad, low2, aligned, twice, once, show 1 < data.length by omega,
              show 0 < data.length by omega]
          · rw [core, if_neg (by omega), if_neg twice, if_neg once]
            exact (take_of_length_le (by omega)).symm
  · refine ⟨4 - data.length % 4, data.length - data.length % 4, ?_, by omega, by omega, by omega,
      ?_, by omega⟩
    · simp [unpad, low2, aligned]
    · rw [core, if_pos aligned]
      exact (take_of_length_le (by omega)).symm

/-- Whatever the input is, all reads are inside it and exactly the result is written. -/
theorem decode_eq (data : List UInt8) :
    decode data = some ⟨(decodeList (core data)).length, decodeList (core data)⟩ := by
  obtain ⟨paddingBytes, unpaddedLength, found, short, aligned, inside, isCore, whole⟩ :=
    unpad_spec data
  have groups := decodeGroups_eq data 0 ((unpaddedLength + 3) / 4) (by omega)
  have tail := decodeTail_eq data unpaddedLength short inside
  have all : 4 * ((unpaddedLength + 3) / 4) = unpaddedLength := by omega
  rw [drop_zero, all] at groups
  generalize count : (4 - paddingBytes) % 4 = left at inside isCore whole tail
  have full : (data.take unpaddedLength).length % 4 = 0 := by
    rw [length_take]
    omega
  have joined : decodeList (data.take unpaddedLength) ++
      decodeList ((data.drop unpaddedLength).take left) =
      decodeList (core data) := by
    rw [isCore, take_add, decodeList_append full]
  have size : (data.length + 3) / 4 * 3 - paddingBytes = (decodeList (core data)).length := by
    rw [length_decodeList, isCore, length_take]
    omega
  have enough : ¬(data.length + 3) / 4 * 3 < paddingBytes := by omega
  simp only [decode, found, groups, tail, enough, bind_eq_bind, bind_some, if_false, pure]
  rw [joined, size]

/-! ## What has been encoded -/

theorem decode_encodeCharacter {index : Nat} (inside : index < 64) :
    decodeCharacter (encodeCharacter index) = index ∧ encodeCharacter index ≠ padding := by
  revert index
  decide

theorem value_eq {x y z w : Nat} (y' : y < 64) (z' : z < 64) (w' : w < 64) :
    x <<< 18 ||| y <<< 12 ||| z <<< 6 ||| w = 262144 * x + (4096 * y + (64 * z + w)) := by
  have low : z <<< 6 ||| w = 64 * z + w := join 6 w'
  have middle : y <<< 12 ||| (64 * z + w) = 4096 * y + (64 * z + w) := join 12 (by omega)
  have high : x <<< 18 ||| (4096 * y + (64 * z + w)) = 262144 * x + (4096 * y + (64 * z + w)) :=
    join 18 (by omega)
  rw [Nat.or_assoc, Nat.or_assoc, low, middle, high]

theorem ofNat_eq {n : Nat} {a : UInt8} (same : n % 256 = a.toNat) : UInt8.ofNat n = a := by
  apply UInt8.toNat_inj.1
  rw [UInt8.toNat_ofNat', same]

theorem decode_bits (a b c : UInt8) :
    decodeCharacter (encodeBit00_05 a) = a.toNat / 4 ∧
      decodeCharacter (encodeBit06_07 a) = 16 * (a.toNat % 4) ∧
      decodeCharacter (encodeBit06_11 a b) = 16 * (a.toNat % 4) + b.toNat / 16 ∧
      decodeCharacter (encodeBit12_15 b) = 4 * (b.toNat % 16) ∧
      decodeCharacter (encodeBit12_17 b c) = 4 * (b.toNat % 16) + c.toNat / 64 ∧
      decodeCharacter (encodeBit18_23 c) = c.toNat % 64 := by
  have a' := a.toNat_lt
  have b' := b.toNat_lt
  have c' := c.toNat_lt
  have mask2 : a.toNat &&& 0x03 = a.toNat % 4 := low2 _
  have mask4 : b.toNat &&& 0x0f = b.toNat % 16 := and_two_pow_sub_one_eq_mod _ 4
  have mask6 : c.toNat &&& 0x3f = c.toNat % 64 := and_two_pow_sub_one_eq_mod _ 6
  have second : ((a.toNat &&& 0x03) <<< 4) ||| (b.toNat >>> 4) =
      16 * (a.toNat % 4) + b.toNat / 16 := by
    rw [mask2, shiftRight_eq_div_pow]
    exact join 4 (by omega)
  have third : ((b.toNat &&& 0x0f) <<< 2) ||| (c.toNat >>> 6) =
      4 * (b.toNat % 16) + c.toNat / 64 := by
    rw [mask4, shiftRight_eq_div_pow]
    exact join 2 (by omega)
  unfold encodeBit00_05 encodeBit06_07 encodeBit06_11 encodeBit12_15 encodeBit12_17 encodeBit18_23
  rw [second, third, mask2, mask4, mask6, shiftRight_eq_div_pow, shiftLeft_eq,
    shiftLeft_eq]
  refine ⟨?_, ?_, ?_, ?_, ?_, ?_⟩
  · exact (decode_encodeCharacter (by omega)).1
  · rw [(decode_encodeCharacter (by omega)).1]
    omega
  · exact (decode_encodeCharacter (by omega)).1
  · rw [(decode_encodeCharacter (by omega)).1]
    omega
  · exact (decode_encodeCharacter (by omega)).1
  · exact (decode_encodeCharacter (by omega)).1

theorem encodeCharacter_ne (index : Nat) : encodeCharacter index ≠ padding := by
  by_cases inside : index < 64
  · exact (decode_encodeCharacter inside).2
  · have outside : encodeCharacter index = 0 := getD_eq_default _ _ (not_lt.1 inside)
    rw [outside]
    decide

def unpadded (data : List UInt8) : List UInt8 := data.filter (· != padding)

theorem unpadded_cons (index : Nat) (data : List UInt8) :
    unpadded (encodeCharacter index :: data) = encodeCharacter index :: unpadded data :=
  filter_cons_of_pos (bne_iff_ne.2 (encodeCharacter_ne index))

theorem encodeGroups_split (data : List UInt8) : ∃ count, count ≤ 2 ∧
    encodeGroups data = unpadded (encodeGroups data) ++ replicate count padding ∧
      (encodeGroups data).length = (data.length + 2) / 3 * 4 := by
  induction data using encodeGroups.induct with
  | case1 a b c rest ih =>
    obtain ⟨count, few, split, length⟩ := ih
    refine ⟨count, few, ?_, ?_⟩
    · simp only [encodeGroups, encodeBit00_05, encodeBit06_11, encodeBit12_17, encodeBit18_23,
        unpadded_cons,
        cons_append, ← split]
    · simp only [encodeGroups, length_cons, length]
      omega
  | case2 a b =>
    refine ⟨1, by decide, ?_, by simp [encodeGroups]⟩
    simp only [encodeGroups, encodeBit00_05, encodeBit06_11, encodeBit12_15, unpadded_cons]
    rfl
  | case3 a =>
    refine ⟨2, by decide, ?_, by simp [encodeGroups]⟩
    simp only [encodeGroups, encodeBit00_05, encodeBit06_07, unpadded_cons]
    rfl
  | case4 => exact ⟨0, by decide, rfl, rfl⟩

theorem decodeList_unpadded (data : List UInt8) :
    decodeList (unpadded (encodeGroups data)) = data := by
  induction data using encodeGroups.induct with
  | case1 a b c rest ih =>
    have bits := decode_bits a b c
    have a' := a.toNat_lt
    have b' := b.toNat_lt
    have c' := c.toNat_lt
    have group : unpadded (encodeGroups (a :: b :: c :: rest)) =
        encodeBit00_05 a :: encodeBit06_11 a b ::
        encodeBit12_17 b c :: encodeBit18_23 c :: unpadded (encodeGroups rest) := by
      simp only [encodeGroups, encodeBit00_05, encodeBit06_11, encodeBit12_17, encodeBit18_23,
        unpadded_cons]
    rw [group, decodeList, ih, bits.1, bits.2.2.1, bits.2.2.2.2.1, bits.2.2.2.2.2,
      value_eq (by omega) (by omega) (by omega),
      shiftRight_eq_div_pow, shiftRight_eq_div_pow, ofNat_eq (a := a) (by omega),
      ofNat_eq (a := b) (by omega), ofNat_eq (a := c) (by omega)]
  | case2 a b =>
    have bits := decode_bits a b 0
    have a' := a.toNat_lt
    have b' := b.toNat_lt
    have group : unpadded (encodeGroups [a, b]) =
        [encodeBit00_05 a, encodeBit06_11 a b, encodeBit12_15 b] := by
      simp only [encodeGroups, encodeBit00_05, encodeBit06_11, encodeBit12_15, unpadded_cons]
      rfl
    have value :=
      value_eq (x := a.toNat / 4) (y := 16 * (a.toNat % 4) + b.toNat / 16) (z := 4 * (b.toNat % 16))
      (w := 0) (by omega) (by omega) (by omega)
    rw [or_zero] at value
    rw [group, decodeList, bits.1, bits.2.2.1, bits.2.2.2.1, value, shiftRight_eq_div_pow,
      shiftRight_eq_div_pow,
      ofNat_eq (a := a) (by omega), ofNat_eq (a := b) (by omega)]
  | case3 a =>
    have bits := decode_bits a 0 0
    have a' := a.toNat_lt
    have group : unpadded (encodeGroups [a]) = [encodeBit00_05 a, encodeBit06_07 a] := by
      simp only [encodeGroups, encodeBit00_05, encodeBit06_07, unpadded_cons]
      rfl
    have value :=
      value_eq (x := a.toNat / 4) (y := 16 * (a.toNat % 4)) (z := 0) (w := 0) (by omega) (by omega)
      (by omega)
    rw [zero_shiftLeft, or_zero, or_zero] at value
    rw [group, decodeList, bits.1, bits.2.1, value, shiftRight_eq_div_pow,
      ofNat_eq (a := a) (by omega)]
  | case4 => rfl

theorem core_unpadded {body : List UInt8} {count : Nat} (free : padding ∉ body) (few : count ≤ 2)
    (aligned : (body ++ replicate count padding).length % 4 = 0) :
    core (body ++ replicate count padding) = body ∧ core body = body := by
  have inBody (i : Nat) : body[i]? ≠ some padding := fun here => free (mem_of_getElem? here)
  have length : (body ++ replicate count padding).length = body.length + count := by
    rw [length_append, length_replicate]
  rw [length] at aligned
  have alone : core body = body := by
    unfold core
    rw [if_neg (inBody _), if_neg (inBody _)]
    split <;> rfl
  refine ⟨?_, alone⟩
  have counts : count = 0 ∨ count = 1 ∨ count = 2 := by omega
  rcases counts with rfl | rfl | rfl
  · rw [replicate_zero, append_nil]
    exact alone
  · have last : (body ++ replicate 1 padding)[body.length]? = some padding := by simp
    have before : (body ++ replicate 1 padding)[body.length - 1]? ≠ some padding := by
      rw [getElem?_append_left (by omega)]
      exact inBody _
    rw [core, length, Nat.add_sub_cancel, show body.length + 1 - 2 = body.length - 1 by omega,
      if_neg (by omega),
      if_neg before, if_pos last]
    exact take_left
  · have last : (body ++ replicate 2 padding)[body.length]? = some padding := by simp
    rw [core, length, Nat.add_sub_cancel, if_neg (by omega), if_pos last]
    exact take_left

theorem core_encode (data : List UInt8) : core (encodeGroups data) = unpadded (encodeGroups data) ∧
    core (unpadded (encodeGroups data)) = unpadded (encodeGroups data) := by
  obtain ⟨count, few, split, length⟩ := encodeGroups_split data
  have free : padding ∉ unpadded (encodeGroups data) := by
    intro member
    exact absurd rfl (bne_iff_ne.1 (mem_filter.1 member).2)
  have aligned : (unpadded (encodeGroups data) ++ replicate count padding).length % 4 = 0 := by
    rw [← split, length]
    omega
  have both := core_unpadded free few aligned
  rw [← split] at both
  exact both

/-- Encoding can be undone, with and without its padding, and decoding anything stays inside the
input and writes exactly its result. -/
theorem decode_encode (data : List UInt8) :
    decode (encode data) = some ⟨data.length, data⟩ ∧
      decode (unpadded (encode data)) = some ⟨data.length, data⟩ ∧
      ∃ written, decode data = some ⟨written.length, written⟩ := by
  have enough : ¬(data.length + 2) / 3 * 4 < data.length := by omega
  rw [encode, if_neg enough, decode_eq, decode_eq, (core_encode data).1, (core_encode data).2,
    decodeList_unpadded, decode_eq]
  exact ⟨rfl, rfl, _, rfl⟩

end PBase64Codec

end PadOS.Utils
