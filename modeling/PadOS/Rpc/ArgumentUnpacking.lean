import PadOS.Rpc.ArgumentPacker
import Mathlib.Data.List.Forall2

/-!
# Packing and unpacking arguments

Arguments whose padded sizes stay below 2 ^ 31 bytes in sum come back as they were packed. A buffer
that was received is left by the code when an argument ends within it but its padding does not, and
another argument follows.
-/

namespace PadOS.Rpc

open ByteOrder List

/-- A type that a `sizeof` can be taken of. -/
def ArgType.Valid : ArgType → Prop
  | .plain size => 0 < size ∧ size < 2 ^ 31
  | .string => True
  | .vector size => 0 < size ∧ size < 2 ^ 31

/-- A value of the type. Strings and vectors are bounded by `max_size()`. -/
def Argument.Fits : Argument → ArgType → Prop
  | .plain bytes, .plain size => bytes.length = size
  | .string bytes, .string => bytes.length ≤ maxSize
  | .vector count bytes, .vector size => bytes.length = count * size ∧ bytes.length ≤ maxSize
  | _, _ => False

instance : (type : ArgType) → Decidable type.Valid
  | .plain _ => inferInstanceAs (Decidable (_ ∧ _))
  | .string => inferInstanceAs (Decidable True)
  | .vector _ => inferInstanceAs (Decidable (_ ∧ _))

/-- The size without the padding, as a number without bound. -/
def Argument.size : Argument → Nat
  | .plain bytes => bytes.length
  | .string bytes => 4 + bytes.length
  | .vector _ bytes => 4 + bytes.length

def Argument.bytes : Argument → List UInt8
  | .plain bytes => bytes
  | .string bytes => bytes
  | .vector _ bytes => bytes

def pad (size : Nat) : Nat := (size + 3) / 4 * 4

/-- The size of all arguments with their padding. -/
def totalSize (args : List Argument) : Nat := (args.map fun arg => pad arg.size).sum

variable {value : Argument} {type : ArgType} {args : List Argument} {types : List ArgType}
  {ahead : List UInt8} {length n size result : Nat}

theorem sizeT_eq (small : n < 2 ^ 32) : sizeT n = n := Nat.mod_eq_of_lt small

theorem align_eq (small : n < 2 ^ 31) : align_argument_size n = pad n := by
  rw [align_argument_size, sizeT_eq (by omega)]
  rfl

theorem nonnegative_iff (small : n < 2 ^ 32) : nonnegative n = true ↔ n < 2 ^ 31 := by
  rw [nonnegative, sizeT_eq small, decide_eq_true_eq]

theorem le_pad (size : Nat) : size ≤ pad size := by
  unfold pad
  omega

theorem pad_lt (size : Nat) : pad size < size + 4 := by
  unfold pad
  omega

/-! ## One argument -/

theorem size_lt (valid : type.Valid) (fits : value.Fits type) : value.size < 2 ^ 31 + 4 := by
  cases value with
  | plain bytes =>
    cases type with
    | plain size =>
      change bytes.length = size at fits
      have bound := valid.2
      show bytes.length < _
      omega
    | string => cases fits
    | vector size => cases fits
  | string bytes =>
    cases type with
    | plain size => cases fits
    | string =>
      change bytes.length ≤ 2 ^ 31 - 1 at fits
      show 4 + bytes.length < _
      omega
    | vector size => cases fits
  | vector count bytes =>
    cases type with
    | plain size => cases fits
    | string => cases fits
    | vector size =>
      have bound : bytes.length ≤ 2 ^ 31 - 1 := fits.2
      show 4 + bytes.length < _
      omega

theorem getSize_eq (small : value.size < 2 ^ 32) : value.GetSize = value.size := by
  cases value with
  | plain bytes | string bytes | vector count bytes => exact sizeT_eq small

theorem length_image (value : Argument) : value.image.length = value.size := by
  cases value with
  | plain bytes => rfl
  | string bytes | vector count bytes => simp [Argument.image, Argument.size]

theorem load_append {bytes : List UInt8} (behind : List UInt8) (same : n = bytes.length) :
    load (bytes ++ behind) n = .ok bytes := by
  rw [load, same, if_pos (by simp), take_left]

theorem read_image (valid : type.Valid) (fits : value.Fits type) (behind : List UInt8)
    (long : value.size ≤ length) (small : value.size < 2 ^ 32) :
    Read type (value.image ++ behind) length = .ok (value, value.size) := by
  cases value with
  | plain bytes =>
    cases type with
    | plain size =>
      change bytes.length = size at fits
      change bytes.length ≤ length at long
      subst fits
      show Read (.plain bytes.length) (bytes ++ behind) length = _
      rw [Read, if_pos long, load_append behind rfl]
      rfl
    | string => cases fits
    | vector size => cases fits
  | string bytes =>
    cases type with
    | plain size => cases fits
    | string =>
      change 4 + bytes.length ≤ length at long
      change 4 + bytes.length < 2 ^ 32 at small
      change bytes.length ≤ maxSize at fits
      have header : littleEndian (toBytes 4 bytes.length) = bytes.length := by
        rw [littleEndian_toBytes]
        exact Nat.mod_eq_of_lt (by omega)
      have rest : (toBytes 4 bytes.length ++ (bytes ++ behind)).drop 4 = bytes ++ behind :=
        drop_left' (length_toBytes _ _)
      show Read .string ((toBytes 4 bytes.length ++ bytes) ++ behind) length = _
      rw [append_assoc, Read, if_neg (by omega), load_append _ (length_toBytes _ _).symm]
      simp only [bind, Except.bind, header, rest]
      rw [sizeT_eq small, if_neg (by omega), if_neg (by omega), load_append behind rfl]
      rfl
    | vector size => cases fits
  | vector count bytes =>
    cases type with
    | plain size => cases fits
    | string => cases fits
    | vector size =>
      change 4 + bytes.length ≤ length at long
      change 4 + bytes.length < 2 ^ 32 at small
      rcases fits with ⟨exactly, _⟩
      have few : count ≤ count * size := Nat.le_mul_of_pos_right _ valid.1
      have header : littleEndian (toBytes 4 count) = count := by
        rw [littleEndian_toBytes]
        exact Nat.mod_eq_of_lt (by omega)
      have rest : (toBytes 4 count ++ (bytes ++ behind)).drop 4 = bytes ++ behind :=
        drop_left' (length_toBytes _ _)
      show Read (.vector size) ((toBytes 4 count ++ bytes) ++ behind) length = _
      rw [append_assoc, Read, if_neg (by omega), load_append _ (length_toBytes _ _).symm]
      simp only [bind, Except.bind, header, rest]
      rw [← exactly, sizeT_eq (n := bytes.length) (by omega), sizeT_eq small, if_neg (by omega),
        load_append behind rfl]
      rfl

theorem align_lt (n : Nat) : align_argument_size n < 2 ^ 32 := by
  unfold align_argument_size sizeT
  omega

theorem writeArg_cons (first : Argument) (rest : List Argument) :
    WriteArg ahead length (first :: rest) = (do
      let (written, result) ← Write first ahead length
      if nonnegative result then do
        let consumed := align_argument_size result
        let (behind, others) ←
          WriteArg (written.drop consumed) (sizeT (length + 2 ^ 32 - consumed)) rest
        if nonnegative others then
          return (written.take consumed ++ behind, sizeT (others + consumed))
        else .error .fails
      else .error .fails) := by
  cases rest with
  | cons second rest => rfl
  | nil =>
    simp only [WriteArg, bind, Except.bind]
    cases Write first ahead length with
    | error fault => rfl
    | ok made =>
      rcases made with ⟨written, result⟩
      have whole := sizeT_eq (align_lt result)
      simp only [zero_add, whole, take_append_drop]
      rfl

theorem unpackArgs_cons (first : ArgType) (rest : List ArgType) :
    UnpackArgs ahead length (first :: rest) = (do
      let (value, result) ← Read first ahead length
      if nonnegative result then do
        let consumed := align_argument_size result
        let (values, others) ←
          UnpackArgs (ahead.drop consumed) (sizeT (length + 2 ^ 32 - consumed)) rest
        if nonnegative others then return (value :: values, sizeT (others + consumed))
        else .error .fails
      else .error .fails) := rfl

/-! ## All arguments -/

theorem totalSize_cons (value : Argument) (args : List Argument) :
    totalSize (value :: args) = pad value.size + totalSize args := rfl

section

variable (fits : Forall₂ Argument.Fits args types) (valid : ∀ type ∈ types, type.Valid)

include fits valid

theorem getSize_args
    (small : totalSize args < 2 ^ 32) :
    GetSize args = totalSize args := by
  induction fits with
  | nil => rfl
  | @cons value type args types first others ih =>
    rw [totalSize_cons] at small
    have size := size_lt (valid type (mem_cons_self ..)) first
    have same : value.GetSize = value.size := getSize_eq (by omega)
    have align : align_argument_size value.size = pad value.size := by
      rw [align_argument_size, sizeT_eq (by omega)]
      rfl
    have rest := ih (fun t isOne => valid t (mem_cons_of_mem _ isOne)) (by omega)
    have both : GetSize (value :: args) =
        sizeT (align_argument_size value.GetSize + GetSize args) := by
      cases args with
      | nil => exact (sizeT_eq (align_lt _)).symm
      | cons second more => rfl
    rw [both, same, align, rest, sizeT_eq small, totalSize_cons]

/-- A buffer of the size that was computed takes the arguments and gives them back. -/
theorem writeArg_unpackArgs
    (small : totalSize args < 2 ^ 31)
    (exactly : ahead.length = totalSize args) :
    ∃ packed, WriteArg ahead (totalSize args) args = .ok (packed, totalSize args) ∧
      packed.length = totalSize args ∧
      UnpackArgs packed (totalSize args) types = .ok (args, totalSize args) := by
  induction fits generalizing ahead with
  | nil => exact ⟨ahead, rfl, exactly, rfl⟩
  | @cons value type args types first others ih =>
    rw [totalSize_cons] at small exactly ⊢
    have above := le_pad value.size
    have isValid := valid type (mem_cons_self ..)
    have align : align_argument_size value.size = pad value.size := align_eq (by omega)
    have nonneg : nonnegative value.size = true := (nonnegative_iff (by omega)).mpr (by omega)
    have left : sizeT (pad value.size + totalSize args + 2 ^ 32 - pad value.size) =
        totalSize args := by
      unfold sizeT
      omega
    have size : sizeT (totalSize args + pad value.size) = pad value.size + totalSize args := by
      rw [sizeT_eq (by omega), add_comm]
    have restNonneg : nonnegative (totalSize args) = true :=
      (nonnegative_iff (by omega)).mpr (by omega)
    have image := length_image value
    have written : Write value ahead (pad value.size + totalSize args) =
        .ok (value.image ++ ahead.drop value.size, value.size) := by
      have stored : store ahead value.image = .ok (value.image ++ ahead.drop value.size) := by
        rw [store, if_pos (by omega), image]
      rw [Write, getSize_eq (by omega), if_pos (by omega), stored]
      rfl
    have long : (value.image ++ ahead.drop value.size).length = pad value.size + totalSize args := by
      rw [length_append, length_drop, image]
      omega
    rcases @ih ((value.image ++ ahead.drop value.size).drop (pad value.size))
      (fun t isOne => valid t (mem_cons_of_mem _ isOne)) (by omega)
      (by rw [length_drop, long]; omega) with ⟨behind, writes, behindLong, unpacks⟩
    have front : ((value.image ++ ahead.drop value.size).take (pad value.size)).length =
        pad value.size := by
      rw [length_take, long]
      omega
    have starts : (value.image ++ ahead.drop value.size).take (pad value.size) =
        value.image ++ (ahead.drop value.size).take (pad value.size - value.size) := by
      rw [take_append, image, take_of_length_le (by omega)]
    refine ⟨(value.image ++ ahead.drop value.size).take (pad value.size) ++ behind, ?_, ?_, ?_⟩
    · rw [writeArg_cons, written]
      simp only [bind, Except.bind, nonneg, if_true, align, left, writes, restNonneg, size]
      rfl
    · rw [length_append, front, behindLong]
    · have read : Read type ((value.image ++ ahead.drop value.size).take (pad value.size) ++ behind)
          (pad value.size + totalSize args) = .ok (value, value.size) := by
        rw [starts, append_assoc]
        exact read_image isValid first _ (by omega) (by omega)
      rw [unpackArgs_cons, read]
      simp only [bind, Except.bind, nonneg, if_true, align, left]
      rw [drop_left' front, unpacks]
      simp only [restNonneg, if_true, size]
      rfl

end

theorem bind_eq_ok {α β : Type} {x : Checked α} {f : α → Checked β} {b : β} :
    x >>= f = .ok b ↔ ∃ a, x = .ok a ∧ f a = .ok b := by
  cases x with
  | error fault => simp [bind, Except.bind]
  | ok a => simp [bind, Except.bind]

theorem load_ok {bytes : List UInt8} (loaded : load ahead n = .ok bytes) :
    bytes = ahead.take n ∧ bytes.length = n := by
  unfold load at loaded
  split at loaded
  · rename_i inside
    rw [← Except.ok.inj loaded, length_take, min_eq_left inside]
    exact ⟨rfl, rfl⟩
  · cases loaded

theorem read_ok (read : Read type ahead length = .ok (value, result)) :
    ∃ skip count, value.bytes = (ahead.drop skip).take count ∧
      (value.Fits type → type.Valid → result = value.size) := by
  cases type with
  | plain size =>
    rw [Read] at read
    split at read
    · rcases bind_eq_ok.mp read with ⟨bytes, loaded, returned⟩
      cases returned
      rcases load_ok loaded with ⟨rfl, long⟩
      exact ⟨0, _, rfl, fun _ _ => long.symm⟩
    · cases read
  | string =>
    rw [Read] at read
    split at read
    · cases read
    · rcases bind_eq_ok.mp read with ⟨header, _, read⟩
      dsimp only at read
      split at read
      · cases read
      · split at read
        · cases read
        · rename_i short
          rcases bind_eq_ok.mp read with ⟨bytes, loaded, returned⟩
          cases returned
          rcases load_ok loaded with ⟨rfl, long⟩
          refine ⟨4, _, rfl, fun _ _ => ?_⟩
          change ¬littleEndian header > 2 ^ 31 - 1 at short
          rw [sizeT_eq (by omega)]
          exact congrArg (4 + ·) long.symm
  | vector size =>
    rw [Read] at read
    split at read
    · cases read
    · rcases bind_eq_ok.mp read with ⟨header, _, read⟩
      dsimp only at read
      split at read
      · cases read
      · rcases bind_eq_ok.mp read with ⟨bytes, loaded, returned⟩
        cases returned
        rcases load_ok loaded with ⟨rfl, long⟩
        refine ⟨4, _, rfl, fun fits valid => ?_⟩
        have bound := size_lt valid fits
        change 4 + _ < _ at bound
        rw [long] at bound
        rw [sizeT_eq (n := littleEndian header * size) (by omega), sizeT_eq (by omega)]
        exact congrArg (4 + ·) long.symm

theorem unpackArgs_cons_ok {values : List Argument}
    (unpacked : UnpackArgs ahead length (type :: types) = .ok (values, result)) :
    ∃ value used others more, Read type ahead length = .ok (value, used) ∧ nonnegative used = true ∧
      UnpackArgs (ahead.drop (align_argument_size used))
        (sizeT (length + 2 ^ 32 - align_argument_size used)) types = .ok (others, more) ∧
      nonnegative more = true ∧ values = value :: others ∧
      result = sizeT (more + align_argument_size used) := by
  rw [unpackArgs_cons] at unpacked
  rcases bind_eq_ok.mp unpacked with ⟨⟨value, used⟩, read, unpacked⟩
  dsimp only at unpacked
  split at unpacked
  · rename_i nonneg
    rcases bind_eq_ok.mp unpacked with ⟨⟨others, more⟩, rest, unpacked⟩
    dsimp only at unpacked
    split at unpacked
    · rename_i moreNonneg
      cases unpacked
      exact ⟨value, used, others, more, read, nonneg, rest, moreNonneg, rfl, rfl⟩
    · cases unpacked
  · cases unpacked

theorem unpackArgs_size (fits : Forall₂ Argument.Fits args types)
    (valid : ∀ type ∈ types, type.Valid)
    (unpacked : UnpackArgs ahead length types = .ok (args, result)) :
    result = totalSize args ∧ result < 2 ^ 32 := by
  induction fits generalizing ahead length result with
  | nil =>
    cases unpacked
    exact ⟨rfl, by decide⟩
  | @cons value type args types first others ih =>
    rcases unpackArgs_cons_ok unpacked with
      ⟨other, used, values, more, read, nonneg, rest, moreNonneg, parts, rfl⟩
    cases parts
    have isValid := valid type (mem_cons_self ..)
    have bound := size_lt isValid first
    rcases read_ok read with ⟨_, _, _, exactly⟩
    have same := exactly first isValid
    rcases ih (fun t isOne => valid t (mem_cons_of_mem _ isOne)) rest with ⟨moreSame, moreBound⟩
    rw [same] at nonneg ⊢
    have small := (nonnegative_iff (by omega)).mp nonneg
    have moreSmall := (nonnegative_iff moreBound).mp moreNonneg
    have padded : pad value.size ≤ 2 ^ 31 := by
      unfold pad
      omega
    rw [align_eq small, totalSize_cons, ← moreSame, sizeT_eq (by omega)]
    exact ⟨add_comm _ _, by omega⟩

/-- Packing into a buffer of the size computed beforehand takes that size, and dispatching the
buffer gives the arguments back. -/
def RoundTrips (types : List ArgType) (args : List Argument) : Prop :=
  ∀ buffer : List UInt8, buffer.length = GetSize args →
    ∃ packed, Emit args buffer = .ok (packed, GetSize args) ∧ packed.length = GetSize args ∧
      Dispatch types packed = .ok args

theorem arguments_roundTrip_iff (fits : Forall₂ Argument.Fits args types)
    (valid : ∀ type ∈ types, type.Valid) : RoundTrips types args ↔ totalSize args < 2 ^ 31 := by
  constructor
  · intro roundTrips
    rcases roundTrips (replicate (GetSize args) 0) (length_replicate ..) with
      ⟨packed, _, _, dispatched⟩
    rcases bind_eq_ok.mp dispatched with ⟨⟨values, result⟩, unpacked, returned⟩
    dsimp only at returned
    split at returned
    · rename_i nonneg
      cases returned
      rcases unpackArgs_size fits valid unpacked with ⟨same, bound⟩
      rw [← same]
      exact (nonnegative_iff bound).mp nonneg
    · cases returned
  · intro small buffer long
    have size := getSize_args fits valid (by omega)
    rw [size] at long ⊢
    rcases writeArg_unpackArgs fits valid small long with ⟨packed, writes, packedLong, unpacks⟩
    refine ⟨packed, ?_, packedLong, ?_⟩
    · rw [Emit, size, writes]
    · have nonneg : nonnegative (totalSize args) = true :=
        (nonnegative_iff (by omega)).mpr small
      unfold Dispatch
      rw [packedLong, unpacks]
      simp only [bind, Except.bind, nonneg, if_true]
      rfl

/-! ## Any buffer -/

/-- The size that an argument states, if its header is there. -/
def statedSize (type : ArgType) (ahead : List UInt8) : Option Nat :=
  match type with
  | .plain size => some size
  | .string => if ahead.length < 4 then none else some (4 + littleEndian (ahead.take 4))
  | .vector size =>
    if ahead.length < 4 then none else some (4 + littleEndian (ahead.take 4) * size)

def ArgType.isVector : ArgType → Bool
  | .vector _ => true
  | _ => false

/-- No vector's size wraps so that it seems to fit, and of every argument that ends within the
buffer and that another one follows, the padding ends within it too. -/
def Padded : List ArgType → List UInt8 → Prop
  | [], _ => True
  | type :: rest, ahead =>
    match statedSize type ahead with
    | none => True
    | some size =>
      (type.isVector = true → size < 2 ^ 32 ∨ ahead.length < sizeT size) ∧
        (size ≤ ahead.length → size < 2 ^ 31 → rest ≠ [] →
          pad size ≤ ahead.length ∧ Padded rest (ahead.drop (pad size)))

/-- Nothing outside of the buffer is read: the call fails, or its arguments lie in the buffer. -/
def Safe (types : List ArgType) (buffer : List UInt8) : Prop :=
  match Dispatch types buffer with
  | .ok values => ∀ value ∈ values, value.bytes <:+: buffer
  | .error .fails => True
  | .error .outside => False

theorem load_eq (inside : n ≤ ahead.length) : load ahead n = .ok (ahead.take n) := if_pos inside

theorem take_drop_infix (ahead : List UInt8) (skip n : Nat) :
    (ahead.drop skip).take n <:+: ahead := by
  have taken : (ahead.drop skip).take n <+: ahead.drop skip := take_prefix n _
  exact taken.isInfix.trans (drop_suffix skip ahead).isInfix

theorem unpackArgs_infix {values : List Argument}
    (unpacked : UnpackArgs ahead length types = .ok (values, result)) :
    ∀ value ∈ values, value.bytes <:+: ahead := by
  induction types generalizing ahead length values result with
  | nil =>
    cases unpacked
    exact fun value isOne => nomatch isOne
  | cons type rest ih =>
    rcases unpackArgs_cons_ok unpacked with ⟨first, used, others, more, read, _, behind, _, rfl, _⟩
    intro value isOne
    rcases mem_cons.mp isOne with rfl | isOther
    · rcases read_ok read with ⟨skip, count, bytes, _⟩
      rw [bytes]
      exact take_drop_infix ahead skip count
    · exact (ih behind value isOther).trans (drop_suffix _ _).isInfix

/-- How `Read` ends when the length is that of the buffer. -/
inductive ReadEnds (type : ArgType) (ahead : List UInt8) : Prop
  | noHeader (none : statedSize type ahead = none)
      (read : Read type ahead ahead.length = .error .fails)
  | value (size : Nat) (value : Argument) (stated : statedSize type ahead = some size)
      (inside : size ≤ ahead.length) (read : Read type ahead ahead.length = .ok (value, size))
  | tooLong (size : Nat) (stated : statedSize type ahead = some size)
      (large : ahead.length < size ∨ 2 ^ 31 ≤ size)
      (noWrap : type.isVector = true → size < 2 ^ 32 ∨ ahead.length < sizeT size)
      (read : Read type ahead ahead.length = .error .fails)
  | wraps (size : Nat) (stated : statedSize type ahead = some size) (isVector : type.isVector = true)
      (large : 2 ^ 32 ≤ size) (seems : sizeT size ≤ ahead.length)
      (read : Read type ahead ahead.length = .error .outside)

theorem read_ends (type : ArgType) (small : ahead.length < 2 ^ 32) : ReadEnds type ahead := by
  cases type with
  | plain size =>
    by_cases inside : size ≤ ahead.length
    · refine .value size (.plain (ahead.take size)) rfl inside ?_
      rw [Read, if_pos inside, load_eq inside]
      rfl
    · refine .tooLong size rfl (.inl (by omega)) nofun ?_
      rw [Read, if_neg inside]
  | string =>
    by_cases header : ahead.length < 4
    · refine .noHeader (if_pos header) ?_
      rw [Read, if_pos header]
    · have stated : statedSize .string ahead = some (4 + littleEndian (ahead.take 4)) :=
        if_neg header
      generalize strLength_eq : littleEndian (ahead.take 4) = strLength at stated
      have read : Read .string ahead ahead.length =
          if ahead.length < sizeT (4 + strLength) then .error .fails
          else if strLength > maxSize then .error .fails
          else do
            let bytes ← load (ahead.drop 4) strLength
            return (.string bytes, sizeT (4 + strLength)) := by
        rw [Read, if_neg header, load_eq (by omega), ← strLength_eq]
        rfl
      by_cases long : strLength > maxSize
      · refine .tooLong _ stated (.inr ?_) nofun ?_
        · change strLength > 2 ^ 31 - 1 at long
          omega
        · rw [read, if_pos long, ite_self]
      · have exactly : sizeT (4 + strLength) = 4 + strLength := by
          change ¬strLength > 2 ^ 31 - 1 at long
          exact sizeT_eq (by omega)
        rw [exactly, if_neg long] at read
        by_cases inside : 4 + strLength ≤ ahead.length
        · have fits : strLength ≤ (ahead.drop 4).length := by
            rw [length_drop]
            omega
          refine .value _ (.string ((ahead.drop 4).take strLength)) stated inside ?_
          rw [read, if_neg (by omega), load_eq fits]
          rfl
        · refine .tooLong _ stated (.inl (by omega)) nofun ?_
          rw [read, if_pos (by omega)]
  | vector size =>
    by_cases header : ahead.length < 4
    · refine .noHeader (if_pos header) ?_
      rw [Read, if_pos header]
    · have stated : statedSize (.vector size) ahead =
          some (4 + littleEndian (ahead.take 4) * size) := if_neg header
      generalize count_eq : littleEndian (ahead.take 4) = count at stated
      have total : sizeT (4 + sizeT (count * size)) = sizeT (4 + count * size) :=
        Nat.add_mod_mod ..
      have read : Read (.vector size) ahead ahead.length =
          if ahead.length < sizeT (4 + count * size) then .error .fails
          else do
            let bytes ← load (ahead.drop 4) (count * size)
            return (.vector count bytes, sizeT (4 + count * size)) := by
        rw [Read, if_neg header, load_eq (by omega), ← total, ← count_eq]
        rfl
      by_cases inside : 4 + count * size ≤ ahead.length
      · have fits : count * size ≤ (ahead.drop 4).length := by
          rw [length_drop]
          omega
        have exactly : sizeT (4 + count * size) = 4 + count * size := sizeT_eq (by omega)
        refine .value _ (.vector count ((ahead.drop 4).take (count * size))) stated inside ?_
        rw [read, exactly, if_neg (by omega), load_eq fits]
        rfl
      · by_cases seems : ahead.length < sizeT (4 + count * size)
        · refine .tooLong _ stated (.inl (by omega)) (fun _ => .inr seems) ?_
          rw [read, if_pos seems]
        · have large : 2 ^ 32 ≤ 4 + count * size := by
            by_contra below
            rw [sizeT_eq (by omega)] at seems
            omega
          refine .wraps _ stated rfl large (by omega) ?_
          have beyond : ¬count * size ≤ (ahead.drop 4).length := by
            rw [length_drop]
            omega
          rw [read, if_neg seems, load, if_neg beyond]
          rfl

theorem read_behind (valid : type.Valid) (huge : 2 ^ 31 ≤ length) :
    Read type [] length = .error .outside := by
  have empty : ∀ count, 0 < count → load [] count = .error .outside := by
    intro count positive
    exact if_neg (by simpa using Nat.ne_of_gt positive)
  cases type with
  | plain size =>
    have bound := valid.2
    rw [Read, if_pos (by omega), empty size valid.1]
    rfl
  | string | vector size =>
    rw [Read, if_neg (by omega), empty 4 (by decide)]
    rfl

theorem bind_ne_outside {α β : Type} {x : Checked α} {f : α → Checked β}
    (inside : ∀ a, f a ≠ .error .outside) : x >>= f ≠ .error .outside ↔ x ≠ .error .outside := by
  cases x with
  | error fault => simp [bind, Except.bind]
  | ok a => exact iff_of_true (inside a) nofun

theorem unpackArgs_read {rest : List ArgType} (read : Read type ahead length = .ok (value, size))
    (nonneg : nonnegative size = true) :
    UnpackArgs ahead length (type :: rest) ≠ .error .outside ↔
      UnpackArgs (ahead.drop (align_argument_size size))
        (sizeT (length + 2 ^ 32 - align_argument_size size)) rest ≠ .error .outside := by
  have same : UnpackArgs ahead length (type :: rest) = (do
      let (values, others) ← UnpackArgs (ahead.drop (align_argument_size size))
        (sizeT (length + 2 ^ 32 - align_argument_size size)) rest
      if nonnegative others then
        return (value :: values, sizeT (others + align_argument_size size))
      else .error .fails) := by
    rw [unpackArgs_cons, read]
    exact if_pos nonneg
  rw [same]
  refine bind_ne_outside fun made => ?_
  dsimp only
  split
  · exact nofun
  · exact nofun

theorem unpackArgs_outside_iff (valid : ∀ type ∈ types, type.Valid)
    (small : ahead.length < 2 ^ 32) :
    UnpackArgs ahead ahead.length types ≠ .error .outside ↔ Padded types ahead := by
  induction types generalizing ahead with
  | nil => exact iff_of_true nofun trivial
  | cons type rest ih =>
    rw [Padded]
    cases read_ends type small with
    | noHeader none read =>
      rw [none, unpackArgs_cons, read]
      exact iff_of_true nofun trivial
    | tooLong size stated large noWrap read =>
      rw [stated, unpackArgs_cons, read]
      exact iff_of_true nofun ⟨noWrap, fun inside below => by omega⟩
    | wraps size stated isVector large seems read =>
      rw [stated, unpackArgs_cons, read]
      refine iff_of_false (fun differs => differs rfl) fun padded => ?_
      have either := padded.1 isVector
      omega
    | value size value stated inside read =>
      rw [stated]
      have narrow : type.isVector = true → size < 2 ^ 32 ∨ ahead.length < sizeT size :=
        fun _ => .inl (by omega)
      by_cases below : size < 2 ^ 31
      · have nonneg : nonnegative size = true := (nonnegative_iff (by omega)).mpr below
        rw [unpackArgs_read read nonneg, align_eq below]
        cases rest with
        | nil => exact iff_of_true nofun ⟨narrow, fun _ _ more => absurd rfl more⟩
        | cons second more =>
          by_cases padded : pad size ≤ ahead.length
          · have left : sizeT (ahead.length + 2 ^ 32 - pad size) =
                (ahead.drop (pad size)).length := by
              rw [length_drop, sizeT]
              omega
            have shorter : (ahead.drop (pad size)).length < 2 ^ 32 := by
              rw [length_drop]
              omega
            rw [left, ih (fun t isOne => valid t (mem_cons_of_mem _ isOne)) shorter]
            exact ⟨fun others => ⟨narrow, fun _ _ _ => ⟨padded, others⟩⟩,
              fun both => (both.2 inside below (cons_ne_nil _ _)).2⟩
          · have above := pad_lt size
            have huge : 2 ^ 31 ≤ sizeT (ahead.length + 2 ^ 32 - pad size) := by
              rw [sizeT_eq (by omega)]
              omega
            have empty : ahead.drop (pad size) = [] := drop_eq_nil_of_le (by omega)
            rw [empty, unpackArgs_cons, read_behind (valid second (by simp)) huge]
            refine iff_of_false (fun differs => differs rfl) fun both => ?_
            exact padded (both.2 inside below (cons_ne_nil _ _)).1
      · have negative : nonnegative size = false := by
          rw [Bool.eq_false_iff]
          exact mt (nonnegative_iff (by omega)).mp below
        rw [unpackArgs_cons, read]
        refine iff_of_true ?_ ⟨narrow, fun _ isBelow => absurd isBelow below⟩
        show (if nonnegative size = true then _ else (Except.error Fault.fails : Checked _)) ≠ _
        rw [negative]
        exact nofun

theorem safe_iff (valid : ∀ type ∈ types, type.Valid) {buffer : List UInt8}
    (small : buffer.length < 2 ^ 32) : Safe types buffer ↔ Padded types buffer := by
  rw [← unpackArgs_outside_iff valid small, Safe, Dispatch]
  cases unpacked : UnpackArgs buffer buffer.length types with
  | error fault =>
    cases fault with
    | fails => exact iff_of_true trivial nofun
    | outside => exact iff_of_false id (fun differs => differs rfl)
  | ok made =>
    rcases made with ⟨values, result⟩
    refine iff_of_true ?_ nofun
    by_cases nonneg : nonnegative result = true
    · simp only [bind, Except.bind, nonneg, if_true]
      exact unpackArgs_infix unpacked
    · simp only [bind, Except.bind, nonneg]
      trivial

/-- Arguments come back exactly when their padded sizes add up to less than 2 ^ 31 bytes, and a
received buffer is not left exactly when every argument that another one follows has its padding in
the buffer and no vector's size wraps. -/
theorem arguments_safe_iff (types : List ArgType) (valid : ∀ type ∈ types, type.Valid) :
    (∀ args, Forall₂ Argument.Fits args types →
      (RoundTrips types args ↔ totalSize args < 2 ^ 31)) ∧
    ∀ buffer : List UInt8, buffer.length < 2 ^ 32 → (Safe types buffer ↔ Padded types buffer) :=
  ⟨fun _ fits => arguments_roundTrip_iff fits valid, fun _ small => safe_iff valid small⟩

/-- A byte and a string. -/
theorem arguments_safe_iff_two :
    RoundTrips [.plain 1, .string] [.plain [7], .string [104, 105]] ∧
    Safe [.plain 1, .string] [7, 0, 0, 0, 2, 0, 0, 0, 104, 105] := by
  have both := arguments_safe_iff [.plain 1, .string] (by decide)
  have fits : Forall₂ Argument.Fits [.plain [7], .string [104, 105]] [.plain 1, .string] :=
    .cons (rfl : [7].length = 1) (.cons (by decide : [104, 105].length ≤ maxSize) .nil)
  have padded : Padded [.plain 1, .string] [7, 0, 0, 0, 2, 0, 0, 0, 104, 105] :=
    ⟨nofun, fun _ _ _ => ⟨by decide, nofun, fun _ _ more => absurd rfl more⟩⟩
  exact ⟨(both.1 _ fits).mpr (by decide), (both.2 _ (by decide)).mpr padded⟩

/-- A received byte that should be a byte and a word: the word is read four bytes further on. -/
theorem word_read_outside : ¬Safe [.plain 1, .plain 4] [7] := by
  have run : Dispatch [.plain 1, .plain 4] [7] = .error .outside := rfl
  rw [Safe, run]
  exact id

end PadOS.Rpc
