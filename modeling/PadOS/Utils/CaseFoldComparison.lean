import PadOS.Core.Sequence
import PadOS.Utils.CaseFolding
import PadOS.Utils.Utf8

/-! # Comparing strings without case

Each function walks over what is ASCII in both strings byte by byte and goes on with an iterator
that folds one character at a time. A loop over the iterator may take as many rounds as there
can be folded characters; with none left there is no result.
-/

namespace PadOS.Utils

open Unicode Sequence List

/-! ## The iterator -/

/-- `rest` is what is between the position and the end. -/
structure PUnicodeCaseFoldIterator where
  rest : PString
  foldedCharacters : List Nat
  sourceCharacterByteLength : Nat
  foldedCharacterIndex : Nat

namespace PUnicodeCaseFoldIterator

def loadCurrentCharacter (position : PString) : List Nat × Nat :=
  match position with
  | [] => ([], 0)
  | first :: _ =>
    if first.toNat < 0x80 then ([unicodeCaseFoldAsciiCharacter first.toNat], 1)
    else (unicodeCaseFoldNonAscii (utf8ToUnicode position).1, (utf8ToUnicode position).2)

def start (position : PString) : PUnicodeCaseFoldIterator where
  rest := position
  foldedCharacters := (loadCurrentCharacter position).1
  sourceCharacterByteLength := (loadCurrentCharacter position).2
  foldedCharacterIndex := 0

/-- Equality with the iterator at the end. -/
def atEnd (it : PUnicodeCaseFoldIterator) : Bool := it.rest.isEmpty && it.foldedCharacterIndex == 0

def value (it : PUnicodeCaseFoldIterator) : Nat :=
  it.foldedCharacters.getD it.foldedCharacterIndex 0

def next (it : PUnicodeCaseFoldIterator) : PUnicodeCaseFoldIterator :=
  if it.foldedCharacterIndex + 1 = it.foldedCharacters.length then
    start (it.rest.drop it.sourceCharacterByteLength)
  else { it with foldedCharacterIndex := it.foldedCharacterIndex + 1 }

def rounds (position : PString) : Nat := 3 * position.length + 1

/-- The folded characters up to the end, as `std::search` visits them. -/
def characters : Nat → PUnicodeCaseFoldIterator → Option (List Nat)
  | 0, _ => none
  | rounds + 1, it => if it.atEnd then some [] else (characters rounds it.next).map (it.value :: ·)

/-- The loop of `unicode_case_fold_length`. -/
def lengthFrom : Nat → PUnicodeCaseFoldIterator → Nat → Option Nat
  | 0, _, _ => none
  | rounds + 1, it, length =>
    if it.atEnd then some length else lengthFrom rounds it.next (length + 1)

/-- The second loop of `unicode_case_fold_compare`. -/
def compareFrom : Nat → PUnicodeCaseFoldIterator → PUnicodeCaseFoldIterator → Option Int
  | 0, _, _ => none
  | rounds + 1, lhs, rhs =>
    if !lhs.atEnd && !rhs.atEnd then
      if lhs.value ≠ rhs.value then some (if lhs.value < rhs.value then -1 else 1)
      else compareFrom rounds lhs.next rhs.next
    else if lhs.atEnd then some (if rhs.atEnd then 0 else -1)
    else some 1

/-- The last loop of `unicode_case_fold_starts_with` and of `unicode_case_fold_ends_with`. -/
def matchesFrom : Nat → PUnicodeCaseFoldIterator → PUnicodeCaseFoldIterator → Option Bool
  | 0, _, _ => none
  | rounds + 1, source, token =>
    if token.atEnd then some true
    else if source.atEnd then some false
    else if source.value ≠ token.value then some false
    else matchesFrom rounds source.next token.next

end PUnicodeCaseFoldIterator

open PUnicodeCaseFoldIterator

/-! ## The functions -/

def foldByte (byte : UInt8) : Nat := unicodeCaseFoldAsciiCharacter byte.toNat

/-- The first loop of `unicode_case_fold_compare`: a result, or what is left of the strings. -/
def compareAscii : PString → PString → Int ⊕ (PString × PString)
  | l :: lhs, r :: rhs =>
    if (l ||| r).toNat ≥ 0x80 then .inr (l :: lhs, r :: rhs)
    else if foldByte l ≠ foldByte r then .inl (if foldByte l < foldByte r then -1 else 1)
    else compareAscii lhs rhs
  | lhs, rhs => .inr (lhs, rhs)

def unicodeCaseFoldCompare (lhs rhs : PString) : Option Int :=
  match compareAscii lhs rhs with
  | .inl result => some result
  | .inr (lhs, rhs) =>
    if lhs = [] then some (if rhs = [] then 0 else -1)
    else if rhs = [] then some 1
    else compareFrom (rounds lhs) (start lhs) (start rhs)

/-- The first loop of the functions that look for a token at an end; none if it is not there. -/
def skipAscii : PString → PString → Option (PString × PString)
  | s :: source, t :: token =>
    if (s ||| t).toNat ≥ 0x80 then some (s :: source, t :: token)
    else if foldByte s ≠ foldByte t then none
    else skipAscii source token
  | source, token => some (source, token)

def unicodeCaseFoldStartsWith (source token : PString) : Option Bool :=
  match skipAscii source token with
  | none => some false
  | some (source, token) =>
    if token = [] then some true
    else if source = [] then some false
    else matchesFrom (rounds token) (start source) (start token)

/-- The strings are walked over from their ends. -/
def unicodeCaseFoldEndsWith (source token : PString) : Option Bool :=
  match skipAscii source.reverse token.reverse with
  | none => some false
  | some (source, token) =>
    let source := source.reverse
    let token := token.reverse
    if token = [] then some true
    else if source = [] then some false
    else do
      let sourceLength ← lengthFrom (rounds source) (start source) 0
      let tokenLength ← lengthFrom (rounds token) (start token) 0
      if sourceLength < tokenLength then some false
      else
        matchesFrom (rounds token) (next^[sourceLength - tokenLength] (start source)) (start token)

def isASCII (string : PString) : Bool := string.all fun byte => byte.toNat < 0x80

def unicodeCaseFoldContains (source token : PString) : Option Bool :=
  if isASCII source && isASCII token then
    some (search (fun s t => foldByte s == foldByte t) source token != source.length)
  else do
    let sourceCharacters ← characters (rounds source) (start source)
    let tokenCharacters ← characters (rounds token) (start token)
    return search (· == ·) sourceCharacters tokenCharacters != sourceCharacters.length

/-! ## What the iterator shows -/

/-- The full case folding of all characters of a string. -/
def folded (string : PString) : List Nat := string.utf32.flatMap fullCaseFolding

def foldAll (cs : List Nat) : List Nat := cs.flatMap fullCaseFolding

def Scalars (cs : List Nat) : Prop := ∀ c ∈ cs, isUnicodeScalarValue c

/-- The values that an iterator has before it is at the end. -/
inductive Shows : PUnicodeCaseFoldIterator → List Nat → Prop
  | ends {it : PUnicodeCaseFoldIterator} (atEnd : it.atEnd = true) : Shows it []
  | goes {it : PUnicodeCaseFoldIterator} {x : Nat} {xs : List Nat} (more : it.atEnd = false)
      (value : it.value = x) (rest : Shows it.next xs) : Shows it (x :: xs)

variable {c : Nat} {cs ds : List Nat} {it it' : PUnicodeCaseFoldIterator} {xs ys : List Nat}
  {n : Nat}

theorem Scalars.head (scalars : Scalars (c :: cs)) : isUnicodeScalarValue c :=
  scalars c mem_cons_self

theorem Scalars.tail (scalars : Scalars (c :: cs)) : Scalars cs :=
  fun x member => scalars x (mem_cons_of_mem _ member)

theorem foldAll_cons : foldAll (c :: cs) = fullCaseFolding c ++ foldAll cs := rfl

theorem foldAll_append : foldAll (cs ++ ds) = foldAll cs ++ foldAll ds := flatMap_append

theorem foldAll_eq_nil : foldAll cs = [] ↔ cs = [] := by
  cases cs with
  | nil => simp [foldAll]
  | cons c cs =>
    have some' := (fullCaseFolding_length c).1
    simp only [foldAll_cons, append_eq_nil_iff, reduceCtorEq, iff_false]
    exact fun none' => absurd (length_eq_zero_iff.2 none'.1) (by omega)

theorem encode_eq_nil : encode cs = [] ↔ cs = [] := by
  cases cs with
  | nil => simp [encode]
  | cons c cs => simp [encode_cons, unicodeToUtf8_ne_nil]

theorem ascii_bytes (c : Nat) : c < 0x80 ∧ unicodeToUtf8 c = [.ofNat c] ∨
    ¬c < 0x80 ∧ (isUnicodeScalarValue c → ∀ byte ∈ unicodeToUtf8 c, ¬byte.toNat < 0x80) := by
  by_cases one : c < 0x80
  · exact .inl ⟨one, if_pos one⟩
  · refine .inr ⟨one, fun scalar => ?_⟩
    have bounds := scalar_iff.1 scalar
    have last := (tail_byte (show c &&& 0x3f < 64 by rw [low6]; omega)).1
    have middle := (tail_byte (show (c >>> 6) &&& 0x3f < 64 by rw [low6]; omega)).1
    have second := (tail_byte (show (c >>> 12) &&& 0x3f < 64 by rw [low6]; omega)).1
    intro byte member
    unfold unicodeToUtf8 at member
    by_cases two : c < 0x800
    · have lead := lead_byte2 (show c >>> 6 < 32 by omega)
      simp only [if_neg one, if_pos two, mem_cons, not_mem_nil, or_false] at member
      rcases member with rfl | rfl <;> omega
    by_cases three : c < 0x10000
    · have lead := lead_byte3 (show c >>> 12 < 16 by omega)
      simp only [if_neg one, if_neg two, if_pos three, mem_cons, not_mem_nil,
        or_false] at member
      rcases member with rfl | rfl | rfl <;> omega
    · have lead := lead_byte4 (show c >>> 18 < 8 by omega)
      simp only [if_neg one, if_neg two, if_neg three, mem_cons, not_mem_nil,
        or_false] at member
      rcases member with rfl | rfl | rfl | rfl <;> omega

theorem loadCurrentCharacter_encode (scalar : isUnicodeScalarValue c) (tail : PString) :
    loadCurrentCharacter (unicodeToUtf8 c ++ tail) =
      (fullCaseFolding c, (unicodeToUtf8 c).length) := by
  rcases ascii_bytes c with ⟨one, bytes⟩ | ⟨more, bytes⟩
  · have byte : (UInt8.ofNat c).toNat = c := toNat_ofNat (by omega)
    simp [bytes, loadCurrentCharacter, byte, one, fullCaseFolding]
  · have decoded := utf8ToUnicode_scalar scalar tail
    have bytes := bytes scalar
    obtain ⟨first, others, split⟩ := exists_cons_of_ne_nil (unicodeToUtf8_ne_nil c)
    have high := bytes first (by rw [split]; exact mem_cons_self)
    rw [← unicodeCaseFoldNonAscii_eq more]
    rw [split] at decoded ⊢
    rw [cons_append] at decoded ⊢
    simp only [loadCurrentCharacter, if_neg high, decoded]

theorem shows_from (rest : Shows (start (encode cs)) (foldAll cs)) {index : Nat}
    (inside : index < (fullCaseFolding c).length) :
    Shows ⟨encode (c :: cs), fullCaseFolding c, (unicodeToUtf8 c).length, index⟩
      ((fullCaseFolding c).drop index ++ foldAll cs) := by
  generalize left : (fullCaseFolding c).length - index = n
  induction n generalizing index with
  | zero => omega
  | succ n ih =>
    have some' : (encode (c :: cs)).isEmpty = false := by
      rw [isEmpty_eq_false_iff, ne_eq, encode_eq_nil]
      exact cons_ne_nil _ _
    rw [drop_eq_getElem_cons inside, cons_append]
    apply Shows.goes
    · simp [atEnd, some']
    · exact getD_eq_getElem _ _ inside
    · unfold PUnicodeCaseFoldIterator.next
      dsimp only
      split
      · rename_i last
        rw [encode_cons, drop_left, last, drop_length, nil_append]
        exact rest
      · exact ih (by omega) (by omega)

theorem shows_start (scalars : Scalars cs) : Shows (start (encode cs)) (foldAll cs) := by
  induction cs with
  | nil => exact .ends rfl
  | cons c cs ih =>
    have loaded := loadCurrentCharacter_encode scalars.head (encode cs)
    have shows := shows_from (ih scalars.tail) (fullCaseFolding_length c).1
    unfold start
    rw [encode_cons, loaded, ← encode_cons]
    exact shows

theorem foldAll_length (cs : List Nat) : (foldAll cs).length ≤ 3 * (encode cs).length := by
  induction cs with
  | nil => exact Nat.zero_le _
  | cons c cs ih =>
    have folds := (fullCaseFolding_length c).2
    have bytes := unicodeToUtf8_length_pos c
    rw [foldAll_cons, encode_cons, length_append, length_append]
    omega

theorem rounds_enough (cs : List Nat) : (foldAll cs).length < rounds (encode cs) :=
  Nat.lt_succ_of_le (foldAll_length cs)

/-! ## The loops over iterators -/

theorem characters_eq (shows : Shows it xs) (enough : xs.length < n) :
    characters n it = some xs := by
  induction shows generalizing n with
  | ends atEnd =>
    obtain ⟨n, rfl⟩ : ∃ m, n = m + 1 := ⟨n - 1, by omega⟩
    simp [characters, atEnd]
  | goes more value rest ih =>
    rw [length_cons] at enough
    obtain ⟨n, rfl⟩ : ∃ m, n = m + 1 := ⟨n - 1, by omega⟩
    simp [characters, more, value, ih (n := n) (by omega)]

theorem lengthFrom_eq (length : Nat) (shows : Shows it xs) (enough : xs.length < n) :
    lengthFrom n it length = some (length + xs.length) := by
  induction shows generalizing n length with
  | ends atEnd =>
    obtain ⟨n, rfl⟩ : ∃ m, n = m + 1 := ⟨n - 1, by omega⟩
    simp [lengthFrom, atEnd]
  | goes more value rest ih =>
    rw [length_cons] at enough
    obtain ⟨n, rfl⟩ : ∃ m, n = m + 1 := ⟨n - 1, by omega⟩
    rw [lengthFrom, more, length_cons, ← add_assoc, Nat.add_right_comm]
    exact ih _ (by omega)

theorem compareFrom_eq (shows : Shows it xs) (shows' : Shows it' ys) (enough : xs.length < n) :
    compareFrom n it it' = some (compareLists xs ys) := by
  induction shows generalizing n it' ys with
  | ends atEnd =>
    obtain ⟨n, rfl⟩ : ∃ m, n = m + 1 := ⟨n - 1, by omega⟩
    cases shows' with
    | ends atEnd' => simp [compareFrom, atEnd, atEnd', compareLists]
    | goes more' value' rest' => simp [compareFrom, atEnd, more', compareLists]
  | goes more value rest ih =>
    rw [length_cons] at enough
    obtain ⟨n, rfl⟩ : ∃ m, n = m + 1 := ⟨n - 1, by omega⟩
    cases shows' with
    | ends atEnd' => simp [compareFrom, more, atEnd', compareLists]
    | goes more' value' rest' =>
      simp only [compareFrom, more, more', value, value', Bool.not_false, Bool.and_self,
        if_true, compareLists]
      split
      · rfl
      · exact ih rest' (by omega)

theorem matchesFrom_eq (shows : Shows it xs) (shows' : Shows it' ys) (enough : ys.length < n) :
    ∃ answer, matchesFrom n it it' = some answer ∧ (answer ↔ ys <+: xs) := by
  induction shows' generalizing n it xs with
  | ends atEnd' =>
    obtain ⟨n, rfl⟩ : ∃ m, n = m + 1 := ⟨n - 1, by omega⟩
    exact ⟨true, by simp [matchesFrom, atEnd'], by simp⟩
  | goes more' value' rest' ih =>
    rw [length_cons] at enough
    obtain ⟨n, rfl⟩ : ∃ m, n = m + 1 := ⟨n - 1, by omega⟩
    cases shows with
    | ends atEnd => exact ⟨false, by simp [matchesFrom, more', atEnd], by simp⟩
    | goes more value rest =>
      simp only [matchesFrom, more, more', value, value', Bool.false_eq_true, if_false,
        cons_prefix_cons]
      split
      · rename_i other
        exact ⟨false, rfl, by simp [Ne.symm other]⟩
      · rename_i same
        obtain ⟨answer, found, isPrefix⟩ := ih rest (n := n) (by omega)
        exact ⟨answer, found, by rw [isPrefix, not_not.1 same]; simp⟩

theorem shows_iterate (shows : Shows it xs) (skip : Nat) (within : skip ≤ xs.length) :
    Shows (next^[skip] it) (xs.drop skip) := by
  induction skip generalizing it xs with
  | zero => exact shows
  | succ skip ih =>
    cases shows with
    | ends atEnd => simp at within
    | goes more value rest =>
      rw [length_cons] at within
      exact ih rest (by omega)

/-! ## The loops over ASCII -/

theorem or_small (x y : UInt8) : ¬(x ||| y).toNat ≥ 0x80 ↔ x.toNat < 0x80 ∧ y.toNat < 0x80 := by
  rw [UInt8.toNat_or, ge_iff_le, not_le]
  constructor
  · intro small
    exact ⟨lt_of_le_of_lt Nat.left_le_or small, lt_of_le_of_lt Nat.right_le_or small⟩
  · intro small
    exact Nat.or_lt_two_pow (n := 7) small.1 small.2

theorem encode_cons_ascii (scalars : Scalars cs) {byte : UInt8} {rest : PString}
    (split : encode cs = byte :: rest)
    (small : byte.toNat < 0x80) : ∃ ds, cs = byte.toNat :: ds ∧ rest = encode ds := by
  cases cs with
  | nil => cases split
  | cons c cs =>
    rw [encode_cons] at split
    rcases ascii_bytes c with ⟨one, bytes⟩ | ⟨more, bytes⟩
    · rw [bytes] at split
      have parts := List.cons.inj split
      have same : byte.toNat = c := by rw [← parts.1, toNat_ofNat (by omega)]
      exact ⟨cs, by rw [same], parts.2.symm⟩
    · obtain ⟨first, others, isCons⟩ := exists_cons_of_ne_nil (unicodeToUtf8_ne_nil c)
      have high := bytes scalars.head first (by rw [isCons]; exact mem_cons_self)
      rw [isCons] at split
      rw [(List.cons.inj split).1] at high
      exact absurd small high

theorem encode_concat_ascii (scalars : Scalars cs) {byte : UInt8} {rest : PString}
    (split : (encode cs).reverse = byte :: rest) (small : byte.toNat < 0x80) :
    ∃ ds, cs = ds ++ [byte.toNat] ∧ rest = (encode ds).reverse := by
  induction cs using List.reverseRecOn with
  | nil => cases split
  | append_singleton cs c _ =>
    have single : encode [c] = unicodeToUtf8 c := append_nil _
    rw [encode_append, single, reverse_append] at split
    rcases ascii_bytes c with ⟨one, bytes⟩ | ⟨more, bytes⟩
    · rw [bytes] at split
      have parts := List.cons.inj split
      have same : byte.toNat = c := by rw [← parts.1, toNat_ofNat (by omega)]
      exact ⟨cs, by rw [same], parts.2.symm⟩
    · have scalar := scalars c (mem_append_right _ mem_cons_self)
      obtain ⟨last, others, isCons⟩ := exists_cons_of_ne_nil
        (show (unicodeToUtf8 c).reverse ≠ [] by simp [unicodeToUtf8_ne_nil])
      have high := bytes scalar last (by rw [← mem_reverse, isCons]; exact mem_cons_self)
      rw [isCons] at split
      rw [(List.cons.inj split).1] at high
      exact absurd small high

theorem foldAll_ascii {byte : UInt8} (small : byte.toNat < 0x80) :
    foldAll (byte.toNat :: cs) = foldByte byte :: foldAll cs := by
  rw [foldAll_cons, fullCaseFolding, if_pos small]
  rfl

theorem compareAscii_spec (scalars : Scalars cs) (scalars' : Scalars ds) :
    (∃ result, compareAscii (encode cs) (encode ds) = .inl result ∧
      compareLists (foldAll cs) (foldAll ds) = result) ∨
      ∃ cs' ds', compareAscii (encode cs) (encode ds) = .inr (encode cs', encode ds') ∧
        Scalars cs' ∧ Scalars ds' ∧
        compareLists (foldAll cs) (foldAll ds) = compareLists (foldAll cs') (foldAll ds') := by
  generalize lhs : encode cs = l
  generalize rhs : encode ds = r
  induction l, r using compareAscii.induct generalizing cs ds with
  | case1 l lhs' r rhs' high =>
    refine .inr ⟨cs, ds, ?_, scalars, scalars', rfl⟩
    rw [compareAscii, if_pos high, lhs, rhs]
  | case2 l lhs' r rhs' low other =>
    obtain ⟨smallL, smallR⟩ := (or_small l r).1 low
    obtain ⟨cs, rfl, rest⟩ := encode_cons_ascii scalars lhs smallL
    obtain ⟨ds, rfl, rest'⟩ := encode_cons_ascii scalars' rhs smallR
    refine .inl ⟨_, by rw [compareAscii, if_neg low, if_pos other], ?_⟩
    rw [foldAll_ascii smallL, foldAll_ascii smallR, compareLists, if_pos other]
  | case3 l lhs' r rhs' low same ih =>
    obtain ⟨smallL, smallR⟩ := (or_small l r).1 low
    obtain ⟨cs, rfl, rest⟩ := encode_cons_ascii scalars lhs smallL
    obtain ⟨ds, rfl, rest'⟩ := encode_cons_ascii scalars' rhs smallR
    rw [compareAscii, if_neg low, if_neg same, foldAll_ascii smallL, foldAll_ascii smallR,
      compareLists,
      if_neg same]
    exact ih scalars.tail scalars'.tail rest.symm rest'.symm
  | case4 l r notCons =>
    refine .inr ⟨cs, ds, ?_, scalars, scalars', rfl⟩
    rw [compareAscii.eq_2 _ _ notCons, lhs, rhs]

/-- Taking away an equal character at the end that `view` begins with keeps `Part`. -/
def Peels (view : List Nat → PString) (Part : List Nat → List Nat → Prop) : Prop :=
  ∀ {cs ds : List Nat} {byte byte' : UInt8} {rest rest' : PString}, Scalars cs → Scalars ds →
    view cs = byte :: rest → view ds = byte' :: rest' → byte.toNat < 0x80 → byte'.toNat < 0x80 →
      ∃ cs' ds', rest = view cs' ∧ rest' = view ds' ∧ Scalars cs' ∧ Scalars ds' ∧
        (Part ds cs ↔ foldByte byte' = foldByte byte ∧ Part ds' cs')

theorem skipAscii_spec {view : List Nat → PString} {Part : List Nat → List Nat → Prop}
    (peels : Peels view Part) (scalars : Scalars cs) (scalars' : Scalars ds) :
    (skipAscii (view cs) (view ds) = none ∧ ¬Part ds cs) ∨
      ∃ cs' ds', skipAscii (view cs) (view ds) = some (view cs', view ds') ∧ Scalars cs' ∧
        Scalars ds' ∧ (Part ds cs ↔ Part ds' cs') := by
  generalize lhs : view cs = l
  generalize rhs : view ds = r
  induction l, r using skipAscii.induct generalizing cs ds with
  | case1 l lhs' r rhs' high =>
    refine .inr ⟨cs, ds, ?_, scalars, scalars', .rfl⟩
    rw [skipAscii, if_pos high, lhs, rhs]
  | case2 l lhs' r rhs' low other =>
    obtain ⟨smallL, smallR⟩ := (or_small l r).1 low
    obtain ⟨cs', ds', _, _, _, _, part⟩ := peels scalars scalars' lhs rhs smallL smallR
    refine .inl ⟨by rw [skipAscii, if_neg low, if_pos other], ?_⟩
    rw [part]
    exact fun same => other same.1.symm
  | case3 l lhs' r rhs' low same ih =>
    obtain ⟨smallL, smallR⟩ := (or_small l r).1 low
    obtain ⟨cs', ds', rest, rest', scalars, scalars', part⟩ :=
      peels scalars scalars' lhs rhs smallL smallR
    rw [skipAscii, if_neg low, if_neg same, part, not_not.1 same]
    simpa using ih scalars scalars' rest.symm rest'.symm
  | case4 l r notCons =>
    refine .inr ⟨cs, ds, ?_, scalars, scalars', .rfl⟩
    rw [skipAscii.eq_2 _ _ notCons, lhs, rhs]

theorem peels_front : Peels encode fun ds cs => foldAll ds <+: foldAll cs := by
  intro cs ds byte byte' rest rest' scalars scalars' lhs rhs small small'
  obtain ⟨cs, rfl, isRest⟩ := encode_cons_ascii scalars lhs small
  obtain ⟨ds, rfl, isRest'⟩ := encode_cons_ascii scalars' rhs small'
  refine ⟨cs, ds, isRest, isRest', scalars.tail, scalars'.tail, ?_⟩
  dsimp only
  rw [foldAll_ascii small, foldAll_ascii small', cons_prefix_cons]

theorem concat_suffix_concat {x y : Nat} : ys ++ [y] <:+ xs ++ [x] ↔ y = x ∧ ys <:+ xs := by
  rw [← reverse_prefix, reverse_append, reverse_append, ← reverse_prefix]
  exact cons_prefix_cons

theorem Scalars.init (scalars : Scalars (cs ++ [c])) : Scalars cs :=
  fun x member => scalars x (mem_append_left _ member)

theorem foldAll_concat_ascii {byte : UInt8} (small : byte.toNat < 0x80) :
    foldAll (cs ++ [byte.toNat]) = foldAll cs ++ [foldByte byte] := by
  rw [foldAll_append, foldAll_ascii small]
  rfl

theorem peels_back :
    Peels (fun cs => (encode cs).reverse) fun ds cs => foldAll ds <:+ foldAll cs := by
  intro cs ds byte byte' rest rest' scalars scalars' lhs rhs small small'
  obtain ⟨cs, rfl, isRest⟩ := encode_concat_ascii scalars lhs small
  obtain ⟨ds, rfl, isRest'⟩ := encode_concat_ascii scalars' rhs small'
  refine ⟨cs, ds, isRest, isRest', scalars.init, scalars'.init, ?_⟩
  dsimp only
  rw [foldAll_concat_ascii small, foldAll_concat_ascii small', concat_suffix_concat]

/-! ## What the functions return -/

/-- The answer is there and says whether `p` holds. -/
def Answers (answer : Option Bool) (p : Prop) : Prop := ∃ b : Bool, answer = some b ∧ (b ↔ p)

section

variable (scalars : Scalars cs) (scalars' : Scalars ds)

include scalars scalars'

theorem unicodeCaseFoldCompare_eq :
    unicodeCaseFoldCompare (encode cs) (encode ds) =
      some (compareLists (foldAll cs) (foldAll ds)) := by
  unfold unicodeCaseFoldCompare
  rcases compareAscii_spec scalars scalars' with ⟨result, decided, isResult⟩ |
    ⟨cs', ds', left, scalars, scalars', same⟩
  · rw [decided, isResult]
  · rw [left, same]
    simp only [encode_eq_nil]
    cases cs' with
    | nil =>
      cases ds' with
      | nil => rfl
      | cons d ds' =>
        obtain ⟨x, xs, isCons⟩ := exists_cons_of_ne_nil
          (show foldAll (d :: ds') ≠ [] by simp [foldAll_eq_nil])
        rw [isCons]
        rfl
    | cons c cs' =>
      cases ds' with
      | nil =>
        obtain ⟨x, xs, isCons⟩ := exists_cons_of_ne_nil
          (show foldAll (c :: cs') ≠ [] by simp [foldAll_eq_nil])
        rw [isCons]
        rfl
      | cons d ds' =>
        simp only [reduceCtorEq, if_false]
        exact compareFrom_eq (shows_start scalars) (shows_start scalars') (rounds_enough _)

theorem unicodeCaseFoldStartsWith_eq :
    Answers (unicodeCaseFoldStartsWith (encode cs) (encode ds)) (foldAll ds <+: foldAll cs) := by
  unfold unicodeCaseFoldStartsWith
  rcases skipAscii_spec peels_front scalars scalars' with ⟨refused, isNot⟩ |
    ⟨cs', ds', left, scalars, scalars', same⟩
  · rw [refused]
    exact ⟨false, rfl, by simp [isNot]⟩
  · rw [left, same]
    simp only [encode_eq_nil]
    split
    · rename_i none'
      exact ⟨true, rfl, by simp [none', foldAll]⟩
    · rename_i some'
      split
      · rename_i none'
        refine ⟨false, rfl, ?_⟩
        rw [none', show foldAll [] = [] from rfl, prefix_nil, foldAll_eq_nil]
        simp [some']
      · exact matchesFrom_eq (shows_start scalars) (shows_start scalars') (rounds_enough _)

theorem unicodeCaseFoldEndsWith_eq :
    Answers (unicodeCaseFoldEndsWith (encode cs) (encode ds)) (foldAll ds <:+ foldAll cs) := by
  unfold unicodeCaseFoldEndsWith
  rcases skipAscii_spec peels_back scalars scalars' with ⟨refused, isNot⟩ |
    ⟨cs', ds', left, scalars, scalars', same⟩
  · rw [refused]
    exact ⟨false, rfl, by simp [isNot]⟩
  · rw [left, same]
    simp only [reverse_reverse, encode_eq_nil]
    split
    · rename_i none'
      exact ⟨true, rfl, by simp [none', foldAll]⟩
    · rename_i some'
      split
      · rename_i none'
        refine ⟨false, rfl, ?_⟩
        rw [none', show foldAll [] = [] from rfl, suffix_nil, foldAll_eq_nil]
        simp [some']
      · have shows := shows_start scalars
        have shows' := shows_start scalars'
        have sourceLength := lengthFrom_eq 0 shows (rounds_enough cs')
        have tokenLength := lengthFrom_eq 0 shows' (rounds_enough ds')
        rw [zero_add] at sourceLength tokenLength
        simp only [sourceLength, tokenLength, Option.bind_eq_bind, Option.bind_some]
        split
        · rename_i short
          have isNot : ¬foldAll ds' <:+ foldAll cs' := fun isSuffix =>
            absurd isSuffix.length_le (not_le.2 short)
          exact ⟨false, rfl, by simp [isNot]⟩
        · -- the part of the source that is as long as the token is the token, if that is a suffix
          rename_i long
          generalize skip : (foldAll cs').length - (foldAll ds').length = n
          obtain ⟨answer, found, isPrefix⟩ := matchesFrom_eq
            (shows_iterate shows n (by omega)) shows' (rounds_enough ds')
          refine ⟨answer, found, isPrefix.trans ?_⟩
          have size : (foldAll ds').length = ((foldAll cs').drop n).length := by
            rw [length_drop]
            omega
          rw [suffix_iff_eq_drop, skip]
          constructor
          · exact fun isPrefix => isPrefix.eq_of_length size
          · intro equal
            rw [← equal]

end

theorem isASCII_iff (string : PString) : isASCII string ↔ ∀ byte ∈ string, byte.toNat < 0x80 := by
  simp [isASCII]

theorem foldAll_of_isASCII (scalars : Scalars cs)
    (isAscii : ∀ byte ∈ encode cs, byte.toNat < 0x80) :
    foldAll cs = (encode cs).map foldByte := by
  induction cs with
  | nil => rfl
  | cons c cs ih =>
    obtain ⟨byte, rest, split⟩ :=
      exists_cons_of_ne_nil (show encode (c :: cs) ≠ [] by simp [encode_eq_nil])
    have small := isAscii byte (by rw [split]; exact mem_cons_self)
    obtain ⟨ds, same, isRest⟩ := encode_cons_ascii scalars split small
    obtain ⟨isByte, rfl⟩ := List.cons.inj same
    rw [split] at isAscii ⊢
    rw [isByte, foldAll_ascii small, map_cons, isRest,
      ih scalars.tail fun b member => isAscii b (mem_cons_of_mem _ (isRest ▸ member))]

theorem unicodeCaseFoldContains_eq (scalars : Scalars cs) (scalars' : Scalars ds)
    (some' : ¬(cs = [] ∧ ds = [])) :
    Answers (unicodeCaseFoldContains (encode cs) (encode ds)) (foldAll ds <:+: foldAll cs) := by
  have nonempty : foldAll cs ≠ [] ∨ foldAll ds ≠ [] := by
    rw [← not_and_or, foldAll_eq_nil, foldAll_eq_nil]
    exact some'
  have found := search_iff nonempty
  unfold unicodeCaseFoldContains
  split
  · rename_i ascii'
    rw [Bool.and_eq_true, isASCII_iff, isASCII_iff] at ascii'
    have source := foldAll_of_isASCII scalars ascii'.1
    have token := foldAll_of_isASCII scalars' ascii'.2
    refine ⟨_, rfl, ?_⟩
    have size : ((encode cs).map foldByte).length = (encode cs).length := length_map foldByte
    rw [search_map, bne_iff_ne, ← size, ← source, ← token]
    exact found
  · rw [characters_eq (shows_start scalars) (rounds_enough cs),
      characters_eq (shows_start scalars') (rounds_enough ds)]
    exact ⟨_, rfl, by rw [bne_iff_ne]; exact found⟩

/-! ## The fast paths and the definition -/

/-- What the four functions say about two strings is what holds of their foldings. -/
structure Agrees (s t : PString) : Prop where
  compare : ∃ result, unicodeCaseFoldCompare s t = some result ∧
    (result < 0 ↔ folded s < folded t) ∧
    (result = 0 ↔ folded s = folded t) ∧ (0 < result ↔ folded t < folded s)
  startsWith : Answers (unicodeCaseFoldStartsWith s t) (folded t <+: folded s)
  endsWith : Answers (unicodeCaseFoldEndsWith s t) (folded t <:+ folded s)
  contains : Answers (unicodeCaseFoldContains s t) (folded t <:+: folded s)
  implies : unicodeCaseFoldStartsWith s t = some true ∨ unicodeCaseFoldEndsWith s t = some true →
    unicodeCaseFoldContains s t = some true
  total : (∃ result ≤ 0, unicodeCaseFoldCompare s t = some result) ∨
    ∃ result ≤ 0, unicodeCaseFoldCompare t s = some result
  trans : ∀ u : PString, u.isValidUtf8 → (∃ result ≤ 0, unicodeCaseFoldCompare s t = some result) →
    (∃ result ≤ 0, unicodeCaseFoldCompare t u = some result) → ∃ result ≤ 0,
      unicodeCaseFoldCompare s u = some result

theorem folded_encode (scalars : Scalars cs) : folded (encode cs) = foldAll cs := by
  rw [folded, utf32_encode scalars]
  rfl

theorem compare_le_iff (scalars : Scalars cs) (scalars' : Scalars ds) :
    (∃ result ≤ 0, unicodeCaseFoldCompare (encode cs) (encode ds) = some result) ↔
      foldAll cs ≤ foldAll ds := by
  have spec := compareLists_spec (foldAll cs) (foldAll ds)
  rw [unicodeCaseFoldCompare_eq scalars scalars', ← not_lt, ← spec.2.2]
  simp

theorem Answers.eq_true {answer : Option Bool} {p : Prop} (answers : Answers answer p) :
    answer = some true ↔ p := by
  obtain ⟨b, rfl, iff⟩ := answers
  rw [← iff, Option.some.injEq]

/-- The functions agree with the definition except that the empty string is not found in the empty
string. -/
theorem caseFold_agrees_iff (s t : PString) (valid : s.isValidUtf8) (valid' : t.isValidUtf8) :
    Agrees s t ↔ ¬(s = [] ∧ t = []) := by
  obtain ⟨cs, scalars, rfl⟩ := isValidUtf8_iff.1 valid
  obtain ⟨ds, scalars', rfl⟩ := isValidUtf8_iff.1 valid'
  constructor
  · intro agrees ⟨none', none''⟩
    have contained := agrees.contains.eq_true.2
    rw [none', none''] at contained
    exact absurd (contained infix_rfl) (by decide)
  · intro some'
    rw [encode_eq_nil, encode_eq_nil] at some'
    have starts := unicodeCaseFoldStartsWith_eq scalars scalars'
    have ends' := unicodeCaseFoldEndsWith_eq scalars scalars'
    have contains := unicodeCaseFoldContains_eq scalars scalars' some'
    refine ⟨?_, ?_, ?_, ?_, ?_, ?_, ?_⟩
    · rw [folded_encode scalars, folded_encode scalars']
      exact ⟨_, unicodeCaseFoldCompare_eq scalars scalars', compareLists_spec _ _⟩
    · rw [folded_encode scalars, folded_encode scalars']
      exact starts
    · rw [folded_encode scalars, folded_encode scalars']
      exact ends'
    · rw [folded_encode scalars, folded_encode scalars']
      exact contains
    · rw [starts.eq_true, ends'.eq_true, contains.eq_true]
      rintro (isPrefix | isSuffix)
      · exact isPrefix.isInfix
      · exact isSuffix.isInfix
    · rw [compare_le_iff scalars scalars', compare_le_iff scalars' scalars]
      exact le_total _ _
    · intro u validU
      obtain ⟨es, scalars'', rfl⟩ := isValidUtf8_iff.1 validU
      rw [compare_le_iff scalars scalars', compare_le_iff scalars' scalars'',
        compare_le_iff scalars scalars'']
      exact le_trans

theorem caseFold_agrees_iff_letter :
    Agrees [0x41, 0x62] [0x61, 0x42] ↔
      ¬(([0x41, 0x62] : PString) = [] ∧ ([0x61, 0x42] : PString) = []) :=
  caseFold_agrees_iff [0x41, 0x62] [0x61, 0x42] (by decide) (by decide)

theorem not_caseFold_agrees_always :
    ¬∀ s t : PString, s.isValidUtf8 → t.isValidUtf8 → Agrees s t := by
  intro always
  have contained := (always [] [] (by decide) (by decide)).contains.eq_true.2 infix_rfl
  revert contained
  decide

end PadOS.Utils
