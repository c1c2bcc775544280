import PadOS.Fat.DirectoryEntry

/-! # Short names on the disk

A name without a long-name entry is stored as eleven bytes with two flags for its case.
`RequiresLongName` decides for which names this suffices, `GenerateShortName` makes the
bytes and `FATRawShortNameToUTF8` reads them.
-/

namespace PadOS.Fat

open Unicode List Option

/-! ## Names that are accepted -/

def isFATLongNameCharacterValid (character : Nat) : Bool :=
  if character < 0x20 ∨ character = 0xfffe ∨ character = 0xffff then false
  else !([0x22, 0x2a, 0x2f, 0x3a, 0x3c, 0x3e, 0x3f, 0x5c, 0x7c] : List Nat).contains character

/-- The loop of `ValidateNewFATName`. -/
def validateCharacters : Nat → List Nat → Except PErrorCode Unit
  | _, [] => .ok ()
  | utf16Length, character :: rest =>
    if !isFATLongNameCharacterValid character then .error .inval
    else
      let utf16Length := utf16Length + if character < 0x10000 then 1 else 2
      if utf16Length > longNameMaxLength then .error .nametoolong
      else validateCharacters utf16Length rest

def validateNewFATName (name : PString) : Except PErrorCode Unit :=
  if name = [] ∨ name = [0x2e] ∨ name = [0x2e, 0x2e] ∨ !name.isValidUtf8 then .error .inval
  else if name.getLast? = some 0x20 ∨ name.getLast? = some 0x2e then .error .inval
  else validateCharacters 0 name.utf32

/-- The units that `CreateDirectoryEntry` makes of a name. -/
def longNameUnits (name : PString) : List Nat :=
  name.copyUtf16 (longNameMaxEntryCount * charactersPerLFNEntry)

variable {name : PString} {unit : Nat} {character : UInt8} {case : ComponentCase}

variable {cs : List Nat}

theorem validateCharacters_spec {length : Nat} (fits : length ≤ longNameMaxLength)
    (accepted : validateCharacters length cs = .ok ()) :
    (∀ c ∈ cs, c ≠ 0) ∧ length + (utf16 cs).length ≤ longNameMaxLength := by
  induction cs generalizing length with
  | nil => exact ⟨by simp, fits⟩
  | cons c cs ih =>
    unfold validateCharacters at accepted
    split at accepted
    · cases accepted
    rename_i valid
    have units : (if c < 0x10000 then 1 else 2) = (utf16Units c).length := by
      unfold utf16Units
      split <;> rfl
    rw [units] at accepted
    dsimp only at accepted
    split at accepted
    · cases accepted
    rename_i fits'
    have later := ih (not_lt.1 fits') accepted
    have total : (utf16 (c :: cs)).length = (utf16Units c).length + (utf16 cs).length := by
      rw [utf16, flatMap_cons, length_append]
      rfl
    refine ⟨?_, by omega⟩
    intro c' member
    rcases mem_cons.1 member with rfl | member
    · rintro rfl
      exact valid (by decide)
    · exact later.1 c' member

theorem validateNewFATName_spec (accepted : validateNewFATName name = .ok ()) :
    ∃ cs, name = encode cs ∧ cs ≠ [] ∧ (∀ c ∈ cs, c ≠ 0) ∧ longNameUnits name = utf16 cs := by
  unfold validateNewFATName at accepted
  split at accepted
  · cases accepted
  rename_i nonempty
  split at accepted
  · cases accepted
  have valid : name.isValidUtf8 := by
    by_contra invalid
    exact nonempty (.inr (.inr (.inr (by simpa using invalid))))
  obtain ⟨cs, scalars, rfl⟩ := encode_of_isValidUtf8 valid
  rw [utf32_encode scalars] at accepted
  have spec := validateCharacters_spec (Nat.zero_le _) accepted
  refine ⟨cs, rfl, ?_, spec.1, copyUtf16_encode scalars ?_⟩
  · rintro rfl
    exact nonempty (.inl rfl)
  · have total := spec.2
    unfold longNameMaxLength at total
    unfold longNameMaxEntryCount charactersPerLFNEntry
    omega

theorem utf16_ne_zero (printed : ∀ c ∈ cs, c ≠ 0) : ∀ unit ∈ utf16 cs, unit ≠ 0 := by
  intro unit member
  obtain ⟨c, ofName, ofCharacter⟩ := mem_flatMap.1 member
  have some' := printed c ofName
  unfold utf16Units at ofCharacter
  split at ofCharacter
  · rw [mem_singleton.1 ofCharacter]
    exact some'
  · simp only [mem_cons, not_mem_nil, or_false] at ofCharacter
    omega

theorem utf16_eq (small : ∀ unit ∈ utf16 cs, unit < 0xd800) : utf16 cs = cs := by
  induction cs with
  | nil => rfl
  | cons c cs ih =>
    have units : utf16 (c :: cs) = utf16Units c ++ utf16 cs := rfl
    rw [units] at small ⊢
    rw [ih fun unit member => small unit (mem_append_right _ member)]
    have first : ∀ unit ∈ utf16Units c, unit < 0xd800 := fun unit member =>
      small unit (mem_append_left _ member)
    unfold utf16Units at first ⊢
    split at first
    · rename_i below
      rw [if_pos below]
      rfl
    · have high := first _ mem_cons_self
      omega

/-! ## Characters -/

/-- A character of an 8.3 name, in either case. -/
def IsShortCharacter (character : UInt8) : Prop :=
  strchr validShortNameCharacters (convertCp437CharacterCase character false) ∨
    convertCp437CharacterCase (convertCp437CharacterCase character false) true ≠
      convertCp437CharacterCase character false

instance (character : UInt8) : Decidable (IsShortCharacter character) :=
  inferInstanceAs (Decidable (_ ∨ _))

theorem cp437ToUtf16_utf16ToCp437 (known : utf16ToCp437 unit = some character) :
    cp437ToUtf16 character = unit ∧ unit ≤ 0x25a0 ∧ (unit ≠ 0 → character ≠ 0) := by
  have rows : ∀ row ∈ utf16Table, cp437ToUtf16 row.2 = row.1 ∧ row.1 ≤ 0x25a0 ∧ row.2 ≠ 0 := by
    decide +kernel
  unfold utf16ToCp437 at known
  split at known
  · rename_i small
    cases known
    have value : (UInt8.ofNat unit).toNat = unit := by
      rw [UInt8.toNat_ofNat']
      omega
    refine ⟨?_, by omega, ?_⟩
    · have below : UInt8.ofNat unit < 0x80 := by
        rw [UInt8.lt_iff_toNat_lt, value]
        exact small
      unfold cp437ToUtf16
      rw [if_pos below, value]
    · intro some' zero
      rw [zero] at value
      exact some' value.symm
  · split at known
    · rename_i row found
      split at known
      · rename_i same
        cases known
        have row := rows row (mem_of_find?_eq_some found)
        rw [same] at row
        exact ⟨row.1, row.2.1, fun _ => row.2.2⟩
      · cases known
    · cases known

/-- What a character is like on the disk. -/
@[mk_iff]
structure StoredCharacter (character : UInt8) : Prop where
  notBlank : convertCp437CharacterCase character false ≠ 0x20
  notEnd : convertCp437CharacterCase character false ≠ 0
  notErased : convertCp437CharacterCase character false ≠ 0xe5
  notKanji : convertCp437CharacterCase character false ≠ 5
  notPeriod : character ≠ 0x2e
  valid : character < 0x80 → isCharacterValid character.toNat
  kept : strchr underbarCharacters character = false ∨
    convertCp437CharacterCase character false ≠ character
  lowered : convertCp437CharacterCase character false ≠ character →
    convertCp437CharacterCase (convertCp437CharacterCase character false) true = character

instance (character : UInt8) : Decidable (StoredCharacter character) :=
  decidable_of_iff _ (storedCharacter_iff character).symm

theorem storedCharacter (short : IsShortCharacter character) (some' : character ≠ 0) :
    StoredCharacter character := by
  have bytes {p : UInt8 → Prop} (table : ∀ n < 256, p (.ofNat n)) : p character := by
    have here := table character.toNat character.toNat_lt
    rwa [UInt8.ofNat_toNat] at here
  have otherUpper : ∀ upper ∈ [0x20, 0xe5, 5], ¬(strchr validShortNameCharacters upper ∨
      convertCp437CharacterCase upper true ≠ upper) := by decide +kernel
  have apart : ∀ upper ∈ [0x20, 0xe5, 5], convertCp437CharacterCase character false ≠ upper :=
    fun upper member same => otherUpper upper member (same ▸ short)
  refine ⟨apart _ (by simp), ?_, apart _ (by simp), apart _ (by simp), ?_, ?_, ?_, ?_⟩
  · exact bytes (p := fun c => c ≠ 0 → convertCp437CharacterCase c false ≠ 0) (by decide +kernel) some'
  · rintro rfl
    exact absurd short (by decide +kernel)
  · intro small
    by_contra invalid
    have illegal : ∀ n < 128, isCharacterValid n = false → UInt8.ofNat n ≠ 0 →
        ¬IsShortCharacter (.ofNat n) := by decide +kernel
    have here := illegal character.toNat small (by simpa using invalid)
    rw [UInt8.ofNat_toNat] at here
    exact here some' short
  · by_contra neither
    rw [not_or, Bool.not_eq_false, not_not, strchr, Bool.or_eq_true, beq_iff_eq] at neither
    have replaced : ∀ c ∈ underbarCharacters, convertCp437CharacterCase c false = c →
        ¬IsShortCharacter c := by decide +kernel
    have member := contains_iff_mem.1 (neither.1.resolve_left some')
    exact replaced character member neither.2 short
  · exact bytes (p := fun c => convertCp437CharacterCase c false ≠ c →
      convertCp437CharacterCase (convertCp437CharacterCase c false) true = c) (by decide +kernel)

/-- A unit of an 8.3 component, with the case that the component has been found to have. -/
structure ShortUnit (case : ComponentCase) (unit : Nat) (character : UInt8) : Prop where
  known : utf16ToCp437 unit = some character
  some' : character ≠ 0
  short : IsShortCharacter character
  lower : convertCp437CharacterCase character false ≠ character → case.hasLowercase
  upper : convertCp437CharacterCase character false = character →
    convertCp437CharacterCase character true ≠ character → case.hasUppercase

namespace ShortUnit

section

variable (u : ShortUnit case unit character)

include u

theorem filtered :
    filteredUtf16ToCp437 unit = some (convertCp437CharacterCase character false) := by
  have stored := storedCharacter u.short u.some'
  unfold filteredUtf16ToCp437
  rw [u.known]
  dsimp only
  split
  · rfl
  · rename_i same
    have same := not_not.1 same
    have short := u.short
    unfold IsShortCharacter at short
    rw [same] at short ⊢
    rcases stored.kept with plain | changed
    · rw [if_neg (by rw [plain]; exact Bool.false_ne_true), if_pos short]
    · exact absurd same changed

theorem isValid : isCharacterValid unit := by
  have stored := storedCharacter u.short u.some'
  rcases cp437ToUtf16_utf16ToCp437 u.known with ⟨coded, most, _⟩
  by_cases small : unit < 0x80
  · have known := u.known
    unfold utf16ToCp437 at known
    rw [if_pos small] at known
    have value : character.toNat = unit := by
      rw [← some.inj known, UInt8.toNat_ofNat']
      omega
    rw [← value]
    apply stored.valid
    rw [UInt8.lt_iff_toNat_lt, value]
    exact small
  · unfold isCharacterValid
    rw [if_neg (by omega)]
    simp only [ge_iff_le, not_lt.1 small, decide_true, Bool.true_or]

theorem ne_period : unit ≠ 0x2e := by
  rintro rfl
  exact (storedCharacter u.short u.some').notPeriod (some.inj u.known).symm

theorem ne_zero : unit ≠ 0 := by
  rintro rfl
  exact u.some' (some.inj u.known).symm

/-- What is read of the byte with the flag of its component. -/
theorem decoded (uniform : ¬(case.hasUppercase ∧ case.hasLowercase)) :
    cp437ToUtf16 (if case.hasLowercase then
        convertCp437CharacterCase (convertCp437CharacterCase character false) true
      else convertCp437CharacterCase character false) = unit := by
  have stored := storedCharacter u.short u.some'
  have same : (if case.hasLowercase then
        convertCp437CharacterCase (convertCp437CharacterCase character false) true
      else convertCp437CharacterCase character false) = character := by
    by_cases changed : convertCp437CharacterCase character false = character
    · rw [changed]
      split
      · rename_i isLower
        by_contra cased
        exact uniform ⟨u.upper changed cased, isLower⟩
      · rfl
    · rw [if_pos (u.lower changed)]
      exact stored.lowered changed
  rw [same]
  exact (cp437ToUtf16_utf16ToCp437 u.known).1

end

end ShortUnit

/-! ## Components -/

/-- A component of a name, with its bytes. -/
inductive Component (case : ComponentCase) : List Nat → List UInt8 → Prop
  | nil : Component case [] []
  | cons {unit : Nat} {character : UInt8} {units : List Nat} {bytes : List UInt8}
      (first : ShortUnit case unit character) (rest : Component case units bytes) :
      Component case (unit :: units) (convertCp437CharacterCase character false :: bytes)

theorem isShortNameCharacterCompatible_spec {case' : ComponentCase}
    (uniform : ¬(case.hasUppercase ∧ case.hasLowercase))
    (compatible : isShortNameCharacterCompatible character case = some case') :
    IsShortCharacter character ∧ ¬(case'.hasUppercase ∧ case'.hasLowercase) ∧
      (case.hasUppercase → case'.hasUppercase) ∧ (case.hasLowercase → case'.hasLowercase) ∧
      (convertCp437CharacterCase character false ≠ character → case'.hasLowercase) ∧
      (convertCp437CharacterCase character false = character →
        convertCp437CharacterCase character true ≠ character → case'.hasUppercase) := by
  unfold isShortNameCharacterCompatible at compatible
  dsimp only at compatible
  split at compatible
  · cases compatible
  rename_i short
  have short : IsShortCharacter character := by
    unfold IsShortCharacter
    simpa [or_iff_not_imp_left] using short
  refine ⟨short, ?_⟩
  split at compatible
  · rename_i changed
    split at compatible
    · cases compatible
    · rename_i notUpper
      cases compatible
      exact ⟨fun both => notUpper both.1, fun h => h, fun _ => rfl, fun _ => rfl, fun same => absurd same changed⟩
  rename_i same
  have same := not_not.1 same
  rw [same] at compatible ⊢
  split at compatible
  · split at compatible
    · cases compatible
    · rename_i notLower
      cases compatible
      exact ⟨fun both => notLower both.2, fun _ => rfl, fun h => h, fun other => absurd rfl other, fun _ _ => rfl⟩
  · rename_i uncased
    cases compatible
    refine ⟨uniform, fun h => h, fun h => h, fun other => absurd rfl other, ?_⟩
    intro _ cased
    simp [cased] at uncased

/-- What has been scanned of a name. -/
structure Scanned (stopAtPeriod : Bool) (limit : Nat) (name rest : List Nat) (case : ComponentCase)
    (units : List Nat) (bytes : List UInt8) : Prop where
  name : name = units ++ rest
  component : Component case units bytes
  length : units.length ≤ limit
  uniform : ¬(case.hasUppercase ∧ case.hasLowercase)
  ended : rest = [] ∨ units.length = limit ∨ stopAtPeriod ∧ rest.head? = some 0x2e

theorem scanComponent_spec {stopAtPeriod : Bool} {limit : Nat} {name rest : List Nat} {case' : ComponentCase}
    (uniform : ¬(case.hasUppercase ∧ case.hasLowercase)) (printed : ∀ unit ∈ name, unit ≠ 0)
    (scanned : scanComponent stopAtPeriod limit name case = some (rest, case')) :
    (∃ units bytes, Scanned stopAtPeriod limit name rest case' units bytes) ∧
      (case.hasUppercase → case'.hasUppercase) ∧ (case.hasLowercase → case'.hasLowercase) := by
  induction limit generalizing name case with
  | zero =>
    cases scanned
    exact ⟨⟨[], [], rfl, .nil, le_rfl, uniform, .inr (.inl rfl)⟩, fun h => h, fun h => h⟩
  | succ limit ih =>
    cases name with
    | nil =>
      cases scanned
      exact ⟨⟨[], [], rfl, .nil, Nat.zero_le _, uniform, .inl rfl⟩, fun h => h, fun h => h⟩
    | cons unit name =>
      unfold scanComponent at scanned
      split at scanned
      · rename_i period
        cases scanned
        refine ⟨⟨[], [], rfl, .nil, Nat.zero_le _, uniform, .inr (.inr ⟨period.1, ?_⟩)⟩, fun h => h, fun h => h⟩
        rw [head?_cons, period.2]
      split at scanned
      · cases scanned
      rename_i character known
      split at scanned
      · cases scanned
      rename_i case'' compatible
      rcases isShortNameCharacterCompatible_spec uniform compatible with
        ⟨short, uniform', upper, lower, isLower, isUpper⟩
      have printed' : ∀ unit ∈ name, unit ≠ 0 := fun u member => printed u (mem_cons_of_mem _ member)
      rcases ih uniform' printed' scanned with ⟨⟨units, bytes, rest'⟩, upper', lower'⟩
      have some' : character ≠ 0 :=
        (cp437ToUtf16_utf16ToCp437 known).2.2 (printed unit mem_cons_self)
      have first : ShortUnit case' unit character :=
        ⟨known, some', short, fun h => lower' (isLower h), fun h h' => upper' (isUpper h h')⟩
      refine ⟨⟨unit :: units, _, ?_, .cons first rest'.component, ?_, rest'.uniform, ?_⟩,
        fun h => upper' (upper h), fun h => lower' (lower h)⟩
      · rw [rest'.name]
        rfl
      · exact Nat.succ_le_succ rest'.length
      · rcases rest'.ended with none | full | period
        · exact .inl none
        · exact .inr (.inl (congrArg Nat.succ full))
        · exact .inr (.inr period)

namespace Component

variable {units : List Nat} {bytes : List UInt8}

section

variable (component : Component case units bytes)

include component

theorem length_eq : bytes.length = units.length := by
  induction component with
  | nil => rfl
  | cons _ _ ih => rw [length_cons, length_cons, ih]

theorem stored :
    ∀ byte ∈ bytes, byte ≠ 0x20 ∧ byte ≠ 0 ∧ byte ≠ 0xe5 ∧ byte ≠ 5 := by
  induction component with
  | nil => simp
  | cons first _ ih =>
    intro byte member
    rcases mem_cons.1 member with rfl | member
    · have character := storedCharacter first.short first.some'
      exact ⟨character.notBlank, character.notEnd, character.notErased, character.notKanji⟩
    · exact ih byte member

theorem units_spec :
    ∀ unit ∈ units, unit ≠ 0x2e ∧ unit ≤ 0x25a0 := by
  induction component with
  | nil => simp
  | cons first _ ih =>
    intro unit member
    rcases mem_cons.1 member with rfl | member
    · exact ⟨first.ne_period, (cp437ToUtf16_utf16ToCp437 first.known).2.1⟩
    · exact ih unit member

theorem decode (uniform : ¬(case.hasUppercase ∧ case.hasLowercase)) :
    (bytes.flatMap fun byte => unicodeToUtf8 (cp437ToUtf16
      (if case.hasLowercase then convertCp437CharacterCase byte true else byte))) = encode units := by
  induction component with
  | nil => rfl
  | cons first _ ih => rw [flatMap_cons, encode_cons, first.decoded uniform, ih]

theorem generateBase {base : List UInt8} {rest : List Nat} (short : base.length + units.length ≤ 8)
    (ended : rest = [] ∨ rest.head? = some 0x2e ∧ base ++ bytes ≠ []) :
    Fat.generateBase (units ++ rest) base = .ok (base ++ bytes, false) := by
  induction component generalizing base with
  | nil =>
    rw [nil_append, append_nil]
    rcases ended with rfl | ⟨isPeriod, some'⟩
    · rfl
    · obtain ⟨_, rfl⟩ := head?_eq_some_iff.1 isPeriod
      rw [append_nil] at some'
      unfold Fat.generateBase
      simp only [some', if_false, if_true, Nat.reduceEqDiff, ite_self]
  | @cons unit character units bytes first _ ih =>
    rw [length_cons] at short
    rw [cons_append, Fat.generateBase, if_neg (by omega), if_neg first.ne_zero, if_neg first.ne_period,
      first.isValid, first.filtered]
    have short' : (base ++ [convertCp437CharacterCase character false]).length + units.length ≤ 8 := by
      rw [length_append, length_singleton]
      omega
    have later := ih short' (by rw [append_assoc]; exact ended)
    rw [append_assoc] at later
    exact later

theorem generateExtension {extension : List UInt8} (short : extension.length + units.length ≤ 3) :
    Fat.generateExtension units extension = .ok (extension ++ bytes) := by
  induction component generalizing extension with
  | nil => rw [Fat.generateExtension, append_nil]
  | @cons unit character units bytes first _ ih =>
    rw [length_cons] at short
    rw [Fat.generateExtension, if_neg (by omega), if_neg first.ne_zero, first.isValid, first.filtered]
    have short' : (extension ++ [convertCp437CharacterCase character false]).length + units.length ≤ 3 := by
      rw [length_append, length_singleton]
      omega
    have later := ih short'
    rw [append_assoc] at later
    exact later

end

end Component

/-! ## 8.3 names -/

/-- A name in two components, of which the second may be missing. -/
structure EightThree (units : List Nat) (flags : Nat) (baseCase extensionCase : ComponentCase)
    (base extension : List Nat) (baseBytes extensionBytes : List UInt8) : Prop where
  units : units = base ++ (if extension = [] then [] else 0x2e :: extension)
  flags : flags = (if baseCase.hasLowercase then shortNameLowercaseBase else 0) |||
    (if extensionCase.hasLowercase then shortNameLowercaseExtension else 0)
  isBase : Component baseCase base baseBytes
  isExtension : Component extensionCase extension extensionBytes
  baseUniform : ¬(baseCase.hasUppercase ∧ baseCase.hasLowercase)
  extensionUniform : ¬(extensionCase.hasUppercase ∧ extensionCase.hasLowercase)
  baseLength : base.length ≤ 8
  extensionLength : extension.length ≤ 3
  some' : base ≠ []

theorem shortNameCaseFlags_spec {units : List Nat} {flags : Nat} (some' : units ≠ [])
    (printed : ∀ unit ∈ units, unit ≠ 0) (short : shortNameCaseFlags units = some flags) :
    ∃ baseCase extensionCase base extension baseBytes extensionBytes,
      EightThree units flags baseCase extensionCase base extension baseBytes extensionBytes := by
  have uniform : ¬(({} : ComponentCase).hasUppercase ∧ ({} : ComponentCase).hasLowercase) := by decide
  unfold shortNameCaseFlags at short
  split at short
  · cases short
  rename_i rest baseCase scanned
  obtain ⟨⟨base, baseBytes, isBase⟩, -⟩ := scanComponent_spec uniform printed scanned
  dsimp only at short
  split at short
  · cases short
    have whole := isBase.name
    rw [append_nil] at whole
    refine ⟨baseCase, {}, base, [], baseBytes, [], ?_, ?_, isBase.component, .nil, isBase.uniform, uniform,
      isBase.length, Nat.zero_le _, whole ▸ some'⟩
    · rw [if_pos rfl, append_nil]
      exact whole
    · simp
  rename_i period extension
  split at short
  · cases short
  rename_i longer
  split at short
  · cases short
  rename_i isPeriod
  have isPeriod := not_not.1 isPeriod
  subst isPeriod
  split at short
  · cases short
  rename_i extensionSome
  split at short
  · rename_i extensionCase extensionScanned
    cases short
    have printed' : ∀ unit ∈ extension, unit ≠ 0 := by
      intro unit member
      apply printed
      rw [isBase.name]
      exact mem_append_right _ (mem_cons_of_mem _ member)
    obtain ⟨⟨units', extensionBytes, isExtension⟩, -⟩ := scanComponent_spec uniform printed' extensionScanned
    have same := isExtension.name
    rw [append_nil] at same
    subst same
    refine ⟨baseCase, extensionCase, base, extension, baseBytes, extensionBytes, ?_, rfl, isBase.component,
      isExtension.component, isBase.uniform, isExtension.uniform, isBase.length, isExtension.length, ?_⟩
    · rw [if_neg extensionSome]
      exact isBase.name
    · intro none
      apply longer
      rw [isBase.name, none, nil_append]
  · cases short

theorem length_pad {length : Nat} {bytes : List UInt8} (short : bytes.length ≤ length) :
    (pad length bytes).length = length := by
  rw [pad, length_append, length_replicate]
  omega

theorem takeWhile_pad {length : Nat} {bytes : List UInt8} (plain : ∀ byte ∈ bytes, byte ≠ 0x20) :
    (pad length bytes).takeWhile (· ≠ 0x20) = bytes := by
  rw [pad, takeWhile_append_of_pos (by simpa using plain), takeWhile_replicate]
  simp

theorem afterLastPeriod_append {base extension : List Nat} (plain : ∀ unit ∈ extension, unit ≠ 0x2e) :
    afterLastPeriod (base ++ 0x2e :: extension) = some extension := by
  have reversed : (base ++ 0x2e :: extension).reverse = extension.reverse ++ 0x2e :: base.reverse := by simp
  unfold afterLastPeriod
  rw [if_pos (by simp), reversed, takeWhile_append_of_pos (by simpa using plain)]
  simp

theorem afterLastPeriod_none {units : List Nat} (plain : ∀ unit ∈ units, unit ≠ 0x2e) :
    afterLastPeriod units = none := by
  unfold afterLastPeriod
  rw [if_neg]
  simpa using fun member => plain _ member rfl

namespace EightThree

variable {units base extension : List Nat} {flags : Nat} {baseCase extensionCase : ComponentCase}
  {baseBytes extensionBytes : List UInt8}

section

variable (form : EightThree units flags baseCase extensionCase base extension baseBytes extensionBytes)

include form

theorem baseBytes_ne_nil :
    baseBytes ≠ [] := by
  have length := form.isBase.length_eq
  have positive := length_pos_iff.2 form.some'
  exact length_pos_iff.1 (by omega)

theorem generateShortName :
    Fat.generateShortName units = .ok (pad 11 (pad 8 baseBytes ++ extensionBytes)) := by
  have some' := form.baseBytes_ne_nil
  have generated : generateBase units [] = .ok (baseBytes, false) := by
    rw [form.units]
    apply form.isBase.generateBase
    · simpa using form.baseLength
    · split
      · exact .inl rfl
      · exact .inr ⟨rfl, some'⟩
  unfold Fat.generateShortName
  rw [generated]
  simp only [if_neg some', Bool.false_eq_true, if_false]
  by_cases noExtension : extension = []
  · have units := form.units
    have isExtension := form.isExtension
    rw [if_pos noExtension, append_nil] at units
    rw [units, afterLastPeriod_none fun unit member => (form.isBase.units_spec unit member).1]
    subst noExtension
    cases isExtension
    rw [append_nil]
  · have units := form.units
    rw [if_neg noExtension] at units
    have later : generateExtension extension [] = .ok ([] ++ extensionBytes) :=
      form.isExtension.generateExtension (by simpa using form.extensionLength)
    rw [units, afterLastPeriod_append fun unit member => (form.isExtension.units_spec unit member).1]
    simp only [later, nil_append]

/-- Both flags are read as the case of their component. -/
theorem lowercase :
    (flags &&& shortNameLowercaseBase != 0) = baseCase.hasLowercase ∧
      (flags &&& shortNameLowercaseExtension != 0) = extensionCase.hasLowercase := by
  rw [form.flags]
  cases baseCase.hasLowercase <;> cases extensionCase.hasLowercase <;> decide

theorem decode
    {e : FATDirectoryEntryCombo} (filename : e.filename = pad 11 (pad 8 baseBytes ++ extensionBytes))
    (caseFlags : e.shortNameCaseFlags = flags) : fatRawShortNameToUtf8 e = encode units := by
  have baseLength : baseBytes.length ≤ 8 := by
    rw [form.isBase.length_eq]
    exact form.baseLength
  have padded := length_pad baseLength
  have split : e.filename = pad 8 baseBytes ++ pad 3 extensionBytes := by
    have rest : 11 - (pad 8 baseBytes ++ extensionBytes).length = 3 - extensionBytes.length := by
      rw [length_append]
      omega
    rw [filename, pad, rest, append_assoc]
    rfl
  have isBase : (e.filename.take 8).takeWhile (· ≠ 0x20) = baseBytes := by
    rw [split, take_append_of_le_length (by omega), take_of_length_le (by omega),
      takeWhile_pad fun byte member => (form.isBase.stored byte member).1]
  have isExtension : (e.filename.drop 8).takeWhile (· ≠ 0x20) = extensionBytes := by
    rw [split, drop_append_of_le_length (by omega), drop_of_length_le (by omega), nil_append,
      takeWhile_pad fun byte member => (form.isExtension.stored byte member).1]
  have notKanji : ¬baseBytes.head? = some 5 := by
    intro first
    obtain ⟨_, isHead⟩ := head?_eq_some_iff.1 first
    exact (form.isBase.stored 5 (by rw [isHead]; exact mem_cons_self)).2.2.2 rfl
  unfold fatRawShortNameToUtf8
  dsimp only
  rw [isBase, isExtension, if_neg notKanji, caseFlags, form.lowercase.1, form.lowercase.2,
    form.isBase.decode form.baseUniform, form.isExtension.decode form.extensionUniform, form.units, encode_append]
  congr 1
  by_cases noExtension : extension = []
  · have isExtension := form.isExtension
    subst noExtension
    cases isExtension
    rfl
  · have length := form.isExtension.length_eq
    have positive := length_pos_iff.2 noExtension
    rw [if_neg (length_pos_iff.1 (by omega)), if_neg noExtension]
    rfl

theorem units_lt :
    ∀ unit ∈ units, unit < 0xd800 := by
  intro unit member
  rw [form.units] at member
  rcases mem_append.1 member with inBase | inRest
  · have most := (form.isBase.units_spec unit inBase).2
    omega
  · split at inRest
    · cases inRest
    · rcases mem_cons.1 inRest with rfl | inExtension
      · decide
      · have most := (form.isExtension.units_spec unit inExtension).2
        omega

end

end EightThree

/-- A name that needs no long name is read back from its short name and the flags, and the
short name begins with none of the markers. -/
theorem fatRawShortNameToUtf8_generateShortName {flags : Nat} (accepted : validateNewFATName name = .ok ())
    (short : shortNameCaseFlags (longNameUnits name) = some flags) :
    ∃ shortName, generateShortName (longNameUnits name) = .ok shortName ∧ shortName.length = 11 ∧
      (∀ e : FATDirectoryEntryCombo, e.filename = shortName → e.shortNameCaseFlags = flags →
        fatRawShortNameToUtf8 e = name) ∧
      shortName.head? ≠ some 0 ∧ shortName.head? ≠ some 0xe5 := by
  obtain ⟨cs, rfl, some', printed, units⟩ := validateNewFATName_spec accepted
  rw [units] at short ⊢
  have unitsSome : utf16 cs ≠ [] := by
    obtain ⟨c, cs, rfl⟩ := exists_cons_of_ne_nil some'
    unfold utf16 utf16Units
    rw [flatMap_cons]
    split <;> simp
  obtain ⟨baseCase, extensionCase, base, extension, baseBytes, extensionBytes, form⟩ :=
    shortNameCaseFlags_spec unitsSome (utf16_ne_zero printed) short
  have same := utf16_eq form.units_lt
  rw [same] at form ⊢
  have baseLength : baseBytes.length ≤ 8 := by
    rw [form.isBase.length_eq]
    exact form.baseLength
  have extensionLength : extensionBytes.length ≤ 3 := by
    rw [form.isExtension.length_eq]
    exact form.extensionLength
  have length : (pad 11 (pad 8 baseBytes ++ extensionBytes)).length = 11 := by
    apply length_pad
    rw [length_append, length_pad baseLength]
    omega
  obtain ⟨first, rest, isBase⟩ := exists_cons_of_ne_nil form.baseBytes_ne_nil
  have head : (pad 11 (pad 8 baseBytes ++ extensionBytes)).head? = some first := by
    rw [isBase]
    rfl
  have stored := form.isBase.stored first (by rw [isBase]; exact mem_cons_self)
  refine ⟨_, form.generateShortName, length, fun e filename caseFlags => form.decode filename caseFlags, ?_, ?_⟩
  · rw [head]
    exact fun zero => stored.2.1 (some.inj zero)
  · rw [head]
    exact fun erased => stored.2.2.1 (some.inj erased)

/-- `märz.TXT`, whose base is in lower case. -/
theorem fatRawShortNameToUtf8_generateShortName_maerz :
    ∃ shortName, generateShortName (longNameUnits [0x6d, 0xc3, 0xa4, 0x72, 0x7a, 0x2e, 0x54, 0x58, 0x54]) =
        .ok shortName ∧ shortName.length = 11 ∧
      (∀ e : FATDirectoryEntryCombo, e.filename = shortName → e.shortNameCaseFlags = shortNameLowercaseBase →
        fatRawShortNameToUtf8 e = [0x6d, 0xc3, 0xa4, 0x72, 0x7a, 0x2e, 0x54, 0x58, 0x54]) ∧
      shortName.head? ≠ some 0 ∧ shortName.head? ≠ some 0xe5 :=
  fatRawShortNameToUtf8_generateShortName (by decide +kernel) (by decide +kernel)

end PadOS.Fat
