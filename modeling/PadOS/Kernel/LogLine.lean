import PadOS.Utils.ByteSize

/-! # Lines of the log file

A line holds the time twice, the category, the severity and the message in quotes. The writer counts
the bytes of a message, the parser reads up to a zero byte.
-/

namespace PadOS.Kernel

open List Option
open Unicode (PString)
open Utils (ascii isSpace isDigit decimalValue int64Max int64Min)

/-- The bytes of a text, as far as its zero-terminated form shows them. -/
def c_str (s : PString) : PString := s.takeWhile (· != 0)

def literal (s : String) : PString := s.toList.map ascii

/-- FNV-1a. What a `char` is as a number is left to the compiler. -/
def hash_string_literal (charValue : UInt8 → BitVec 32) (s : PString) : BitVec 32 :=
  (c_str s).foldl (fun hash c => (hash ^^^ charValue c) * 16777619#32) 2166136261#32

inductive PLogSeverity
  | NONE
  | FATAL
  | CRITICAL
  | ERROR
  | WARNING
  | NOTICE
  | INFO_LOW_VOL
  | INFO_HIGH_VOL
  | INFO_FLOODING
  deriving DecidableEq

namespace PLogSeverity

def names : List (PLogSeverity × PString) :=
  [(NONE, literal "NONE"), (FATAL, literal "FATAL"), (CRITICAL, literal "CRITICAL"),
    (ERROR, literal "ERROR"), (WARNING, literal "WARNING"), (NOTICE, literal "NOTICE"),
    (INFO_LOW_VOL, literal "INFO_LOW_VOL"), (INFO_HIGH_VOL, literal "INFO_HIGH_VOL"),
    (INFO_FLOODING, literal "INFO_FLOODING")]

def name (severity : PLogSeverity) : PString :=
  ((names.find? (·.1 == severity)).map Prod.snd).getD (literal "*unknown*")

/-- The severity with a name. -/
def ofName (severityName : PString) : PLogSeverity :=
  ((names.find? (·.2 == severityName)).map Prod.fst).getD NONE

end PLogSeverity

namespace KLogManager

/-- The fields of a calendar time that the writer prints. -/
structure Tm where
  tm_year : Int
  tm_mon : Int
  tm_mday : Int
  tm_hour : Int
  tm_min : Int
  tm_sec : Int

def decimal (n : Nat) : PString :=
  if n < 10 then [.ofNat (48 + n)] else decimal (n / 10) ++ [.ofNat (48 + n % 10)]

/-- `{:0width}` -/
def padded (width : Nat) (value : Int) : PString :=
  let sign := if value < 0 then [ascii '-'] else []
  let digits := decimal value.natAbs
  sign ++ List.replicate (width - (sign.length + digits.length)) (ascii '0') ++ digits

def escape (message : PString) : PString :=
  message.flatMap fun character =>
    if character = ascii '\\' then literal "\\\\"
    else if character = ascii '\n' then literal "\\n"
    else if character = ascii '"' then literal "\\\""
    else [character]

def humanTS (gmtime : Int → Tm) (timestamp : Int) : PString :=
  let seconds := timestamp.tdiv 1000000000
  let centiseconds := (timestamp.tmod 1000000000).tdiv 10000000
  let timeInfo := gmtime seconds
  padded 4 (timeInfo.tm_year + 1900) ++ padded 2 (timeInfo.tm_mon + 1) ++
    padded 2 timeInfo.tm_mday ++ literal "." ++ padded 2 timeInfo.tm_hour ++ literal ":" ++
    padded 2 timeInfo.tm_min ++ literal ":" ++ padded 2 timeInfo.tm_sec ++ literal "." ++
    padded 2 centiseconds

/-- The line that `WriteEntryToFile` writes. -/
def WriteEntryToFile (gmtime : Int → Tm) (timestamp : Int)
    (categoryName severityName message : PString) : PString :=
  humanTS gmtime timestamp ++ ascii ' ' :: (padded 0 timestamp ++ ascii ' ' :: (categoryName ++
    ascii ' ' :: (severityName ++ ascii ' ' :: ascii '"' :: (escape message ++ literal "\"\n"))))

structure LogMessage where
  timestamp : Int
  categoryHash : BitVec 32
  severity : PLogSeverity
  message : PString
  deriving DecidableEq

/-- A token that ends with a blank, and what is behind the blank. -/
def token (p : PString) : Option (PString × PString) :=
  match p.dropWhile (· != ascii ' ') with
  | [] => none
  | _ :: rest => some (p.takeWhile (· != ascii ' '), rest)

/-- `strtoll` with base 10: the number, and where it ends. -/
def strtoll (p : PString) : Int × PString :=
  let text := p.dropWhile isSpace
  let negative := text.head? == some (ascii '-')
  let number := if negative || text.head? == some (ascii '+') then text.tail else text
  let digits := number.takeWhile isDigit
  let value : Int := if negative then -decimalValue digits else decimalValue digits
  if digits = [] then (0, p) else (max int64Min (min int64Max value), number.dropWhile isDigit)

def unescape : PString → PString
  | [] => []
  | c :: rest =>
    if c = ascii '\\' then
      match rest with
      | [] => []
      | escaped :: rest =>
        (if escaped = ascii '\\' then [ascii '\\']
        else if escaped = ascii 'n' then [ascii '\n']
        else if escaped = ascii '"' then [ascii '"']
        else [ascii '\\', escaped]) ++ unescape rest
    else if c = ascii '"' then []
    else c :: unescape rest

/-- `ParseLogfileLine`, from the message on. -/
def parseMessage (charValue : UInt8 → BitVec 32) (nanos : Int) (categoryName severityName p : PString) :
    Option LogMessage :=
  match p with
  | [] => none
  | quote :: p =>
    if quote ≠ ascii '"' then none
    else some ⟨nanos, hash_string_literal charValue categoryName, .ofName severityName, unescape p⟩

def ParseLogfileLine (charValue : UInt8 → BitVec 32) (lineBuffer : PString) : Option LogMessage := do
  let (_, p) ← token (c_str lineBuffer)
  let (nanos, end_) := strtoll p
  if end_ = p ∨ end_.head? ≠ some (ascii ' ') then none
  else
    let (categoryName, p) ← token end_.tail
    let (severityName, p) ← token p
    parseMessage charValue nanos categoryName severityName p

/-! ## Bytes of a line -/

/-- Neither a zero byte nor one that ends a token or a line. -/
def Plain (c : UInt8) : Prop := c ≠ 0 ∧ c ≠ ascii ' ' ∧ c ≠ ascii '\n'

instance (c : UInt8) : Decidable (Plain c) := inferInstanceAs (Decidable (_ ∧ _ ∧ _))

/-- A category name: not empty, no blanks, quotes or control characters. -/
def IsCategoryName (s : PString) : Prop :=
  s ≠ [] ∧ ∀ c ∈ s, 0x20 < c ∧ c ≠ 0x7f ∧ c ≠ ascii '"' ∧ c ≠ ascii '\''

/-- The line has one newline, at its end, and is parsed as what was written. -/
def RoundTrips (gmtime : Int → Tm) (charValue : UInt8 → BitVec 32) (timestamp : Int)
    (categoryName : PString) (severity : PLogSeverity) (message : PString) : Prop :=
  ∃ line, WriteEntryToFile gmtime timestamp categoryName severity.name message =
      line ++ [ascii '\n'] ∧ ascii '\n' ∉ line ∧
    ParseLogfileLine charValue line =
      some ⟨timestamp, hash_string_literal charValue categoryName, severity, message⟩

variable {p rest message : PString} {c : UInt8}

theorem decimal_digit (n : Nat) : ∀ c ∈ decimal n, isDigit c = true := by
  have digit (d : Nat) (small : d < 10) : isDigit (.ofNat (48 + d)) = true := by
    revert d
    decide
  fun_induction decimal n with
  | case1 n small => simpa using digit n small
  | case2 n large ih =>
    intro c member
    rcases mem_append.mp member with front | last
    · exact ih c front
    · rw [mem_singleton.mp last]
      exact digit _ (Nat.mod_lt _ (by decide))

theorem decimalValue_decimal (n : Nat) : decimalValue (decimal n) = n := by
  have digit (d : Nat) (small : d < 10) : (UInt8.ofNat (48 + d)).toNat - (ascii '0').toNat = d := by
    revert d
    decide
  fun_induction decimal n with
  | case1 n small =>
    show 10 * 0 + ((UInt8.ofNat (48 + n)).toNat - _) = n
    rw [digit n small]
    omega
  | case2 n large ih =>
    rw [decimalValue, foldl_append]
    show 10 * decimalValue (decimal (n / 10)) + ((UInt8.ofNat (48 + n % 10)).toNat - _) = n
    rw [ih, digit _ (Nat.mod_lt _ (by decide))]
    omega

theorem decimal_ne_nil (n : Nat) : decimal n ≠ [] := by
  unfold decimal
  split
  · exact cons_ne_nil _ _
  · exact append_ne_nil_of_right_ne_nil _ (cons_ne_nil _ _)

theorem digit_spec : ∀ c, isDigit c = true → Plain c ∧ isSpace c = false ∧ c ≠ ascii '-' ∧
    c ≠ ascii '+' :=
  Unicode.forall_byte (by decide +kernel)

theorem padded_plain (width : Nat) (value : Int) : ∀ c ∈ padded width value, Plain c := by
  intro c member
  unfold padded at member
  dsimp only at member
  rcases mem_append.mp member with front | digit
  · rcases mem_append.mp front with sign | zero
    · split at sign
      · rw [mem_singleton.mp sign]
        decide
      · cases sign
    · rw [eq_of_mem_replicate zero]
      decide
  · exact (digit_spec c (decimal_digit _ c digit)).1

theorem padded_zero {value : Int} (nonneg : 0 ≤ value) : padded 0 value = decimal value.natAbs := by
  unfold padded
  rw [if_neg (by omega)]
  simp

/-! ## Tokens -/

theorem takeWhile_append {q : UInt8 → Bool} (all : ∀ c ∈ p, q c = true) (stops : q c = false)
    (rest : PString) :
    (p ++ c :: rest).takeWhile q = p ∧ (p ++ c :: rest).dropWhile q = c :: rest := by
  rw [takeWhile_append_of_pos all, dropWhile_append_of_pos all,
    takeWhile_cons_of_neg (by simp [stops]), dropWhile_cons_of_neg (by simp [stops]),
    append_nil]
  exact ⟨rfl, rfl⟩

theorem token_append (plain : ∀ c ∈ p, Plain c) (rest : PString) :
    token (p ++ ascii ' ' :: rest) = some (p, rest) := by
  obtain ⟨front, behind⟩ := takeWhile_append (c := ascii ' ')
    (fun c member => bne_iff_ne.mpr (plain c member).2.1) (by decide) rest
  rw [token, behind, front]

theorem strtoll_decimal {n : Nat} (fits : (n : Int) ≤ int64Max) (rest : PString) :
    strtoll (decimal n ++ ascii ' ' :: rest) = ((n : Int), ascii ' ' :: rest) := by
  obtain ⟨c, digits, whole⟩ := exists_cons_of_ne_nil (decimal_ne_nil n)
  obtain ⟨_, notSpace, notMinus, notPlus⟩ :=
    digit_spec c (decimal_digit n c (by rw [whole]; exact mem_cons_self))
  have start : (decimal n ++ ascii ' ' :: rest).dropWhile isSpace = decimal n ++ ascii ' ' :: rest := by
    rw [whole]
    exact dropWhile_cons_of_neg (by simp [notSpace])
  have first : (decimal n ++ ascii ' ' :: rest).head? = some c := by
    rw [whole]
    rfl
  obtain ⟨front, behind⟩ := takeWhile_append (c := ascii ' ') (decimal_digit n) (by decide) rest
  have minus : (some c == some (ascii '-')) = false := by simpa using notMinus
  have plus : (some c == some (ascii '+')) = false := by simpa using notPlus
  unfold strtoll
  simp only [start, first, minus, plus, Bool.or_self, Bool.false_eq_true, if_false, front, behind,
    if_neg (decimal_ne_nil n), decimalValue_decimal]
  have low : int64Min ≤ (n : Int) := by
    unfold int64Min
    omega
  rw [min_eq_right fits, max_eq_right low]

theorem name_plain (severity : PLogSeverity) : ∀ c ∈ severity.name, Plain c := by
  cases severity <;> simp [PLogSeverity.name, PLogSeverity.names, literal] <;> decide

theorem ofName_name (severity : PLogSeverity) : PLogSeverity.ofName severity.name = severity := by
  cases severity <;>
    simp [PLogSeverity.ofName, PLogSeverity.name, PLogSeverity.names, literal] <;> decide

/-! ## Messages -/

theorem c_str_append (plain : ∀ c ∈ p, c ≠ 0) (rest : PString) : c_str (p ++ rest) = p ++ c_str rest :=
  takeWhile_append_of_pos fun c member => bne_iff_ne.mpr (plain c member)

theorem unescape_escaped (c : UInt8) (rest : PString) : unescape (ascii '\\' :: c :: rest) =
    (if c = ascii '\\' then [ascii '\\'] else if c = ascii 'n' then [ascii '\n']
      else if c = ascii '"' then [ascii '"'] else [ascii '\\', c]) ++ unescape rest := by
  rw [unescape.eq_def]
  exact if_pos rfl

theorem unescape_escape (message rest : PString) :
    unescape (escape message ++ rest) = message ++ unescape rest := by
  induction message with
  | nil => rfl
  | cons c message ih =>
    rw [escape, flatMap_cons, append_assoc]
    change unescape (_ ++ (escape message ++ rest)) = _
    split_ifs with backslash newline quote
    · rw [backslash]
      show unescape (ascii '\\' :: ascii '\\' :: (escape message ++ rest)) = _
      rw [unescape_escaped, ih]
      rfl
    · rw [newline]
      show unescape (ascii '\\' :: ascii 'n' :: (escape message ++ rest)) = _
      rw [unescape_escaped, ih]
      rfl
    · rw [quote]
      show unescape (ascii '\\' :: ascii '"' :: (escape message ++ rest)) = _
      rw [unescape_escaped, ih]
      rfl
    · show unescape (c :: (escape message ++ rest)) = _
      rw [unescape.eq_def]
      dsimp only
      rw [if_neg backslash, if_neg quote, ih]
      rfl

theorem mem_escape_singleton {e : UInt8} (member : e ∈ escape [c]) :
    e = c ∧ c ≠ ascii '\n' ∨ e ∈ [ascii '\\', ascii 'n', ascii '"'] := by
  have all : ∀ text ∈ [literal "\\\\", literal "\\n", literal "\\\""], ∀ e ∈ text,
      e ∈ [ascii '\\', ascii 'n', ascii '"'] := by simp [literal]
  rw [escape, flatMap_singleton] at member
  split at member
  · exact .inr (all _ (by simp) e member)
  · split at member
    · exact .inr (all _ (by simp) e member)
    · split at member
      · exact .inr (all _ (by simp) e member)
      · exact .inl ⟨mem_singleton.mp member, ‹_›⟩

theorem c_str_escape (message rest : PString) : c_str (escape message ++ rest) =
    escape (c_str message) ++ if 0 ∈ message then [] else c_str rest := by
  induction message with
  | nil => rfl
  | cons c message ih =>
    by_cases zero : c = 0
    · subst zero
      rw [if_pos mem_cons_self]
      rfl
    · have escaped : ∀ e ∈ escape [c], e ≠ 0 := by
        intro e member
        rcases mem_escape_singleton member with ⟨same, _⟩ | added
        · exact same ▸ zero
        · have nonzero : ∀ e ∈ [ascii '\\', ascii 'n', ascii '"'], e ≠ 0 := by simp [ascii]
          exact nonzero e added
      have front (message : PString) : escape (c :: message) = escape [c] ++ escape message := by
        rw [escape, escape, flatMap_singleton]
        rfl
      have stays : c_str (c :: message) = c :: c_str message :=
        takeWhile_cons_of_pos (bne_iff_ne.mpr zero)
      have same : (0 ∈ c :: message) = (0 ∈ message) :=
        propext (mem_cons.trans (or_iff_right (Ne.symm zero)))
      rw [front, append_assoc, c_str_append escaped, ih, stays, front (c_str message), append_assoc]
      simp only [same]

theorem newline_not_mem_escape (message : PString) : ascii '\n' ∉ escape message := by
  intro member
  obtain ⟨c, _, escaped⟩ := mem_flatMap.mp member
  have found : ascii '\n' ∈ escape [c] := by
    rw [escape, flatMap_singleton]
    exact escaped
  rcases mem_escape_singleton found with ⟨same, other⟩ | added
  · exact other same.symm
  · exact absurd added (by decide)

/-! ## Lines -/

section
variable {gmtime : Int → Tm} {timestamp : Int} {categoryName : PString} {severity : PLogSeverity}

theorem IsCategoryName.plain (named : IsCategoryName categoryName) : ∀ c ∈ categoryName, Plain c := by
  intro c member
  obtain ⟨printable, _⟩ := named.2 c member
  refine ⟨?_, ?_, ?_⟩ <;> rintro rfl <;> exact absurd printable (by decide)

theorem humanTS_plain : ∀ c ∈ humanTS gmtime timestamp, Plain c := by
  simp only [humanTS, forall_mem_append]
  repeat' apply And.intro
  all_goals first | exact padded_plain _ _ | (simp [literal]; decide)

/-- The line without its newline, from the escaped message on. -/
def lineBefore (gmtime : Int → Tm) (timestamp : Int) (categoryName severityName tail : PString) :
    PString :=
  humanTS gmtime timestamp ++ ascii ' ' :: (padded 0 timestamp ++ ascii ' ' :: (categoryName ++
    ascii ' ' :: (severityName ++ ascii ' ' :: ascii '"' :: tail)))

theorem c_str_lineBefore (named : IsCategoryName categoryName) (tail : PString) :
    c_str (lineBefore gmtime timestamp categoryName severity.name tail) =
      lineBefore gmtime timestamp categoryName severity.name (c_str tail) := by
  have ahead {front : PString} (plain : ∀ c ∈ front, Plain c) (rest : PString) :
      c_str (front ++ ascii ' ' :: rest) = front ++ ascii ' ' :: c_str rest := by
    rw [c_str_append fun c member => (plain c member).1]
    exact congrArg _ (takeWhile_cons_of_pos (by decide))
  unfold lineBefore
  rw [ahead humanTS_plain, ahead (padded_plain 0 timestamp), ahead named.plain,
    ahead (name_plain severity), c_str, takeWhile_cons_of_pos (by decide)]
  rfl

theorem parse_lineBefore {charValue : UInt8 → BitVec 32} {line tail : PString}
    (named : IsCategoryName categoryName) (nonneg : 0 ≤ timestamp) (fits : timestamp ≤ int64Max)
    (shown : c_str line = lineBefore gmtime timestamp categoryName severity.name tail) :
    ParseLogfileLine charValue line = some
      ⟨timestamp, hash_string_literal charValue categoryName, severity, unescape tail⟩ := by
  obtain ⟨n, rfl⟩ := Int.eq_ofNat_of_zero_le nonneg
  unfold ParseLogfileLine
  have moved (rest : PString) : ¬(ascii ' ' :: rest = decimal n ++ ascii ' ' :: rest) := fun same =>
    decimal_ne_nil n (self_eq_append_left.mp same)
  rw [shown, lineBefore, token_append humanTS_plain, padded_zero nonneg, Int.natAbs_natCast]
  simp only [bind_eq_bind, bind_some, strtoll_decimal fits, moved, false_or,
    head?_cons, ne_eq, not_true, if_false, tail_cons, token_append named.plain,
    token_append (name_plain severity), parseMessage, ofName_name]

theorem WriteEntryToFile_eq (severityName message : PString) :
    WriteEntryToFile gmtime timestamp categoryName severityName message =
      lineBefore gmtime timestamp categoryName severityName (escape message ++ [ascii '"']) ++
        [ascii '\n'] := by
  simp only [WriteEntryToFile, lineBefore, append_assoc, cons_append]
  rfl

theorem newline_not_mem_lineBefore (named : IsCategoryName categoryName) (message : PString) :
    ascii '\n' ∉ lineBefore gmtime timestamp categoryName severity.name
      (escape message ++ [ascii '"']) := by
  have absent {front : PString} (plain : ∀ c ∈ front, Plain c) : ascii '\n' ∉ front :=
    fun member => (plain _ member).2.2 rfl
  have blank : ascii '\n' ≠ ascii ' ' := by decide
  have quote : ascii '\n' ≠ ascii '"' := by decide
  simp [lineBefore, absent humanTS_plain, absent (padded_plain 0 timestamp), absent named.plain,
    absent (name_plain severity), newline_not_mem_escape, blank, quote]

theorem parse_written (charValue : UInt8 → BitVec 32) (named : IsCategoryName categoryName)
    (nonneg : 0 ≤ timestamp) (fits : timestamp ≤ int64Max) (message : PString) :
    ParseLogfileLine charValue (lineBefore gmtime timestamp categoryName severity.name
      (escape message ++ [ascii '"'])) = some
      ⟨timestamp, hash_string_literal charValue categoryName, severity, c_str message⟩ := by
  rw [parse_lineBefore named nonneg fits (c_str_lineBefore named _), c_str_escape, unescape_escape]
  split
  · exact congrArg _ (congrArg _ (append_nil _))
  · exact congrArg _ (congrArg _ (append_nil _))

theorem roundTrips_iff_no_zero (gmtime : Int → Tm) (charValue : UInt8 → BitVec 32)
    (timestamp : Int) (nonneg : 0 ≤ timestamp) (fits : timestamp ≤ int64Max)
    (categoryName : PString) (named : IsCategoryName categoryName) (severity : PLogSeverity)
    (message : PString) :
    RoundTrips gmtime charValue timestamp categoryName severity message ↔ 0 ∉ message := by
  have parsed : ParseLogfileLine charValue _ = some ⟨_, _, severity, c_str message⟩ :=
    @parse_written gmtime _ _ _ charValue named nonneg fits message
  have whole : c_str message = message ↔ 0 ∉ message := by
    rw [c_str, takeWhile_eq_self_iff]
    simp only [bne_iff_ne, ne_eq]
    exact ⟨fun all zero => all 0 zero rfl, fun none_ c member zero => none_ (zero ▸ member)⟩
  rw [← whole, RoundTrips, WriteEntryToFile_eq]
  constructor
  · rintro ⟨line, same, _, read⟩
    rw [← append_cancel_right same, parsed] at read
    exact (LogMessage.mk.inj (some.inj read)).2.2.2
  · intro same
    rw [same] at parsed
    exact ⟨_, rfl, newline_not_mem_lineBefore named message, parsed⟩

end

theorem roundTrips_iff_no_zero_quoted :
    RoundTrips (fun _ => ⟨70, 0, 1, 0, 0, 5⟩) (fun c => c.toBitVec.zeroExtend 32) 5000000000
      (literal "General") .WARNING (literal "a\n\"b\\\"") ↔ 0 ∉ literal "a\n\"b\\\"" := by
  apply roundTrips_iff_no_zero
  · decide
  · decide
  · exact ⟨by decide +kernel, by decide +kernel⟩

theorem zero_cuts_message : ¬RoundTrips (fun _ => ⟨70, 0, 1, 0, 0, 5⟩)
    (fun c => c.toBitVec.zeroExtend 32) 5000000000 (literal "General") .WARNING [97, 0, 98] := by
  rintro ⟨line, same, _, read⟩
  have cut : (ParseLogfileLine (fun c => c.toBitVec.zeroExtend 32)
      (WriteEntryToFile (fun _ => ⟨70, 0, 1, 0, 0, 5⟩) 5000000000 (literal "General")
        PLogSeverity.WARNING.name [97, 0, 98]).dropLast).map LogMessage.message = some [97] := by
    decide +kernel
  rw [same, dropLast_concat, read] at cut
  cases cut

end KLogManager

end PadOS.Kernel
