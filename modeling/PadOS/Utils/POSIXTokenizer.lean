import PadOS.Core.ShellQuoting
import PadOS.Core.Unicode

/-! # `PPOSIXTokenizer`

`SetText` cuts a command line into tokens, `ParseToken` reads one token and gives its characters
to a callback. The two read the quotes on their own; both agree with the quoting rules.
-/

namespace PadOS.Utils.PPOSIXTokenizer

open Unicode (PString)
open ShellQuoting List

def singleQuote : UInt8 := 0x27
def doubleQuote : UInt8 := 0x22
def backslash : UInt8 := 0x5c
def newline : UInt8 := 0x0a
def pipe : UInt8 := 0x7c
def dollar : UInt8 := 0x24
def backquote : UInt8 := 0x60

def isSpace (c : UInt8) : Bool := c == 0x20 || c == 0x09 || c == newline

abbrev QuoteMode := ShellQuoting.Mode

inductive Termination
  | normal
  | openSingle
  | openDouble
  | trailingSlash
  deriving DecidableEq

structure Token where
  start : Nat
  endIndex : Nat
  hasFormatting : Bool
  deriving DecidableEq

/-! ## `SetText` -/

def pushToken (tokens : List Token) (start : Nat) (hasFormatting : Bool) (newStart : Nat) :
    List Token :=
  if hasFormatting || decide (0 < newStart - start) then
    tokens ++ [⟨start, newStart, hasFormatting⟩]
  else tokens

def termination : QuoteMode → Termination
  | .none => .normal
  | .inSingle => .openSingle
  | .inDouble => .openDouble

/-- The text from `i` on; the current token is given by its start and its formatting. -/
def setTextLoop : PString → Nat → QuoteMode → Nat → Bool → List Token → List Token × Termination
  | [], i, mode, start, hasFormatting, tokens =>
    (pushToken tokens start hasFormatting i, termination mode)
  | character :: rest, i, .none, start, hasFormatting, tokens =>
    if isSpace character then
      setTextLoop rest (i + 1) .none (i + 1) false (pushToken tokens start hasFormatting i)
    else if character = singleQuote then setTextLoop rest (i + 1) .inSingle start true tokens
    else if character = doubleQuote then setTextLoop rest (i + 1) .inDouble start true tokens
    else if character = backslash then
      match rest with
      | [] => (pushToken tokens start true (i + 1), .trailingSlash)
      | _nextChar :: rest => setTextLoop rest (i + 2) .none start true tokens
    else if character = pipe then
      setTextLoop rest (i + 1) .none (i + 1) false
        (pushToken tokens start hasFormatting i ++ [⟨i, i + 1, false⟩])
    else setTextLoop rest (i + 1) .none start hasFormatting tokens
  | character :: rest, i, .inSingle, start, hasFormatting, tokens =>
    if character = singleQuote then
      setTextLoop rest (i + 1) .none start hasFormatting tokens
    else setTextLoop rest (i + 1) .inSingle start hasFormatting tokens
  | character :: rest, i, .inDouble, start, hasFormatting, tokens =>
    if character = doubleQuote then
      setTextLoop rest (i + 1) .none start hasFormatting tokens
    else if character = backslash then
      match rest with
      | [] => (pushToken tokens start hasFormatting (i + 1), .trailingSlash)
      | _nextChar :: rest => setTextLoop rest (i + 2) .inDouble start hasFormatting tokens
    else setTextLoop rest (i + 1) .inDouble start hasFormatting tokens

variable (text : PString)

/-- The tokens and how the text ends. -/
def setText : List Token × Termination := setTextLoop text 0 .none 0 false []

/-! ## `ParseToken` -/

section ParseToken

variable {σ : Type*} (callback : Nat → UInt8 → Bool → σ → σ × Bool)

def parseTokenLoop : PString → Nat → QuoteMode → σ → σ
  | [], _, _, s => s
  | character :: rest, i, .none, s =>
    if character = singleQuote then parseTokenLoop rest (i + 1) .inSingle s
    else if character = doubleQuote then parseTokenLoop rest (i + 1) .inDouble s
    else if character = backslash then
      match rest with
      | [] => s
      | nextChar :: rest =>
        if nextChar = newline then parseTokenLoop rest (i + 2) .none s
        else
          let (s, proceed) := callback (i + 1) nextChar true s
          if proceed then parseTokenLoop rest (i + 2) .none s else s
    else
      let (s, proceed) := callback i character false s
      if proceed then parseTokenLoop rest (i + 1) .none s else s
  | character :: rest, i, .inSingle, s =>
    if character = singleQuote then parseTokenLoop rest (i + 1) .none s
    else
      let (s, proceed) := callback i character true s
      if proceed then parseTokenLoop rest (i + 1) .inSingle s else s
  | character :: rest, i, .inDouble, s =>
    if character = doubleQuote then parseTokenLoop rest (i + 1) .none s
    else if character = backslash then
      match rest with
      | [] => s
      | nextChar :: rest' =>
        if nextChar = backslash ∨ nextChar = doubleQuote ∨ nextChar = dollar ∨
            nextChar = backquote then
          let (s, proceed) := callback (i + 1) nextChar true s
          if proceed then parseTokenLoop rest' (i + 2) .inDouble s else s
        else if nextChar = newline then parseTokenLoop rest' (i + 2) .inDouble s
        else
          let (s, proceed) := callback i character true s
          if proceed then parseTokenLoop (nextChar :: rest') (i + 1) .inDouble s else s
    else
      let (s, proceed) := callback i character true s
      if proceed then parseTokenLoop rest (i + 1) .inDouble s else s

def tokenRange (text : PString) (token : Token) : PString :=
  (text.take token.endIndex).drop token.start

def parseToken (text : PString) (token : Token) (s : σ) : σ :=
  parseTokenLoop callback (tokenRange text token) 0 .none s

end ParseToken

def getTokenText (token : Token) : PString :=
  if token.hasFormatting = false then tokenRange text token
  else parseToken (fun _ character _ tokenText => (tokenText ++ [character], true)) text token []

/-! ## What the callback is given -/

/-- A character that `ParseToken` gives out: its position, itself, and whether it is quoted. -/
structure Given where
  position : Nat
  character : UInt8
  isQuoted : Bool

def given : PString → Nat → QuoteMode → List Given
  | [], _, _ => []
  | character :: rest, i, .none =>
    if character = singleQuote then given rest (i + 1) .inSingle
    else if character = doubleQuote then given rest (i + 1) .inDouble
    else if character = backslash then
      match rest with
      | [] => []
      | nextChar :: rest =>
        if nextChar = newline then given rest (i + 2) .none
        else ⟨i + 1, nextChar, true⟩ :: given rest (i + 2) .none
    else ⟨i, character, false⟩ :: given rest (i + 1) .none
  | character :: rest, i, .inSingle =>
    if character = singleQuote then given rest (i + 1) .none
    else ⟨i, character, true⟩ :: given rest (i + 1) .inSingle
  | character :: rest, i, .inDouble =>
    if character = doubleQuote then given rest (i + 1) .none
    else if character = backslash then
      match rest with
      | [] => []
      | nextChar :: rest' =>
        if nextChar = backslash ∨ nextChar = doubleQuote ∨ nextChar = dollar ∨
            nextChar = backquote then
          ⟨i + 1, nextChar, true⟩ :: given rest' (i + 2) .inDouble
        else if nextChar = newline then given rest' (i + 2) .inDouble
        else ⟨i, character, true⟩ :: given (nextChar :: rest') (i + 1) .inDouble
    else ⟨i, character, true⟩ :: given rest (i + 1) .inDouble

/-- The callback over a list of characters, until it declines. -/
def untilDeclined {σ : Type*} (callback : Nat → UInt8 → Bool → σ → σ × Bool) : List Given → σ → σ
  | [], s => s
  | g :: rest, s =>
    let (s, proceed) := callback g.position g.character g.isQuoted s
    if proceed then untilDeclined callback rest s else s

theorem parseTokenLoop_eq {σ : Type*} (callback : Nat → UInt8 → Bool → σ → σ × Bool)
    (text : PString) (i : Nat) (mode : QuoteMode) (s : σ) :
    parseTokenLoop callback text i mode s = untilDeclined callback (given text i mode) s := by
  induction text, i, mode using given.induct generalizing s with
  | case1 => simp [parseTokenLoop, given, untilDeclined]
  | case4 i single double | case11 i single =>
    simp_all [parseTokenLoop, given, untilDeclined]
  | _ =>
    rw [parseTokenLoop.eq_def, given.eq_def]
    simp_all [untilDeclined]

/-- What a byte is to the quoting rules. -/
def mark (c : UInt8) : Mark :=
  if c = singleQuote then .singleQuote
  else if c = doubleQuote then .doubleQuote
  else if c = backslash then .backslash
  else if c = newline then .newline
  else if c = dollar ∨ c = backquote then .special
  else .ordinary

variable {c : UInt8}

@[simp] theorem mark_eq_singleQuote : mark c = .singleQuote ↔ c = singleQuote := by
  unfold mark
  split_ifs <;> simp_all

@[simp] theorem mark_eq_doubleQuote : mark c = .doubleQuote ↔ c = doubleQuote := by
  unfold mark
  split_ifs <;> simp_all
  decide

@[simp] theorem mark_eq_backslash : mark c = .backslash ↔ c = backslash := by
  unfold mark
  split_ifs <;> simp_all <;> decide

@[simp] theorem mark_eq_newline : mark c = .newline ↔ c = newline := by
  unfold mark
  split_ifs <;> simp_all <;> decide

@[simp] theorem mark_quotes :
    (mark c).quotes = false ↔ c ≠ singleQuote ∧ c ≠ doubleQuote ∧ c ≠ backslash := by
  unfold mark
  split_ifs <;> simp_all [Mark.quotes]

@[simp] theorem mark_escapable : (mark c).escapable = true ↔
    c = backslash ∨ c = doubleQuote ∨ c = dollar ∨ c = backquote := by
  unfold mark
  split_ifs <;> simp_all [Mark.escapable] <;> decide

theorem given_eq (i : Nat) (mode : QuoteMode) :
    (given text i mode).map (fun g => (g.character, g.position)) =
      (remove (mark ∘ Prod.fst) mode (text.zipIdx i)).1 := by
  fun_induction given text i mode with
  | case1 => rfl
  | case2 rest i ih =>
    rw [zipIdx_cons, remove_singleQuote (by simp), ← ih]
  | case3 rest i single ih =>
    rw [zipIdx_cons, remove_doubleQuote (by simp), ← ih]
  | case4 i single double =>
    rw [zipIdx_cons, zipIdx_nil, remove_trailing (by simp)]
    simp
  | case5 i rest single double ih =>
    rw [zipIdx_cons, zipIdx_cons, remove_backslash (by simp), if_pos (by simp), ← ih]
  | case6 i next rest notNewline single double ih =>
    rw [zipIdx_cons, zipIdx_cons, remove_backslash (by simp),
      if_neg (by simpa using notNewline), keep_fst, ← ih]
    simp
  | case7 character rest i single double slash ih =>
    rw [zipIdx_cons, remove_plain (by simp [single, double, slash]), keep_fst, ← ih]
    simp
  | case8 rest i ih =>
    rw [zipIdx_cons, remove_closeSingle (by simp), ← ih]
  | case9 character rest i single ih =>
    rw [zipIdx_cons, remove_inSingle (by simpa using single), keep_fst, ← ih]
    simp
  | case10 rest i ih =>
    rw [zipIdx_cons, remove_closeDouble (by simp), ← ih]
  | case11 i double =>
    rw [zipIdx_cons, zipIdx_nil, remove_trailingInDouble (by simp)]
    simp
  | case12 i next rest escapes double ih =>
    rw [zipIdx_cons, zipIdx_cons, remove_backslashInDouble (by simp),
      if_pos (by simpa using escapes), keep_fst, ← ih]
    simp
  | case13 i rest double escapes ih =>
    have ordinary : ((mark ∘ Prod.fst) (newline, i + 1)).escapable = false := rfl
    rw [zipIdx_cons, zipIdx_cons, remove_backslashInDouble (by simp),
      if_neg (Bool.eq_false_iff.1 ordinary), if_pos (by simp), ← ih]
  | case14 i next rest escapes notNewline double ih =>
    rw [zipIdx_cons, remove_inDouble (by simp_all) (by simp_all), keep_fst] at ih
    rw [zipIdx_cons, zipIdx_cons, remove_backslashInDouble (by simp),
      if_neg (by simpa using escapes), if_neg (by simpa using notNewline), keep_fst, keep_fst,
      ← ih]
    simp
  | case15 character rest i double slash ih =>
    rw [zipIdx_cons, remove_inDouble (by simpa using double)
      (by simpa using slash), keep_fst, ← ih]
    simp

theorem given_characters (i : Nat) (mode : QuoteMode) :
    (given text i mode).map Given.character = (remove mark mode text).1 := by
  have labelled := given_eq text i mode
  have named := remove_map mark Prod.fst mode (text.zipIdx i)
  rw [zipIdx_map_fst] at named
  rw [named, ← labelled, map_map]
  rfl

theorem untilDeclined_append (text : List Given) (before : PString) :
    untilDeclined (fun _ character _ tokenText => (tokenText ++ [character], true)) text before =
      before ++ text.map Given.character := by
  induction text generalizing before with
  | nil => simp [untilDeclined]
  | cons g rest ih => simp [untilDeclined, ih]

theorem getTokenText_eq (token : Token) (plain : token.hasFormatting = false →
      ∀ c ∈ tokenRange text token, (mark c).quotes = false) :
    getTokenText text token = (remove mark .none (tokenRange text token)).1 := by
  unfold getTokenText
  split_ifs with formatting
  · rw [remove_of_plain (plain formatting)]
  · rw [parseToken, parseTokenLoop_eq, untilDeclined_append, given_characters]
    simp

end PadOS.Utils.PPOSIXTokenizer
