import PadOS.Utils.POSIXTokenizer

/-! # What the tokens say of the text

The loop of `SetText` keeps the tokens of what it has passed, and the word it is in.
-/

namespace PadOS.Utils.PPOSIXTokenizer

open Unicode (PString)
open ShellQuoting List

/-- The character at `i` stands outside every quoted piece. -/
def Unquoted (text : PString) (i : Nat) : Prop :=
  ∃ value, Removal mark (text.take i) value .complete

def UnquotedSpace (text : PString) (i : Nat) : Prop :=
  Unquoted text i ∧ ∃ c, text[i]? = some c ∧ isSpace c = true

def UnquotedPipe (text : PString) (i : Nat) : Prop :=
  Unquoted text i ∧ text[i]? = some pipe

def Token.Covers (token : Token) (i : Nat) : Prop := token.start ≤ i ∧ i < token.endIndex

/-- The tokens of a text: all of it but the unquoted white space, cut there and around pipes. -/
structure Tokenized (text : PString) (tokens : List Token) : Prop where
  ordered : tokens.Pairwise fun s t => s.endIndex ≤ t.start
  inText : ∀ t ∈ tokens, t.start < t.endIndex ∧ t.endIndex ≤ text.length
  covered : ∀ i < text.length, (∃ t ∈ tokens, t.Covers i) ↔ ¬ UnquotedSpace text i
  texts : ∀ t ∈ tokens, ∃ ending, Removal mark (tokenRange text t) (getTokenText text t) ending
  pipes : ∀ i, UnquotedPipe text i → ∃ t ∈ tokens, t.start = i ∧ t.endIndex = i + 1
  joined : ∀ s ∈ tokens, ∀ t ∈ tokens, s.endIndex = t.start →
    UnquotedPipe text s.start ∨ UnquotedPipe text t.start

/-! ## Positions in a longer text -/

variable {before word value : PString} {tokens : List Token} {i k : Nat} {formatting : Bool}

theorem unquoted_iff {text : PString} :
    Unquoted text i ↔ (remove mark .none (text.take i)).2 = .complete := by
  constructor
  · intro ⟨value, read⟩
    rw [read.remove_eq]
  · intro complete
    have read := removal_remove mark (text.take i)
    rw [complete] at read
    exact ⟨_, read⟩

theorem unquoted_append (inside : i ≤ before.length) :
    Unquoted (before ++ word) i ↔ Unquoted before i := by
  rw [Unquoted, Unquoted, take_append_of_le_length inside]

theorem unquotedSpace_append (inside : i < before.length) :
    UnquotedSpace (before ++ word) i ↔ UnquotedSpace before i := by
  rw [UnquotedSpace, UnquotedSpace, unquoted_append inside.le, getElem?_append_left inside]

theorem unquotedPipe_append (inside : i < before.length) :
    UnquotedPipe (before ++ word) i ↔ UnquotedPipe before i := by
  rw [UnquotedPipe, UnquotedPipe, unquoted_append inside.le, getElem?_append_left inside]

theorem UnquotedPipe.lt {text : PString} (h : UnquotedPipe text i) : i < text.length := by
  by_contra outside
  rw [UnquotedPipe, getElem?_eq_none (by omega)] at h
  simp at h

section

variable (reached : Reached mark before value .none)

include reached

theorem unquoted_right :
    Unquoted (before ++ word) (before.length + k) ↔ Unquoted word k := by
  rw [unquoted_iff, unquoted_iff, take_length_add_append, reached]

theorem unquotedSpace_right :
    UnquotedSpace (before ++ word) (before.length + k) ↔ UnquotedSpace word k := by
  rw [UnquotedSpace, UnquotedSpace, unquoted_right reached,
    getElem?_append_right (by omega), Nat.add_sub_cancel_left]

theorem unquotedPipe_right :
    UnquotedPipe (before ++ word) (before.length + k) ↔ UnquotedPipe word k := by
  rw [UnquotedPipe, UnquotedPipe, unquoted_right reached,
    getElem?_append_right (by omega), Nat.add_sub_cancel_left]

end

theorem tokenRange_append {t : Token} (inside : t.endIndex ≤ before.length) :
    tokenRange (before ++ word) t = tokenRange before t := by
  rw [tokenRange, tokenRange, take_append_of_le_length inside]

theorem getTokenText_append {t : Token} (inside : t.endIndex ≤ before.length) :
    getTokenText (before ++ word) t = getTokenText before t := by
  rw [getTokenText, getTokenText, parseToken, parseToken, tokenRange_append inside]

theorem tokenRange_last (before word : PString) (formatting : Bool) :
    tokenRange (before ++ word) ⟨before.length, before.length + word.length, formatting⟩ =
      word := by
  rw [tokenRange, take_length_add_append, take_length, drop_left]

/-! ## One more token, or one more space -/

theorem Tokenized.nil : Tokenized [] [] where
  ordered := .nil
  inText := by simp
  covered := by simp
  texts := by simp
  pipes := by
    intro i quoted
    exact absurd quoted.lt (by simp)
  joined := by simp

variable {c : UInt8}

theorem Tokenized.space (h : Tokenized before tokens)
    (reached : Reached mark before value .none) (isBlank : isSpace c = true) :
    Tokenized (before ++ [c]) tokens where
  ordered := h.ordered
  inText := by
    intro t mem
    have := h.inText t mem
    simp only [length_append, length_singleton]
    omega
  covered := by
    intro i inside
    simp only [length_append, length_singleton] at inside
    rcases Nat.lt_succ_iff_lt_or_eq.1 inside with earlier | rfl
    · rw [unquotedSpace_append earlier]
      exact h.covered i earlier
    · have blank : UnquotedSpace (before ++ [c]) before.length :=
        ⟨⟨value, by simpa using removal_iff.2 reached.remove_eq⟩, c, by simp, isBlank⟩
      constructor
      · intro ⟨t, mem, covers⟩
        have := h.inText t mem
        have := covers.2
        omega
      · intro quoted
        exact absurd blank quoted
  texts := by
    intro t mem
    rw [tokenRange_append (h.inText t mem).2, getTokenText_append (h.inText t mem).2]
    exact h.texts t mem
  pipes := by
    intro i quoted
    have inside := quoted.lt
    simp only [length_append, length_singleton] at inside
    rcases Nat.lt_succ_iff_lt_or_eq.1 inside with earlier | rfl
    · exact h.pipes i ((unquotedPipe_append earlier).1 quoted)
    · have same : c = pipe := by simpa using quoted.2
      rw [same] at isBlank
      exact absurd isBlank (by decide)
  joined := by
    intro s memS t memT touch
    have inS := h.inText s memS
    have inT := h.inText t memT
    rw [unquotedPipe_append (by omega), unquotedPipe_append (by omega)]
    exact h.joined s memS t memT touch

/-- The token that a word is, behind the text before it. -/
def lastToken (before word : PString) (formatting : Bool) : Token :=
  ⟨before.length, before.length + word.length, formatting⟩

section

variable (h : Tokenized before tokens) (reached : Reached mark before value .none)

include h reached

theorem Tokenized.covered_token
    (noSpace : ∀ k, ¬ UnquotedSpace word k)
    (formatting : Bool) (inside : i < (before ++ word).length) :
    (∃ t ∈ tokens ++ [lastToken before word formatting], t.Covers i) ↔
      ¬ UnquotedSpace (before ++ word) i := by
  rw [length_append] at inside
  by_cases earlier : i < before.length
  · rw [unquotedSpace_append earlier, ← h.covered i earlier]
    constructor
    · intro ⟨t, mem, covers⟩
      rcases mem_append.1 mem with old | new
      · exact ⟨t, old, covers⟩
      · rw [mem_singleton.1 new] at covers
        exact absurd covers.1 (by simpa [lastToken] using earlier)
    · intro ⟨t, mem, covers⟩
      exact ⟨t, mem_append_left _ mem, covers⟩
  · obtain ⟨k, rfl⟩ := Nat.exists_eq_add_of_le (not_lt.1 earlier)
    rw [unquotedSpace_right reached]
    simp only [noSpace k, not_false_eq_true, iff_true]
    exact ⟨_, mem_append_right _ mem_cons_self, by simp [lastToken],
      by simpa [lastToken] using inside⟩

theorem Tokenized.pipes_token
    (pipes : ∀ k, UnquotedPipe word k → k = 0 ∧ word.length = 1) (formatting : Bool)
    (quoted : UnquotedPipe (before ++ word) i) :
    ∃ t ∈ tokens ++ [lastToken before word formatting], t.start = i ∧ t.endIndex = i + 1 := by
  have inside := quoted.lt
  rw [length_append] at inside
  by_cases earlier : i < before.length
  · obtain ⟨t, mem, bounds⟩ := h.pipes i ((unquotedPipe_append earlier).1 quoted)
    exact ⟨t, mem_append_left _ mem, bounds⟩
  · obtain ⟨k, rfl⟩ := Nat.exists_eq_add_of_le (not_lt.1 earlier)
    obtain ⟨rfl, single⟩ := pipes k ((unquotedPipe_right reached).1 quoted)
    exact ⟨_, mem_append_right _ mem_cons_self, by simp [lastToken],
      by simp [lastToken, single]⟩

theorem Tokenized.joined_token
    (nonempty : word ≠ [])
    (joined : (∀ t ∈ tokens, t.endIndex = before.length → UnquotedPipe before t.start) ∨
      UnquotedPipe word 0) (formatting : Bool) :
    ∀ s ∈ tokens ++ [lastToken before word formatting],
      ∀ t ∈ tokens ++ [lastToken before word formatting], s.endIndex = t.start →
        UnquotedPipe (before ++ word) s.start ∨ UnquotedPipe (before ++ word) t.start := by
  have positive : 0 < word.length := length_pos_iff.2 nonempty
  intro s memS t memT touch
  rcases mem_append.1 memS with oldS | newS
  · have inS := h.inText s oldS
    rw [unquotedPipe_append (by omega)]
    rcases mem_append.1 memT with oldT | newT
    · have inT := h.inText t oldT
      rw [unquotedPipe_append (by omega)]
      exact h.joined s oldS t oldT touch
    · rw [mem_singleton.1 newT] at touch ⊢
      rcases joined with previous | first
      · exact .inl (previous s oldS touch)
      · exact .inr ((unquotedPipe_right (k := 0) reached).2 first)
  · -- nothing begins behind the last token
    rw [mem_singleton.1 newS] at touch
    rcases mem_append.1 memT with oldT | newT
    · have := h.inText t oldT
      simp only [lastToken] at touch
      omega
    · rw [mem_singleton.1 newT] at touch
      simp only [lastToken] at touch
      omega

theorem Tokenized.token
    (nonempty : word ≠ [])
    (noSpace : ∀ k, ¬ UnquotedSpace word k)
    (pipes : ∀ k, UnquotedPipe word k → k = 0 ∧ word.length = 1)
    (joined : (∀ t ∈ tokens, t.endIndex = before.length → UnquotedPipe before t.start) ∨
      UnquotedPipe word 0)
    (plain : formatting = false → ∀ c ∈ word, (mark c).quotes = false) :
    Tokenized (before ++ word) (tokens ++ [lastToken before word formatting]) where
  ordered := by
    rw [pairwise_append]
    simpa [h.ordered, lastToken] using fun t mem => (h.inText t mem).2
  inText := by
    intro t mem
    rw [length_append]
    rcases mem_append.1 mem with earlier | new
    · have := h.inText t earlier
      omega
    · rw [mem_singleton.1 new]
      simpa [lastToken] using length_pos_iff.2 nonempty
  covered := fun _ inside => h.covered_token reached noSpace formatting inside
  texts := by
    intro t mem
    rcases mem_append.1 mem with earlier | new
    · rw [tokenRange_append (h.inText t earlier).2, getTokenText_append (h.inText t earlier).2]
      exact h.texts t earlier
    · have last := tokenRange_last before word formatting
      rw [mem_singleton.1 new, lastToken, getTokenText_eq _ _ (by rwa [last]), last]
      exact ⟨_, removal_remove mark word⟩
  pipes := fun _ quoted => h.pipes_token reached pipes formatting quoted
  joined := h.joined_token reached nonempty joined formatting

end

/-! ## The loop -/

/-- No unquoted white space and no unquoted pipe. -/
def Solid (word : PString) : Prop :=
  ∀ k c, Unquoted word k → word[k]? = some c → isSpace c = false ∧ c ≠ pipe

theorem Solid.noSpace (h : Solid word) (k : Nat) : ¬ UnquotedSpace word k := by
  intro ⟨quoted, c, at_k, blank⟩
  simp [(h k c quoted at_k).1] at blank

theorem Solid.noPipe (h : Solid word) (k : Nat) : ¬ UnquotedPipe word k := by
  intro ⟨quoted, at_k⟩
  exact (h k pipe quoted at_k).2 rfl

theorem Solid.append {mode : QuoteMode} {piece : PString} (h : Solid word)
    (reached : Reached mark word value mode)
    (new : ∀ k c, (remove mark mode (piece.take k)).2 = .complete → piece[k]? = some c →
      isSpace c = false ∧ c ≠ pipe) : Solid (word ++ piece) := by
  intro k c quoted at_k
  by_cases earlier : k < word.length
  · rw [getElem?_append_left earlier] at at_k
    exact h k c ((unquoted_append earlier.le).1 quoted) at_k
  · obtain ⟨j, rfl⟩ := Nat.exists_eq_add_of_le (not_lt.1 earlier)
    rw [getElem?_append_right (by omega), Nat.add_sub_cancel_left] at at_k
    rw [unquoted_iff, take_length_add_append, reached] at quoted
    exact new j c quoted at_k

/-- The text before the current token, and what is read of the token. -/
structure Scanned (before word : PString) (mode : QuoteMode) (hasFormatting : Bool)
    (tokens : List Token) : Prop where
  tokenized : Tokenized before tokens
  outside : ∃ value, Reached mark before value .none
  inside : ∃ value, Reached mark word value mode
  solid : Solid word
  plain : hasFormatting = false → mode = .none ∧ ∀ c ∈ word, (mark c).quotes = false
  formatted : hasFormatting = true → word ≠ []
  joined : ∀ t ∈ tokens, t.endIndex = before.length → UnquotedPipe before t.start

variable {mode next : QuoteMode} {hasFormatting : Bool}

theorem Scanned.start (tokenized : Tokenized before tokens)
    (outside : ∃ value, Reached mark before value .none)
    (joined : ∀ t ∈ tokens, t.endIndex = before.length → UnquotedPipe before t.start) :
    Scanned before [] .none false tokens where
  tokenized := tokenized
  outside := outside
  inside := ⟨[], .nil⟩
  solid := by simp [Solid]
  plain := by simp
  formatted := by simp
  joined := joined

theorem Scanned.reached (h : Scanned before word mode hasFormatting tokens) :
    ∃ value, Reached mark (before ++ word) value mode := by
  obtain ⟨first, outside⟩ := h.outside
  obtain ⟨second, inside⟩ := h.inside
  exact ⟨first ++ second, outside.append inside⟩

/-- A piece of the word, with formatting unless it is one plain character. -/
theorem Scanned.grow {piece kept : PString}
    (h : Scanned before word mode hasFormatting tokens)
    (step : ∀ rest, remove mark mode (piece ++ rest) =
      (kept ++ (remove mark next rest).1, (remove mark next rest).2))
    (new : ∀ k c, (remove mark mode (piece.take k)).2 = .complete → piece[k]? = some c →
      isSpace c = false ∧ c ≠ pipe) (nonempty : piece ≠ [])
    (plain : formatting = false → hasFormatting = false ∧ next = .none ∧
      ∀ c ∈ piece, (mark c).quotes = false) :
    Scanned before (word ++ piece) next formatting tokens where
  tokenized := h.tokenized
  outside := h.outside
  inside := h.inside.elim fun value reached => ⟨value ++ kept, reached.append step⟩
  solid := h.inside.elim fun value reached => h.solid.append reached new
  plain := by
    intro unformatted
    obtain ⟨earlier, none, unquoted⟩ := plain unformatted
    refine ⟨none, fun c mem => ?_⟩
    rcases mem_append.1 mem with old | last
    · exact (h.plain earlier).2 c old
    · exact unquoted c last
  formatted := by simp [nonempty]
  joined := h.joined

/-- The token is dropped when it is empty; a formatted one is not. -/
theorem tokenized_pushToken (tokenized : Tokenized before tokens)
    (outside : ∃ value, Reached mark before value .none) (solid : Solid word)
    (plain : hasFormatting = false → ∀ c ∈ word, (mark c).quotes = false)
    (formatted : hasFormatting = true → word ≠ [])
    (joined : ∀ t ∈ tokens, t.endIndex = before.length → UnquotedPipe before t.start) :
    Tokenized (before ++ word)
      (pushToken tokens before.length hasFormatting (before.length + word.length)) := by
  obtain ⟨value, reached⟩ := outside
  unfold pushToken
  by_cases empty : word = []
  · have unformatted : hasFormatting = false := by
      cases hasFormatting with
      | false => rfl
      | true => exact absurd empty (formatted rfl)
    rw [empty, unformatted]
    simpa using tokenized
  · have positive : 0 < word.length := length_pos_iff.2 empty
    rw [if_pos (by simp [positive])]
    exact tokenized.token reached empty solid.noSpace
      (fun k quoted => absurd quoted (solid.noPipe k)) (.inl joined) plain

theorem Scanned.pushToken (h : Scanned before word mode hasFormatting tokens) :
    Tokenized (before ++ word)
      (pushToken tokens before.length hasFormatting (before.length + word.length)) :=
  tokenized_pushToken h.tokenized h.outside h.solid (fun unformatted => (h.plain unformatted).2)
    h.formatted h.joined

theorem Scanned.spaced (h : Scanned before word .none hasFormatting tokens)
    (blank : isSpace c = true) (plain : (mark c).quotes = false) :
    Scanned (before ++ word ++ [c]) [] .none false
      (PPOSIXTokenizer.pushToken tokens before.length hasFormatting
        (before.length + word.length)) := by
  obtain ⟨value, reached⟩ := h.reached
  refine .start (h.pushToken.space reached blank) ⟨value ++ [c], reached.append fun rest => ?_⟩ ?_
  · rw [singleton_append, remove_plain plain]
    rfl
  · intro t mem touch
    have := h.pushToken.inText t mem
    simp only [length_append, length_singleton] at this touch
    omega

theorem Scanned.piped (h : Scanned before word .none hasFormatting tokens) :
    Scanned (before ++ word ++ [pipe]) [] .none false
      (PPOSIXTokenizer.pushToken tokens before.length hasFormatting (before.length + word.length) ++
        [⟨before.length + word.length, before.length + word.length + 1, false⟩]) := by
  obtain ⟨value, reached⟩ := h.reached
  have plain : (mark PPOSIXTokenizer.pipe).quotes = false := by decide
  have unquoted : UnquotedPipe [PPOSIXTokenizer.pipe] 0 := ⟨⟨[], .nil⟩, rfl⟩
  have noSpace : ∀ k, ¬ UnquotedSpace [PPOSIXTokenizer.pipe] k := by
    intro k ⟨quoted, c, at_k, blank⟩
    cases k with
    | zero =>
      obtain rfl : PPOSIXTokenizer.pipe = c := by simpa using at_k
      exact absurd blank (by decide)
    | succ k => simp at at_k
  have first : ∀ k, UnquotedPipe [PPOSIXTokenizer.pipe] k → k = 0 ∧ 1 = 1 := by
    intro k quoted
    have first : k < 1 := quoted.lt
    exact ⟨by omega, rfl⟩
  have token := h.pushToken.token reached (cons_ne_nil _ []) noSpace first (.inr unquoted)
    (show false = false → ∀ c ∈ [PPOSIXTokenizer.pipe], (mark c).quotes = false by
      simpa using plain)
  rw [lastToken, length_append] at token
  refine .start token ⟨value ++ [PPOSIXTokenizer.pipe], reached.append fun rest => ?_⟩ ?_
  · rw [singleton_append, remove_plain plain]
    rfl
  · intro t mem touch
    rcases mem_append.1 mem with old | new
    · have := h.pushToken.inText t old
      simp only [length_append, length_singleton] at this touch
      omega
    · rw [mem_singleton.1 new]
      simpa using (unquotedPipe_right (k := 0) reached).2 unquoted

/-- How a text that ends so is left by the quoting rules. -/
def Termination.ending : Termination → Ending
  | .normal => .complete
  | .openSingle => .openSingle
  | .openDouble => .openDouble
  | .trailingSlash => .trailingBackslash

theorem termination_ending (mode : QuoteMode) : (termination mode).ending = mode.ending := by
  cases mode <;> rfl

/-- What `SetText` says of the text holds: its tokens, and how it ends. -/
def Matches (text : PString) (result : List Token × Termination) : Prop :=
  Tokenized text result.1 ∧ ∃ value, Removal mark text value result.2.ending

section

variable (h : Scanned before word mode hasFormatting tokens)

include h

theorem Scanned.removal {text : PString}
    {ending : Ending} (ends : (remove mark mode text).2 = ending) :
    ∃ value, Removal mark (before ++ word ++ text) value ending := by
  obtain ⟨value, reached⟩ := h.reached
  exact ⟨_, removal_iff.2 (by rw [reached text, ends])⟩

theorem Scanned.trailing
    (outside : mode ≠ .inSingle) (quoted : formatting = true) :
    Matches (before ++ word ++ [backslash])
      (PPOSIXTokenizer.pushToken tokens before.length formatting
        (before.length + word.length + 1), .trailingSlash) := by
  obtain ⟨value, reached⟩ := h.inside
  have solid : Solid (word ++ [backslash]) := by
    refine h.solid.append reached fun k c _ at_k => ?_
    cases k with
    | zero =>
      obtain rfl : backslash = c := by simpa using at_k
      decide
    | succ k => simp at at_k
  have token : Tokenized (before ++ (word ++ [backslash])) (PPOSIXTokenizer.pushToken tokens
      before.length formatting (before.length + (word ++ [backslash]).length)) :=
    tokenized_pushToken h.tokenized h.outside solid (by simp [quoted]) (by simp) h.joined
  have ends : (remove mark mode [backslash]).2 = .trailingBackslash := by
    cases mode with
    | none => rw [remove_trailing (by simp)]
    | inSingle => exact absurd rfl outside
    | inDouble => rw [remove_trailingInDouble (by simp)]
  refine ⟨?_, h.removal ends⟩
  simpa [add_assoc] using token

theorem Scanned.one (kept : PString)
    (step : ∀ rest, remove mark mode (c :: rest) =
      (kept ++ (remove mark next rest).1, (remove mark next rest).2))
    (new : mode = .none → isSpace c = false ∧ c ≠ pipe)
    (plain : formatting = false → hasFormatting = false ∧ next = .none ∧ (mark c).quotes = false) :
    Scanned before (word ++ [c]) next formatting tokens := by
  refine h.grow step ?_ (by simp) (by simpa using plain)
  intro k d complete at_k
  cases k with
  | zero =>
    obtain rfl : c = d := by simpa using at_k
    cases mode with
    | none => exact new rfl
    | inSingle => simp at complete
    | inDouble => simp at complete
  | succ k => simp at at_k

/-- A backslash and the character after it, which is quoted. -/
theorem Scanned.two (kept : PString)
    (step : ∀ rest, remove mark mode (backslash :: c :: rest) =
      (kept ++ (remove mark mode rest).1, (remove mark mode rest).2))
    (outside : mode ≠ .inSingle) (plain : formatting = true) :
    Scanned before (word ++ [backslash, c]) mode formatting tokens := by
  refine h.grow step ?_ (by simp) (by simp [plain])
  intro k d complete at_k
  match k with
  | 0 =>
    obtain rfl : backslash = d := by simpa using at_k
    decide
  | 1 =>
    cases mode with
    | none => rw [take_succ_cons, take_zero, remove_trailing (by simp)] at complete
              simp at complete
    | inSingle => exact absurd rfl outside
    | inDouble =>
      rw [take_succ_cons, take_zero, remove_trailingInDouble (by simp)] at complete
      simp at complete
  | k + 2 => simp at at_k

end

theorem isSpace_plain (blank : isSpace c = true) : (mark c).quotes = false := by
  rw [mark_quotes]
  refine ⟨?_, ?_, ?_⟩ <;> rintro rfl <;> exact absurd blank (by decide)

theorem Scanned.quoted (h : Scanned before word mode hasFormatting tokens)
    (inside : mode ≠ .none) : hasFormatting = true := by
  cases hasFormatting with
  | true => rfl
  | false => exact absurd (h.plain rfl).1 inside

theorem setTextLoop_spec (text : PString) (i : Nat) (mode : QuoteMode) (start : Nat)
    (hasFormatting : Bool) (tokens : List Token) {before word : PString}
    (h : Scanned before word mode hasFormatting tokens) (atStart : start = before.length)
    (atEnd : i = before.length + word.length) :
    Matches (before ++ word ++ text) (setTextLoop text i mode start hasFormatting tokens) := by
  fun_induction setTextLoop text i mode start hasFormatting tokens generalizing before word with
  | case1 i mode start hasFormatting tokens =>
    subst atStart atEnd
    refine ⟨by simpa using h.pushToken, ?_⟩
    rw [termination_ending]
    exact h.removal (by simp)
  | case2 c rest i start hasFormatting tokens blank ih =>
    subst atStart atEnd
    have after := ih (h.spaced blank (isSpace_plain blank)) (by simp [add_assoc])
      (by simp [add_assoc])
    simpa using after
  | case3 rest i start hasFormatting tokens blank ih =>
    have grown : Scanned before (word ++ [singleQuote]) .inSingle true tokens :=
      h.one [] (fun rest => by rw [remove_singleQuote (by simp)]; rfl) (by decide) (by simp)
    have after := ih grown atStart (by simp [atEnd, add_assoc])
    simpa using after
  | case4 rest i start hasFormatting tokens blank single ih =>
    have grown : Scanned before (word ++ [doubleQuote]) .inDouble true tokens :=
      h.one [] (fun rest => by rw [remove_doubleQuote (by simp)]; rfl) (by decide) (by simp)
    have after := ih grown atStart (by simp [atEnd, add_assoc])
    simpa using after
  | case5 i start hasFormatting tokens blank single double =>
    subst atStart atEnd
    simpa using h.trailing (by simp) rfl
  | case6 i start hasFormatting tokens c rest blank single double ih =>
    have grown : Scanned before (word ++ [backslash, c]) .none true tokens := by
      by_cases continued : c = newline
      · exact h.two [] (fun rest => by
          rw [remove_backslash (by simp), if_pos (by simpa using continued)]; rfl) (by simp) rfl
      · exact h.two [c] (fun rest => by
          rw [remove_backslash (by simp), if_neg (by simpa using continued)]; rfl) (by simp) rfl
    have after := ih grown atStart (by simp [atEnd, add_assoc])
    simpa using after
  | case7 rest i start hasFormatting tokens blank single double slash ih =>
    subst atStart atEnd
    have after := ih h.piped (by simp [add_assoc]) (by simp [add_assoc])
    simpa using after
  | case8 c rest i start hasFormatting tokens blank single double slash notPipe ih =>
    have plain : (mark c).quotes = false := by simp [single, double, slash]
    have grown : Scanned before (word ++ [c]) .none hasFormatting tokens :=
      h.one [c] (fun rest => by rw [remove_plain plain]; rfl)
        (fun _ => ⟨by simpa using blank, notPipe⟩) (by simp [plain])
    have after := ih grown atStart (by simp [atEnd, add_assoc])
    simpa using after
  | case9 rest i start hasFormatting tokens ih =>
    have formatting := h.quoted (by simp)
    have grown : Scanned before (word ++ [singleQuote]) .none hasFormatting tokens :=
      h.one [] (fun rest => by rw [remove_closeSingle (by simp)]; rfl) (by simp)
        (by simp [formatting])
    have after := ih grown atStart (by simp [atEnd, add_assoc])
    simpa using after
  | case10 c rest i start hasFormatting tokens single ih =>
    have formatting := h.quoted (by simp)
    have grown : Scanned before (word ++ [c]) .inSingle hasFormatting tokens :=
      h.one [c] (fun rest => by rw [remove_inSingle (by simpa using single)]; rfl) (by simp)
      (by simp [formatting])
    have after := ih grown atStart (by simp [atEnd, add_assoc])
    simpa using after
  | case11 rest i start hasFormatting tokens ih =>
    have formatting := h.quoted (by simp)
    have grown : Scanned before (word ++ [doubleQuote]) .none hasFormatting tokens :=
      h.one [] (fun rest => by rw [remove_closeDouble (by simp)]; rfl) (by simp)
        (by simp [formatting])
    have after := ih grown atStart (by simp [atEnd, add_assoc])
    simpa using after
  | case12 i start hasFormatting tokens double =>
    subst atStart atEnd
    simpa using h.trailing (by simp) (h.quoted (by simp))
  | case13 i start hasFormatting tokens c rest double ih =>
    have formatting := h.quoted (by simp)
    have grown : Scanned before (word ++ [backslash, c]) .inDouble hasFormatting tokens := by
      by_cases escapes : (mark c).escapable = true
      · exact h.two [c] (fun rest => by
          rw [remove_backslashInDouble (by simp), if_pos escapes]; rfl) (by simp) formatting
      · by_cases continued : mark c = .newline
        · exact h.two [] (fun rest => by
            rw [remove_backslashInDouble (by simp), if_neg escapes, if_pos continued]; rfl)
            (by simp) formatting
        · exact h.two [backslash, c] (fun rest => by
            rw [remove_backslashInDouble (by simp), if_neg escapes, if_neg continued]; rfl)
            (by simp) formatting
    have after := ih grown atStart (by simp [atEnd, add_assoc])
    simpa using after
  | case14 c rest i start hasFormatting tokens double slash ih =>
    have formatting := h.quoted (by simp)
    have grown : Scanned before (word ++ [c]) .inDouble hasFormatting tokens :=
      h.one [c] (fun rest => by
        rw [remove_inDouble (by simpa using double) (by simpa using slash)]; rfl) (by simp)
      (by simp [formatting])
    have after := ih grown atStart (by simp [atEnd, add_assoc])
    simpa using after

/-- For every text the tokens and the termination are those of the quoting rules. -/
theorem setText_matches (text : PString) : Matches text (setText text) := by
  have start : Scanned [] [] .none false [] := .start .nil ⟨[], .nil⟩ (by simp)
  exact setTextLoop_spec text 0 .none 0 false [] start rfl rfl

end PadOS.Utils.PPOSIXTokenizer
