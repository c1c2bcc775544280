import PadOS.Utils.Tokenization

/-! # Positions in the text and offsets in its tokens

`TokenToGlobalOffset` and `GetTokenByPosition` count the characters that `ParseToken` gives out.
The lookup takes the last token that starts before the position, so the first position of a token
is found only when the token before it ends there.
-/

namespace PadOS.Utils.PPOSIXTokenizer

open Unicode (PString)
open ShellQuoting List Option

def tokenToGlobalOffset (text : PString) (token : Token) (tokenOffset : Nat) : Nat :=
  if tokenOffset = token.endIndex - token.start then token.endIndex
  else
    (parseToken (fun charPos _ _ (globalPos, tokenPos) =>
      if tokenPos = tokenOffset then ((token.start + charPos, tokenPos), false)
      else ((globalPos, tokenPos + 1), true)) text token (token.endIndex, 0)).1

/-- `std::lower_bound` over the starts of the tokens. -/
def lowerBound (tokens : List Token) (position : Nat) : Nat :=
  tokens.findIdx fun lhs => !decide (lhs.start < position)

/-- The index of the token and the offset in it; `INVALID_INDEX` is `none`. -/
def getTokenByPosition (text : PString) (tokens : List Token) (position : Nat) :
    Option (Nat × Nat) :=
  let i := lowerBound tokens position
  if i ≠ 0 then
    match tokens[i - 1]? with
    | none => none
    | some token =>
      if position ≤ token.endIndex then
        some (i - 1, parseToken (fun charPos _ _ tokenPos =>
          if token.start + charPos ≥ position then (tokenPos, false)
          else (tokenPos + 1, true)) text token 0)
      else none
  else none

/-! ## What the two should say -/

def Token.Contains (token : Token) (position : Nat) : Prop :=
  token.start ≤ position ∧ position ≤ token.endIndex

/-- The characters of the unquoted text that stand before the position in the source. -/
def OffsetAt (text : PString) (token : Token) (position offset : Nat) : Prop :=
  ∃ kept ending, Removal (mark ∘ Prod.fst) (tokenRange text token).zipIdx kept ending ∧
    offset = (kept.filter fun c => token.start + c.2 < position).length

def FindsPosition (text : PString) (position : Nat) : Prop :=
  match getTokenByPosition text (setText text).1 position with
  | none => ∀ token ∈ (setText text).1, ¬ token.Contains position
  | some (index, offset) =>
    ∃ token, (setText text).1[index]? = some token ∧ token.Contains position ∧
      OffsetAt text token position offset

def RoundTrips (text : PString) (index : Nat) (token : Token) (offset : Nat) : Prop :=
  getTokenByPosition text (setText text).1 (tokenToGlobalOffset text token offset) =
    some (index, offset)

/-- A token begins at the position, and none ends there. -/
def LooseStart (text : PString) (position : Nat) : Prop :=
  (∃ token ∈ (setText text).1, token.start = position) ∧
    ∀ token ∈ (setText text).1, token.endIndex ≠ position

/-- The first character of the token stands for itself. -/
def BeginsPlain (text : PString) (token : Token) : Prop :=
  ∃ c, text[token.start]? = some c ∧ (mark c).quotes = false

/-! ## Counting -/

variable {text : PString} {tokens : List Token} {token : Token} {position offset index : Nat}

theorem untilDeclined_count (start : Nat) (list : List Given) (before : Nat) :
    untilDeclined (fun charPos _ _ tokenPos =>
      if start + charPos ≥ position then (tokenPos, false) else (tokenPos + 1, true)) list before =
      before + (list.takeWhile fun g => start + g.position < position).length := by
  induction list generalizing before with
  | nil => simp [untilDeclined]
  | cons g rest ih =>
    rw [untilDeclined]
    by_cases behind : start + g.position ≥ position
    · simp [behind, not_lt.2 behind]
    · simp [behind, not_le.1 behind, ih]
      omega

theorem untilDeclined_seek (start : Nat) (list : List Given) (missing before : Nat)
    (ahead : before ≤ offset) :
    (untilDeclined (fun charPos _ _ (globalPos, tokenPos) =>
      if tokenPos = offset then ((start + charPos, tokenPos), false)
      else ((globalPos, tokenPos + 1), true)) list (missing, before)).1 =
      (list[offset - before]?).elim missing fun g => start + g.position := by
  induction list generalizing before with
  | nil => simp [untilDeclined]
  | cons g rest ih =>
    rw [untilDeclined]
    by_cases here : before = offset
    · simp [here]
    · have next : offset - before = offset - (before + 1) + 1 := by omega
      simp only [here, if_false, if_true]
      rw [ih (before + 1) (by omega), next, getElem?_cons_succ]

/-- What `ParseToken` gives out of a token. -/
def tokenCharacters (text : PString) (token : Token) : List Given :=
  given (tokenRange text token) 0 .none

theorem tokenCharacters_sorted (text : PString) (token : Token) :
    (tokenCharacters text token).Pairwise fun g h => g.position < h.position := by
  have labels : (((tokenRange text token).zipIdx 0).map Prod.snd).Pairwise (· < ·) := by
    rw [zipIdx_map_snd]
    exact pairwise_lt_range'
  have kept := (pairwise_map.1 labels).sublist
    (remove_sublist (mark ∘ Prod.fst) .none ((tokenRange text token).zipIdx 0))
  rw [← given_eq, pairwise_map] at kept
  exact kept

theorem tokenCharacters_inside {g : Given} (mem : g ∈ tokenCharacters text token) :
    g.position < (tokenRange text token).length := by
  have kept := (remove_sublist (mark ∘ Prod.fst) .none ((tokenRange text token).zipIdx 0)).subset
  rw [← given_eq] at kept
  have label := kept (mem_map_of_mem mem)
  have bound := snd_lt_of_mem_zipIdx label
  simpa using bound

theorem takeWhile_eq_filter (start : Nat) {list : List Given}
    (sorted : list.Pairwise fun g h => g.position < h.position) :
    (list.takeWhile fun g => decide (start + g.position < position)) =
      list.filter fun g => decide (start + g.position < position) := by
  induction sorted with
  | nil => rfl
  | @cons g rest above _ ih =>
    by_cases early : start + g.position < position
    · simp [early, ih]
    · have none' : rest.filter (fun g => decide (start + g.position < position)) = [] := by
        rw [filter_eq_nil_iff]
        intro h mem
        have := above h mem
        simp
        omega
      simp [early, none']

theorem offsetAt_count : OffsetAt text token position ((tokenCharacters text token).takeWhile
      fun g => decide (token.start + g.position < position)).length := by
  refine ⟨_, _, removal_remove _ _, ?_⟩
  rw [← given_eq, takeWhile_eq_filter _ (tokenCharacters_sorted text token), List.filter_map,
    List.length_map]
  rfl

/-! ## The lookup -/

theorem Tokenized.starts_increase (h : Tokenized text tokens) {i j : Nat} {s t : Token}
    (first : tokens[i]? = some s) (second : tokens[j]? = some t) (less : i < j) :
    s.endIndex ≤ t.start ∧ s.start < t.start := by
  obtain ⟨inI, atI⟩ := List.getElem?_eq_some_iff.1 first
  obtain ⟨inJ, atJ⟩ := List.getElem?_eq_some_iff.1 second
  have apart := List.pairwise_iff_getElem.1 h.ordered i j inI inJ less
  rw [atI, atJ] at apart
  have := h.inText s (mem_of_getElem? first)
  omega

theorem lowerBound_before (early : index < lowerBound tokens position)
    (here : tokens[index]? = some token) : token.start < position := by
  obtain ⟨inside, rfl⟩ := List.getElem?_eq_some_iff.1 here
  simpa using List.not_of_lt_findIdx early

theorem lowerBound_at (here : tokens[lowerBound tokens position]? = some token) :
    position ≤ token.start := by
  obtain ⟨inside, rfl⟩ := List.getElem?_eq_some_iff.1 here
  have late := List.findIdx_getElem (w := inside)
  simp only [Bool.not_eq_true', decide_eq_false_iff_not, not_lt] at late
  exact late

theorem lowerBound_le : lowerBound tokens position ≤ tokens.length := findIdx_le_length

theorem getTokenByPosition_eq_some (h : Tokenized text tokens)
    (here : tokens[index]? = some token) (behind : token.start < position)
    (reaches : position ≤ token.endIndex) :
    getTokenByPosition text tokens position = some (index, ((tokenCharacters text token).takeWhile
        fun g => decide (token.start + g.position < position)).length) := by
  have inside : index < tokens.length := (List.getElem?_eq_some_iff.1 here).1
  have found : lowerBound tokens position = index + 1 := by
    have notEarlier : ¬ lowerBound tokens position ≤ index := by
      intro early
      rcases Nat.eq_or_lt_of_le early with same | less
      · have := lowerBound_at (same ▸ here)
        omega
      · have first := getElem?_eq_getElem (lt_trans less inside)
        have := lowerBound_at first
        have := (h.starts_increase first here less).2
        omega
    have notLater : ¬ index + 1 < lowerBound tokens position := by
      intro later
      have next := getElem?_eq_getElem (lt_of_lt_of_le later lowerBound_le)
      have := lowerBound_before later next
      have := (h.starts_increase here next (by omega)).1
      omega
    omega
  simp only [getTokenByPosition, found, Nat.add_sub_cancel, here]
  rw [if_pos (by simp), if_pos reaches, parseToken, parseTokenLoop_eq, untilDeclined_count]
  simp [tokenCharacters]

theorem getTokenByPosition_some {found : Nat × Nat}
    (isFound : getTokenByPosition text tokens position = some found) :
    ∃ token, tokens[found.1]? = some token ∧ token.start < position ∧
      position ≤ token.endIndex := by
  unfold getTokenByPosition at isFound
  dsimp only at isFound
  split_ifs at isFound with positive
  cases here : tokens[lowerBound tokens position - 1]? with
  | none => simp [here] at isFound
  | some token =>
    rw [here] at isFound
    dsimp only at isFound
    split_ifs at isFound with reaches
    rw [← some.inj isFound]
    exact ⟨token, here, lowerBound_before (by omega) here, reaches⟩

theorem findsPosition_iff (text : PString) (position : Nat) :
    FindsPosition text position ↔ ¬ LooseStart text position := by
  have tokenized := (setText_matches text).1
  unfold FindsPosition
  cases found : getTokenByPosition text (setText text).1 position with
  | some at' =>
    obtain ⟨token, here, behind, reaches⟩ := getTokenByPosition_some found
    rw [getTokenByPosition_eq_some tokenized here behind reaches] at found
    constructor
    · intro _ ⟨⟨other, mem, starts⟩, noEnd⟩
      obtain ⟨j, at_j⟩ := mem_iff_getElem?.1 mem
      have notEnd := noEnd token (mem_of_getElem? here)
      rcases Nat.lt_trichotomy at'.1 j with less | same | less
      · have := (tokenized.starts_increase here at_j less).1
        omega
      · rw [← same, here] at at_j
        rw [← some.inj at_j] at starts
        omega
      · have := (tokenized.starts_increase at_j here less).2
        omega
    · intro _
      rw [← some.inj found]
      exact ⟨token, here, ⟨behind.le, reaches⟩, offsetAt_count⟩
  | none =>
    have noneFound : ∀ token ∈ (setText text).1, token.start < position →
        ¬ position ≤ token.endIndex := by
      intro token mem behind reaches
      obtain ⟨j, at_j⟩ := mem_iff_getElem?.1 mem
      rw [getTokenByPosition_eq_some tokenized at_j behind reaches] at found
      cases found
    constructor
    · intro right ⟨⟨token, mem, starts⟩, _⟩
      have := tokenized.inText token mem
      exact right token mem ⟨starts.le, by omega⟩
    · intro notLoose token mem contains
      rcases Nat.eq_or_lt_of_le contains.1 with starts | behind
      · refine notLoose ⟨⟨token, mem, starts⟩, fun other memOther ends => ?_⟩
        have := tokenized.inText other memOther
        exact noneFound other memOther (by omega) ends.ge
      · exact noneFound token mem behind contains.2

/-! ## There and back -/

theorem given_position {i : Nat} {mode : QuoteMode} {g : Given} (mem : g ∈ given text i mode) :
    i ≤ g.position := by
  have kept := (remove_sublist (mark ∘ Prod.fst) mode (text.zipIdx i)).subset
  rw [← given_eq] at kept
  exact le_snd_of_mem_zipIdx (kept (mem_map_of_mem mem))

theorem tokenRange_length (h : Tokenized text tokens) (mem : token ∈ tokens) :
    (tokenRange text token).length = token.endIndex - token.start := by
  have := (h.inText token mem).2
  rw [tokenRange, length_drop, length_take, min_eq_left this]

theorem tokenCharacters_length (h : Tokenized text tokens) (mem : token ∈ tokens) :
    (tokenCharacters text token).length = (getTokenText text token).length := by
  obtain ⟨ending, read⟩ := h.texts token mem
  have same := congrArg (fun r => r.1.length) read.remove_eq
  rw [← given_characters _ 0, List.length_map] at same
  exact same

theorem tokenCharacters_length_le (text : PString) (token : Token) :
    (tokenCharacters text token).length ≤ (tokenRange text token).length := by
  have shorter := (remove_sublist mark .none (tokenRange text token)).length_le
  rwa [← given_characters _ 0, List.length_map] at shorter

theorem beginsPlain_iff (h : Tokenized text tokens) (mem : token ∈ tokens) :
    BeginsPlain text token ↔ ∃ g, (tokenCharacters text token)[0]? = some g ∧ g.position = 0 := by
  have inside := h.inText token mem
  have length := tokenRange_length h mem
  unfold tokenCharacters BeginsPlain
  have first : (tokenRange text token)[0]? = text[token.start]? := by
    rw [tokenRange, getElem?_drop, getElem?_take_of_lt (by omega)]
    rfl
  rw [← first]
  cases range : tokenRange text token with
  | nil =>
    rw [range, length_nil] at length
    omega
  | cons c rest =>
    have late : ∀ mode, ¬ ∃ g, (given rest 1 mode)[0]? = some g ∧ g.position = 0 := by
      rintro mode ⟨g, at_zero, zero⟩
      have := given_position (mem_of_getElem? at_zero)
      omega
    rw [given.eq_def]
    by_cases single : c = singleQuote
    · simpa [single] using late .inSingle
    · by_cases double : c = doubleQuote
      · simpa [double, show ¬ doubleQuote = singleQuote by decide] using late .inDouble
      · by_cases slash : c = backslash
        · subst slash
          cases rest with
          | nil => simp [single, double]
          | cons next rest =>
            have later : ¬ ∃ g, (given rest 2 .none)[0]? = some g ∧ g.position = 0 := by
              rintro ⟨g, at_zero, zero⟩
              have := given_position (mem_of_getElem? at_zero)
              omega
            by_cases continued : next = newline
            · simpa [single, double, continued] using later
            · simp [single, double, continued]
        · simp [single, double, slash]

theorem tokenToGlobalOffset_eq (h : Tokenized text tokens) (mem : token ∈ tokens) :
    tokenToGlobalOffset text token offset =
      ((tokenCharacters text token)[offset]?).elim token.endIndex
        fun g => token.start + g.position := by
  unfold tokenToGlobalOffset
  split_ifs with whole
  · have shorter := tokenCharacters_length_le text token
    rw [tokenRange_length h mem] at shorter
    rw [getElem?_eq_none (by omega)]
    rfl
  · rw [parseToken, parseTokenLoop_eq, untilDeclined_seek _ _ _ _ (Nat.zero_le _)]
    rfl

theorem takeWhile_length (start : Nat) {list : List Given} {g : Given}
    (sorted : list.Pairwise fun g h => g.position < h.position) (here : list[offset]? = some g) :
    (list.takeWhile fun c => decide (start + c.position < start + g.position)).length =
      offset := by
  obtain ⟨inside, at_offset⟩ := List.getElem?_eq_some_iff.1 here
  have split : list.take offset ++ g :: list.drop (offset + 1) = list := by
    rw [← at_offset, ← drop_eq_getElem_cons inside, take_append_drop]
  have early : ∀ c ∈ list.take offset, decide (start + c.position < start + g.position) = true := by
    intro c mem
    rw [← split] at sorted
    have := (pairwise_append.1 sorted).2.2 c mem g mem_cons_self
    simpa using this
  rw [← split, takeWhile_append_of_pos early]
  simp
  omega

theorem offset_returns_iff (text : PString) {index : Nat} {token : Token}
    (here : (setText text).1[index]? = some token) {offset : Nat}
    (within : offset ≤ (getTokenText text token).length) :
    RoundTrips text index token offset ↔ ¬ (offset = 0 ∧ BeginsPlain text token) := by
  have tokenized := (setText_matches text).1
  have mem := mem_of_getElem? here
  have inText := tokenized.inText token mem
  have sorted := tokenCharacters_sorted text token
  rw [← tokenCharacters_length tokenized mem] at within
  rw [RoundTrips, tokenToGlobalOffset_eq tokenized mem, beginsPlain_iff tokenized mem]
  cases at_offset : (tokenCharacters text token)[offset]? with
  | none =>
    have all := getElem?_eq_none_iff.1 at_offset
    have found := getTokenByPosition_eq_some tokenized here inText.1 le_rfl
    rw [elim_none, found, takeWhile_eq_filter _ sorted, filter_eq_self.2]
    · constructor
      · intro _ ⟨zero, g, first, _⟩
        rw [← zero, at_offset] at first
        cases first
      · intro _
        rw [Nat.le_antisymm within all]
    · intro g given
      have := tokenCharacters_inside given
      rw [tokenRange_length tokenized mem] at this
      simp
      omega
  | some g =>
    have inside := tokenCharacters_inside (mem_of_getElem? at_offset)
    rw [tokenRange_length tokenized mem] at inside
    rw [elim_some]
    by_cases zero : g.position = 0
    · have first : offset = 0 := by
        by_contra later
        have earlier := List.pairwise_iff_getElem.1 sorted 0 offset
        obtain ⟨bound, at_bound⟩ := List.getElem?_eq_some_iff.1 at_offset
        have := earlier (by omega) bound (by omega)
        rw [at_bound] at this
        omega
      rw [first] at at_offset ⊢
      constructor
      · intro found
        obtain ⟨other, at_index, behind, _⟩ := getTokenByPosition_some found
        rw [here] at at_index
        rw [← some.inj at_index] at behind
        omega
      · intro notPlain
        exact absurd ⟨rfl, g, at_offset, zero⟩ notPlain
    · have found := getTokenByPosition_eq_some tokenized here
        (show token.start < token.start + g.position by omega) (by omega)
      rw [found, takeWhile_length _ sorted at_offset]
      simp only [true_iff]
      intro ⟨first, other, at_zero, atStart⟩
      rw [first, at_zero] at at_offset
      rw [← some.inj at_offset] at zero
      exact zero atStart

/-- Both mappings, at every position of a text and at every offset of its tokens. -/
theorem positions_iff (text : PString) :
    (∀ position ≤ text.length, FindsPosition text position ↔ ¬ LooseStart text position) ∧
    ∀ index token, (setText text).1[index]? = some token →
      ∀ offset ≤ (getTokenText text token).length,
        RoundTrips text index token offset ↔ ¬ (offset = 0 ∧ BeginsPlain text token) :=
  ⟨fun position _ => findsPosition_iff text position,
    fun _ _ here _ within => offset_returns_iff text here within⟩

theorem positions_iff_option : FindsPosition [0x6c, 0x73, 0x20, 0x2d, 0x6c] 4 ∧
    RoundTrips [0x6c, 0x73, 0x20, 0x2d, 0x6c] 1 ⟨3, 5, false⟩ 1 := by
  have both := positions_iff [0x6c, 0x73, 0x20, 0x2d, 0x6c]
  constructor
  · exact (both.1 4 (by decide)).2 fun loose => absurd loose.1 (by decide)
  · exact (both.2 1 _ rfl 1 (by decide)).2 fun first => absurd first.1 (by decide)

/-- The first position of a text that begins with a token is not found. -/
theorem not_findsPosition_start : ¬ ∀ (text : PString) (position : Nat),
    position ≤ text.length → FindsPosition text position := by
  intro all
  have right := all [0x6c, 0x73] 0 (by decide)
  have none' : getTokenByPosition [0x6c, 0x73] (setText [0x6c, 0x73]).1 0 = none := by decide
  rw [FindsPosition, none'] at right
  exact right ⟨0, 2, false⟩ (by decide) (by simp [Token.Contains])

end PadOS.Utils.PPOSIXTokenizer
