import PadOS.Storage.Path

/-!
# Which paths are resolved

Before a component the text is the path of what was kept, and behind it the components that are
still to come. Each component is one round of the loop, and changes what is kept as resolving does,
as long as no two dots meet the root and no extra slash follows a dot.
-/

namespace PadOS.Storage.PPath

open Unicode (PString)
open PathResolution List Option

/-- The loop comes to its end there. -/
def Ends (s final : Normalizing) : Prop :=
  ∃ fuel, normalizeLoop fuel s = final ∧ final.path.length < final.i

variable {s final : Normalizing} {path before part tail : PString} {nameStart prevNameStart i : Nat}

theorem Ends.stop (ended : s.path.length < s.i) : Ends s s := ⟨0, rfl, ended⟩

theorem Ends.step (within : s.i ≤ s.path.length) (ends : Ends (normalizeStep s) final) :
    Ends s final := by
  obtain ⟨fuel, runs, ended⟩ := ends
  exact ⟨fuel + 1, by rw [normalizeLoop, if_pos within, runs], ended⟩

theorem Ends.normalizeLoop_eq (ends : Ends (normalizeStart path) final) :
    normalizeLoop (normalizeFuel path) (normalizeStart path) = final := by
  obtain ⟨fuel, runs, ended⟩ := ends
  rw [← runs] at ended ⊢
  rw [← normalizeLoop_enough path (Nat.le_add_left (normalizeFuel path) fuel)]
  exact normalizeLoop_more fuel _ ended

/-! ## The rounds -/

theorem erase_append (count : Nat) : erase (before ++ tail) before.length count =
    before ++ tail.drop count := by
  simp [erase]

/-- At the end of a component stands a slash, or nothing. -/
def Closes (tail : PString) : Prop := tail = [] ∨ tail[0]? = some slash

theorem at_end (before : PString) (closes : Closes tail) :
    before.length = (before ++ tail).length ∨ (before ++ tail)[before.length]? = some slash := by
  rcases closes with rfl | isSlash
  · simp
  · right
    rw [getElem?_append_right le_rfl, Nat.sub_self, isSlash]

theorem Ends.scan (whole : slash ∉ part) (start : before.length ≤ i)
    (stop : i ≤ before.length + part.length)
    (ends : Ends ⟨before ++ part ++ tail, nameStart, prevNameStart, before.length + part.length⟩
      final) : Ends ⟨before ++ part ++ tail, nameStart, prevNameStart, i⟩ final := by
  obtain ⟨left, isLeft⟩ := Nat.exists_eq_add_of_le stop
  induction left generalizing i with
  | zero =>
    obtain rfl : i = before.length + part.length := isLeft.symm
    exact ends
  | succ left ih =>
    have inside : i - before.length < part.length := by omega
    have here : (before ++ part ++ tail)[i]? = some part[i - before.length] := by
      rw [append_assoc, getElem?_append_right start, getElem?_append_left inside,
        getElem?_eq_getElem inside]
    have plain : part[i - before.length] ≠ slash := by
      intro isSlash
      exact whole (isSlash ▸ getElem_mem inside)
    refine .step (by simp; omega) ?_
    have next : normalizeStep ⟨before ++ part ++ tail, nameStart, prevNameStart, i⟩ =
        ⟨before ++ part ++ tail, nameStart, prevNameStart, i + 1⟩ := by
      rw [normalizeStep, if_neg]
      simp only [here, some.injEq, plain, or_false, length_append]
      omega
    rw [next]
    exact ih (by omega) (by omega) (by omega)

theorem drop_takeWhile (p : UInt8 → Bool) (text : PString) :
    text.drop (text.takeWhile p).length = text.dropWhile p := by
  induction text with
  | nil => rfl
  | cons c text ih =>
    cases first : p c with
    | false => simp [first]
    | true => simpa [first] using ih

theorem normalizeStep_empty (closes : Closes tail) :
    normalizeStep ⟨before ++ tail, before.length, prevNameStart, before.length⟩ =
      ⟨before ++ tail.dropWhile (· == slash), before.length, prevNameStart,
        before.length + 1⟩ := by
  rw [normalizeStep, if_pos (at_end before closes)]
  simp only [Nat.sub_self, if_true, Normalizing.mk.injEq, and_true]
  rw [erase_append, consecutiveSlashes, drop_left, drop_takeWhile]

theorem getElem?_part (before part tail : PString) (k : Nat) (inside : k < part.length) :
    (before ++ part ++ tail)[before.length + k]? = part[k]? := by
  rw [append_assoc, getElem?_append_right (Nat.le_add_right _ _), Nat.add_sub_cancel_left,
    getElem?_append_left inside]

theorem normalizeStep_name (name : IsName slash dot part) (closes : Closes tail) :
    normalizeStep ⟨before ++ part ++ tail, before.length, prevNameStart,
        before.length + part.length⟩ =
      ⟨before ++ part ++ tail, before.length + part.length + 1, before.length,
        before.length + part.length + 1⟩ := by
  have isEnd := at_end (before ++ part) closes
  rw [length_append] at isEnd
  have first := getElem?_part before part tail 0
  have second := getElem?_part before part tail 1
  have notEmpty : part.length ≠ 0 := by simpa using name.nonempty
  have notDot : ¬ (part.length = 1 ∧ (before ++ part ++ tail)[before.length]? = some dot) := by
    intro ⟨single, isDot⟩
    rw [add_zero, isDot] at first
    obtain ⟨c, rfl⟩ := length_eq_one_iff.1 single
    have := first (by simp)
    simp only [length_singleton, Nat.lt_add_one, getElem?_pos, getElem_cons_zero,
      some.injEq] at this
    exact name.notDot (by rw [this])
  have notDots : ¬ (part.length = 2 ∧ (before ++ part ++ tail)[before.length]? = some dot ∧
      (before ++ part ++ tail)[before.length + 1]? = some dot) := by
    intro ⟨double, isDot, isDot'⟩
    obtain ⟨c, d, rfl⟩ := length_eq_two.1 double
    rw [add_zero, isDot] at first
    rw [isDot'] at second
    have one := first (by simp)
    have two := second (by simp)
    simp at one two
    exact name.notDots (by rw [← one, ← two])
  rw [normalizeStep, if_pos isEnd]
  simp only [Nat.add_sub_cancel_left]
  rw [if_neg notEmpty, if_neg notDot, if_neg notDots]

theorem normalizeStep_dot (closes : Closes tail) (some' : before ≠ []) :
    normalizeStep ⟨before ++ [dot] ++ tail, before.length, prevNameStart, before.length + 1⟩ =
      ⟨before ++ tail.tail, before.length, prevNameStart, before.length + 1⟩ := by
  have isEnd := at_end (before ++ [dot]) closes
  rw [length_append, length_singleton] at isEnd
  have isDot : (before ++ [dot] ++ tail)[before.length]? = some dot := by simp
  have positive : before.length ≠ 0 := by simpa using some'
  rw [normalizeStep, if_pos isEnd]
  simp only [Nat.add_sub_cancel_left, isDot, positive, ne_eq, not_false_eq_true, if_true, and_self,
    Nat.add_sub_cancel, Nat.one_ne_zero, if_false]
  rw [append_assoc]
  split_ifs with last
  · have ended : tail = [] := by
      have : tail.length = 0 := by
        simp only [length_append, length_singleton] at last
        omega
      simpa using this
    rw [erase_append, ended]
    rfl
  · rw [erase_append]
    rcases closes with rfl | isSlash
    · simp at last
    · cases tail with
      | nil => simp at isSlash
      | cons c tail => rfl

theorem rewindName_eq (tail : PString) (whole : slash ∉ part)
    (behind : before[before.length - 1]? = some slash) (some' : before ≠ []) (k : Nat)
    (inside : k ≤ part.length) :
    rewindName (before ++ part ++ tail) (before.length + k) = before.length := by
  have positive : 0 < before.length := length_pos_iff.2 some'
  induction k with
  | zero =>
    obtain ⟨position, isPosition⟩ := Nat.exists_eq_succ_of_ne_zero positive.ne'
    rw [add_zero, isPosition, rewindName, if_pos]
    rw [append_assoc, getElem?_append_left (by omega)]
    simpa [isPosition] using behind
  | succ k ih =>
    have here := getElem?_part before part tail k (by omega)
    rw [← add_assoc, rewindName, if_neg, ih (by omega)]
    rw [here, getElem?_eq_getElem (by omega)]
    intro isSlash
    exact whole (some.inj isSlash ▸ getElem_mem _)

theorem normalizeStep_dots (closes : Closes tail) (whole : slash ∉ part)
    (behind : before[before.length - 1]? = some slash) (some' : before ≠ [])
    (previous : prevNameStart = before.length ∨ prevNameStart = before.length + part.length + 1) :
    normalizeStep ⟨before ++ part ++ [slash, dot, dot] ++ tail, before.length + part.length + 1,
        prevNameStart, before.length + part.length + 3⟩ =
      ⟨before ++ tail.tail, before.length, before.length, before.length + 1⟩ := by
  have isEnd := at_end (before ++ part ++ [slash, dot, dot]) closes
  have size : (before ++ part ++ [slash, dot, dot]).length = before.length + part.length + 3 := by
    simp
    omega
  rw [size] at isEnd
  have at_dot (k : Nat) := getElem?_part (before ++ part) [slash, dot, dot] tail k
  simp only [length_append, length_cons, length_nil, zero_add, Nat.reduceAdd] at at_dot
  have first := at_dot 1 (by omega)
  have second := at_dot 2 (by omega)
  have positive : 0 < before.length := length_pos_iff.2 some'
  have length : before.length + part.length + 3 - (before.length + part.length + 1) = 2 := by omega
  have rewound : rewindName (before ++ part ++ [slash, dot, dot] ++ tail)
      (before.length + part.length + 1 - 1) = before.length := by
    have eq := rewindName_eq ([slash, dot, dot] ++ tail) whole behind some' part.length
      le_rfl
    simpa using eq
  rw [normalizeStep, if_pos isEnd]
  dsimp only
  rw [length, if_neg (by decide), if_neg (by simp), if_pos ⟨rfl, first, second⟩]
  have back : (if prevNameStart > 0 ∧ prevNameStart = before.length + part.length + 1 then
      rewindName (before ++ part ++ [slash, dot, dot] ++ tail) (prevNameStart - 1)
      else prevNameStart) = before.length := by
    rcases previous with isBefore | isName
    · rw [if_neg (by omega), isBefore]
    · rw [if_pos (by omega), isName, rewound]
  rw [back, if_neg (by omega), append_assoc, append_assoc, erase_append, Normalizing.mk.injEq]
  refine ⟨congrArg _ ?_, rfl, rfl, rfl⟩
  have count : before.length + part.length + 3 - before.length + 1 = part.length + 4 := by omega
  rw [count]
  simp only [cons_append, nil_append]
  rw [← drop_drop, drop_left]
  simp

/-! ## One component after the other -/

/-- No extra slash stands in front of the components; one at the end of the path is not extra. -/
def Starts (parts : List PString) : Prop := parts.head? = some [] → parts = [[]]

/-- With `depth` components kept, no two dots meet the root, and no extra slash follows a dot or
two dots. -/
def Clean (depth : Nat) : List PString → Prop
  | [] => True
  | part :: rest =>
    if part = [] then Clean depth rest
    else if part = [dot] then Starts rest ∧ Clean depth rest
    else if part = [dot, dot] then 0 < depth ∧ Starts rest ∧ Clean (depth - 1) rest
    else Clean (depth + 1) rest

instance (parts : List PString) : Decidable (Starts parts) :=
  inferInstanceAs (Decidable (_ → _))

instance decidableClean : (depth : Nat) → (parts : List PString) → Decidable (Clean depth parts)
  | _, [] => .isTrue trivial
  | depth, part :: rest =>
    have _ := fun depth => decidableClean depth rest
    inferInstanceAs (Decidable (if part = [] then Clean depth rest
      else if part = [dot] then Starts rest ∧ Clean depth rest
      else if part = [dot, dot] then 0 < depth ∧ Starts rest ∧ Clean (depth - 1) rest
      else Clean (depth + 1) rest))

/-- What stands behind a component: nothing, or a slash and the components that follow. -/
def follow (rest : List PString) : PString :=
  if rest = [] then [] else slash :: joined slash rest

variable {parts rest kept : List PString}

theorem joined_follow (part : PString) (rest : List PString) :
    joined slash (part :: rest) = part ++ follow rest := by
  unfold follow
  split_ifs with last
  · simp [last]
  · rw [joined_cons part last]

theorem follow_closes (rest : List PString) : Closes (follow rest) := by
  unfold follow Closes
  split_ifs
  · exact .inl rfl
  · exact .inr rfl

theorem follow_tail (rest : List PString) : (follow rest).tail = joined slash rest := by
  unfold follow
  split_ifs with last
  · simp [last]
  · rfl

theorem dropWhile_follow (whole : ∀ part ∈ rest, slash ∉ part) :
    (follow rest).dropWhile (· == slash) =
      joined slash (rest.dropWhile fun part => decide (part = [])) := by
  induction rest with
  | nil => rfl
  | cons part rest ih =>
    have here : follow (part :: rest) = slash :: (part ++ follow rest) := by
      rw [follow, if_neg (by simp), joined_follow]
    rw [here, dropWhile_cons_of_pos (by simp)]
    cases part with
    | nil => simpa using ih fun other member => whole other (mem_cons_of_mem _ member)
    | cons c part =>
      have plain : ¬ (c == slash) = true := by
        intro isSlash
        exact whole (c :: part) mem_cons_self (by simp [eq_of_beq isSlash])
      rw [dropWhile_cons_of_neg (by simp), joined_follow, cons_append, dropWhile_cons, if_neg plain]

theorem clean_dropWhile (depth : Nat) (rest : List PString) :
    Clean depth (rest.dropWhile fun part => decide (part = [])) ↔ Clean depth rest := by
  induction rest with
  | nil => rfl
  | cons part rest ih =>
    by_cases empty : part = []
    · rw [dropWhile_cons_of_pos (by simp [empty]), ih, Clean, if_pos empty]
    · rw [dropWhile_cons_of_neg (by simp [empty])]

theorem foldl_dropWhile (rest : List PString) :
    (rest.dropWhile fun part => decide (part = [])).foldl (resolveStep dot) kept =
      rest.foldl (resolveStep dot) kept := by
  induction rest with
  | nil => rfl
  | cons part rest ih =>
    by_cases empty : part = []
    · rw [dropWhile_cons_of_pos (by simp [empty]), ih, foldl_cons]
      simp [resolveStep, empty]
    · rw [dropWhile_cons_of_neg (by simp [empty])]

theorem starts_dropWhile (rest : List PString) :
    Starts (rest.dropWhile fun part => decide (part = [])) := by
  intro first
  have notEmpty := head?_dropWhile_not (fun part : PString => decide (part = [])) rest
  rw [first] at notEmpty
  simp at notEmpty

/-- Where the previous component started: it is the last one that is kept, or it was taken away. -/
def Previous (kept : List PString) (prevNameStart : Nat) : Prop :=
  prevNameStart = (entered slash kept).length ∨
    ∃ init part, kept = init ++ [part] ∧ prevNameStart = (entered slash init).length

/-- The end of the loop, with the last component closed by a slash or not. -/
def Done (kept : List PString) (final : Normalizing) : Prop :=
  (final.path = entered slash kept ∧ Previous kept final.prevNameStart) ∨
    ∃ init part, kept = init ++ [part] ∧ final.path = entered slash init ++ part ∧
      final.prevNameStart = (entered slash init).length

/-- The loop looks at the first character of the next component, or passes over it. -/
def Before (kept parts : List PString) (i : Nat) : Prop :=
  i = (entered slash kept).length ∨ (i = (entered slash kept).length + 1 ∧ Starts parts)

/-- From the start of a component the loop comes to the end of the text with what resolving the
components keeps. -/
def Resolves (kept parts : List PString) (prevNameStart i : Nat) : Prop :=
  ∃ final, Ends ⟨entered slash kept ++ joined slash parts, (entered slash kept).length,
    prevNameStart, i⟩ final ∧ Done (parts.foldl (resolveStep dot) kept) final

theorem Resolves.nil (previous : Previous kept prevNameStart)
    (position : i = (entered slash kept).length ∨ i = (entered slash kept).length + 1) :
    Resolves kept [] prevNameStart i := by
  have ended := Ends.stop (s := ⟨entered slash kept ++ [], (entered slash kept).length,
    prevNameStart, (entered slash kept).length + 1⟩) (by simp)
  refine ⟨⟨entered slash kept ++ [], (entered slash kept).length, prevNameStart,
    (entered slash kept).length + 1⟩, ?_, .inl ⟨append_nil _, previous⟩⟩
  rcases position with rfl | rfl
  · refine .step (by simp) ?_
    rw [joined_nil, normalizeStep_empty (.inl rfl)]
    exact ended
  · exact ended

theorem Resolves.scan (whole : slash ∉ part) (some' : part ≠ [])
    (position : Before kept (part :: rest) i)
    (next : ∃ final, Ends (normalizeStep ⟨entered slash kept ++ part ++ follow rest,
      (entered slash kept).length, prevNameStart, (entered slash kept).length + part.length⟩) final
        ∧
      Done (rest.foldl (resolveStep dot) (resolveStep dot kept part)) final) :
    Resolves kept (part :: rest) prevNameStart i := by
  have positive := length_pos_iff.2 some'
  have start : (entered slash kept).length ≤ i := by
    rcases position with rfl | ⟨rfl, -⟩ <;> omega
  have stop : i ≤ (entered slash kept).length + part.length := by
    rcases position with rfl | ⟨rfl, -⟩ <;> omega
  obtain ⟨final, ends, isDone⟩ := next
  rw [Resolves, joined_follow, ← append_assoc]
  exact ⟨final, (ends.step (by simp)).scan whole start stop, isDone⟩

theorem Resolves.empty (whole : ∀ part ∈ rest, slash ∉ part)
    (next : Resolves kept (rest.dropWhile fun part => decide (part = [])) prevNameStart
      ((entered slash kept).length + 1)) :
    Resolves kept ([] :: rest) prevNameStart (entered slash kept).length := by
  obtain ⟨final, ends, isDone⟩ := next
  rw [foldl_dropWhile] at isDone
  rw [← dropWhile_follow whole, ← normalizeStep_empty (follow_closes rest)] at ends
  rw [Resolves, joined_follow, nil_append]
  exact ⟨final, ends.step (by simp), isDone⟩

theorem Resolves.stay (position : Before kept ([dot] :: rest) i)
    (next : Resolves kept rest prevNameStart ((entered slash kept).length + 1)) :
    Resolves kept ([dot] :: rest) prevNameStart i := by
  obtain ⟨final, ends, isDone⟩ := next
  rw [← follow_tail, ← normalizeStep_dot (follow_closes rest) (by simp [entered])] at ends
  exact .scan (by decide) (by simp) position ⟨final, ends, isDone⟩

theorem Resolves.back (names : ∀ part ∈ kept, IsName slash dot part) (some' : kept ≠ [])
    (previous : Previous kept prevNameStart) (position : Before kept ([dot, dot] :: rest) i)
    (next : Resolves kept.dropLast rest (entered slash kept.dropLast).length
      ((entered slash kept.dropLast).length + 1)) :
    Resolves kept ([dot, dot] :: rest) prevNameStart i := by
  obtain ⟨init, last, rfl⟩ := (eq_nil_or_concat' kept).resolve_left some'
  have name := names last (by simp)
  obtain ⟨final, ends, isDone⟩ := next
  rw [dropLast_concat] at ends isDone
  have size : (entered slash (init ++ [last])).length =
      (entered slash init).length + last.length + 1 := by
    rw [entered_append, length_append, length_append, length_singleton]
  have back : prevNameStart = (entered slash init).length ∨
      prevNameStart = (entered slash init).length + last.length + 1 := by
    rcases previous with same | ⟨init', last', same, isInit⟩
    · exact .inr (same.trans size)
    · rw [append_inj_left' same rfl]
      exact .inl isInit
  refine .scan (by decide) (by simp) position ⟨final, ?_, ?_⟩
  · have erased := normalizeStep_dots (follow_closes rest) name.whole (entered_last init)
      (by simp [entered]) back
    rw [← follow_tail, ← erased] at ends
    rw [size, entered_append]
    simpa using ends
  · simpa [resolveStep] using isDone

theorem Resolves.last (name : IsName slash dot part) (position : Before kept [part] i) :
    Resolves kept [part] prevNameStart i := by
  refine .scan name.whole name.nonempty position ?_
  rw [normalizeStep_name name (follow_closes []), resolveStep_name name]
  exact ⟨_, .stop (by simp [follow]), .inr ⟨kept, part, rfl, by simp [follow], rfl⟩⟩

theorem Resolves.name (name : IsName slash dot part) (some' : rest ≠ [])
    (position : Before kept (part :: rest) i)
    (next : Resolves (kept ++ [part]) rest (entered slash kept).length
      (entered slash (kept ++ [part])).length) :
    Resolves kept (part :: rest) prevNameStart i := by
  obtain ⟨final, ends, isDone⟩ := next
  refine .scan name.whole name.nonempty position ⟨final, ?_, ?_⟩
  · rw [normalizeStep_name name (follow_closes rest), follow, if_neg some']
    simpa [entered_append, add_assoc] using ends
  · rwa [resolveStep_name name]

theorem resolves (count : Nat) (few : parts.length ≤ count)
    (names : ∀ part ∈ kept, IsName slash dot part) (whole : ∀ part ∈ parts, slash ∉ part)
    (clean : Clean kept.length parts) (previous : Previous kept prevNameStart)
    (position : Before kept parts i) : Resolves kept parts prevNameStart i := by
  induction count generalizing parts kept prevNameStart i with
  | zero =>
    obtain rfl : parts = [] := by simpa using few
    exact .nil previous (position.imp id And.left)
  | succ count ih =>
    cases parts with
    | nil => exact .nil previous (position.imp id And.left)
    | cons part rest =>
      have fewer : rest.length ≤ count := by simpa using few
      have wholeRest : ∀ part ∈ rest, slash ∉ part := fun other member =>
        whole other (mem_cons_of_mem part member)
      rw [Clean] at clean
      split_ifs at clean with empty isDot isDots
      · subst empty
        rcases position with rfl | ⟨rfl, starts⟩
        · refine .empty wholeRest (ih ?_ names ?_ ?_ previous (.inr ⟨rfl, starts_dropWhile rest⟩))
          · exact le_trans (dropWhile_suffix _).length_le fewer
          · exact fun other member => wholeRest other ((dropWhile_suffix _).subset member)
          · exact (clean_dropWhile _ _).2 clean
        · obtain rfl : rest = [] := by simpa using starts rfl
          exact .nil previous (.inr rfl)
      · subst isDot
        exact .stay position (ih fewer names wholeRest clean.2 previous (.inr ⟨rfl, clean.1⟩))
      · subst isDots
        have some' : kept ≠ [] := length_pos_iff.1 clean.1
        refine .back names some' previous position (ih fewer ?_ wholeRest ?_ (.inl rfl)
          (.inr ⟨rfl, clean.2.1⟩))
        · exact fun other member => names other ((dropLast_sublist kept).subset member)
        · simpa using clean.2.2
      · have name : IsName slash dot part :=
          ⟨empty, isDot, isDots, whole part mem_cons_self⟩
        by_cases last : rest = []
        · subst last
          exact .last name position
        · refine .name name last position (ih fewer ?_ wholeRest ?_
            (.inr ⟨kept, part, rfl, rfl⟩) (.inl rfl))
          · intro other member
            rcases mem_append.1 member with old | new
            · exact names other old
            · rwa [mem_singleton.1 new]
          · simpa using clean

/-! ## The path that is left -/

theorem getElem?_last (whole : slash ∉ part) (some' : part ≠ []) :
    (before ++ part)[(before ++ part).length - 1]? ≠ some slash := by
  intro isSlash
  have positive := length_pos_iff.2 some'
  rw [getElem?_append_right (by simp; omega)] at isSlash
  exact whole (mem_of_getElem? isSlash)

theorem rewindName_render (names : ∀ part ∈ kept, IsName slash dot part) :
    rewindName (render slash kept) (render slash kept).length = lastStart slash kept := by
  rcases eq_nil_or_concat' kept with rfl | ⟨init, part, rfl⟩
  · rfl
  · have whole := (names part (by simp)).whole
    have rewound := rewindName_eq [] whole (entered_last init) (by simp [entered])
      part.length le_rfl
    rw [render_append, lastStart_append]
    simpa using rewound

theorem Done.stripped (isDone : Done kept final) (names : ∀ part ∈ kept, IsName slash dot part) :
    (if final.path.length > 1 ∧ final.path[final.path.length - 1]? = some slash then
      final.path.take (final.path.length - 1) else final.path) = render slash kept := by
  rcases isDone with ⟨isPath, -⟩ | ⟨init, part, rfl, isPath, -⟩
  · rw [isPath]
    rcases eq_nil_or_concat' kept with rfl | ⟨init, part, rfl⟩
    · rfl
    · have positive : 0 < (entered slash init).length := entered_length_pos init
      rw [if_pos ⟨by simp [entered_append]; omega, entered_last _⟩, entered_append, render_append,
        length_append, length_singleton, Nat.add_sub_cancel, take_left]
  · have name := names part (by simp)
    rw [isPath, if_neg fun trailing => getElem?_last name.whole name.nonempty trailing.2,
      render_append]

theorem Done.start (isDone : Done kept final) :
    (render slash kept).length ≤ final.prevNameStart ∨
      final.prevNameStart = lastStart slash kept := by
  rcases isDone with ⟨-, isEnd | ⟨init, part, rfl, isStart⟩⟩ | ⟨init, part, rfl, -, isStart⟩
  · left
    rw [isEnd]
    rcases eq_nil_or_concat' kept with rfl | ⟨init, part, rfl⟩
    · exact le_rfl
    · simp [render_append, entered_append]
  · exact .inr (isStart.trans (lastStart_append init part).symm)
  · exact .inr (isStart.trans (lastStart_append init part).symm)

theorem normalize_ends (long : 2 ≤ path.length) (ends : Ends (normalizeStart path) final)
    (names : ∀ part ∈ kept, IsName slash dot part) (isDone : Done kept final) :
    normalize path = (render slash kept, lastStart slash kept) := by
  rw [normalize, if_neg (not_lt.2 long), ends.normalizeLoop_eq]
  dsimp only
  rw [isDone.stripped names, rewindName_render names]
  rcases isDone.start with behind | isStart
  · rw [if_pos behind]
  · rw [isStart, ite_self]

theorem normalize_clean (text : PString) (clean : Clean 0 (components slash text)) :
    normalize (slash :: text) = (render slash (resolve dot (components slash text)),
      lastStart slash (resolve dot (components slash text))) := by
  by_cases empty : text = []
  · subst empty
    rfl
  · have run : Resolves [] (components slash text) 1 1 :=
      resolves _ le_rfl (by simp) (not_mem_components text) clean (.inl rfl) (.inl rfl)
    obtain ⟨final, ends, isDone⟩ := run
    rw [joined_components] at ends
    have long : 2 ≤ (slash :: text).length := by
      have := length_pos_iff.2 empty
      simp only [length_cons]
      omega
    exact normalize_ends long ends (resolve_isName text) isDone

theorem clean_names (depth : Nat) (names : ∀ part ∈ parts, IsName slash dot part) :
    Clean depth parts := by
  induction parts generalizing depth with
  | nil => exact trivial
  | cons part rest ih =>
    have name := names part mem_cons_self
    rw [Clean, if_neg name.nonempty, if_neg name.notDot, if_neg name.notDots]
    exact ih (depth + 1) fun other member => names other (mem_cons_of_mem part member)

theorem normalize_render (names : ∀ part ∈ kept, IsName slash dot part) :
    normalize (render slash kept) = (render slash kept, lastStart slash kept) := by
  by_cases empty : kept = []
  · subst empty
    rfl
  · have same := components_joined (fun part member => (names part member).whole) empty
    have normal := normalize_clean (joined slash kept) (by rw [same]; exact clean_names 0 names)
    rwa [same, resolve_names names] at normal

theorem getLeaf_render (kept : List PString) :
    getLeaf (render slash kept) (lastStart slash kept) = kept.getLastD [] := by
  rcases eq_nil_or_concat' kept with rfl | ⟨init, part, rfl⟩
  · rfl
  · rw [render_append, lastStart_append, getLeaf, drop_left, getLastD_concat]

theorem getDir_render (names : ∀ part ∈ kept, IsName slash dot part) :
    getDir (render slash kept) (lastStart slash kept) = render slash kept.dropLast := by
  rcases eq_nil_or_concat' kept with rfl | ⟨init, part, rfl⟩
  · rfl
  · have positive := length_pos_iff.2 (names part (by simp)).nonempty
    rw [render_append, lastStart_append, dropLast_concat, getDir,
      if_neg (by rw [length_append]; omega)]
    rcases eq_nil_or_concat' init with rfl | ⟨outer, name, rfl⟩
    · rfl
    · have behind : (entered slash (outer ++ [name]) ++ part)[
          (entered slash (outer ++ [name])).length - 1]? = some slash := by
        rw [getElem?_append_left (by simp [entered]), entered_last]
      have size : 0 < (entered slash outer).length := entered_length_pos outer
      have long : 1 < (entered slash (outer ++ [name])).length := by
        rw [entered_append]
        simp
        omega
      rw [if_pos (And.intro long behind), render_append, entered_append, length_append,
        length_singleton, Nat.add_sub_cancel, append_assoc, take_left]

/-- The path that resolving the components gives, which is its own normal form, with the start of
its last component. -/
structure Normalized (text : PString) : Prop where
  path : (normalize (slash :: text)).1 = render slash (resolve dot (components slash text))
  names : ∀ part ∈ resolve dot (components slash text), IsName slash dot part
  again : normalize (normalize (slash :: text)).1 = normalize (slash :: text)
  start : (normalize (slash :: text)).2 = lastStart slash (resolve dot (components slash text))
  leaf : getLeaf (normalize (slash :: text)).1 (normalize (slash :: text)).2 =
    (resolve dot (components slash text)).getLastD []
  dir : getDir (normalize (slash :: text)).1 (normalize (slash :: text)).2 =
    render slash (resolve dot (components slash text)).dropLast

/-- The loop always ends, and where no two dots meet the root and no extra slash follows a dot or
two dots the path is resolved. -/
theorem normalize_resolves (text : PString) :
    (normalizeLoop (normalizeFuel (slash :: text)) (normalizeStart (slash :: text))).path.length <
        (normalizeLoop (normalizeFuel (slash :: text)) (normalizeStart (slash :: text))).i ∧
      (Clean 0 (components slash text) → Normalized text) := by
  constructor
  · exact normalizeLoop_ends _ (ordered_start _)
      (by simp only [normalizeStart, normalizeFuel]; omega)
  · intro clean
    have names : ∀ part ∈ resolve dot (components slash text), IsName slash dot part :=
      resolve_isName text
    have normal := normalize_clean text clean
    exact
      { path := by rw [normal]
        names := names
        again := by rw [normal, normalize_render names]
        start := by rw [normal]
        leaf := by rw [normal, getLeaf_render]
        dir := by rw [normal, getDir_render names] }

/-- `/a/../b`. -/
theorem normalize_resolves_dots : Normalized [0x61, slash, dot, dot, slash, 0x62] :=
  (normalize_resolves [0x61, slash, dot, dot, slash, 0x62]).2 (by decide)

/-- The slash behind `/./` stays in `/.//b`. -/
theorem not_normalized_always : ¬ ∀ text, Normalized text := by
  intro always
  exact absurd (always [dot, slash, slash, 0x62]).path (by decide)

/-- Two dots at the root leave the start of the last component in front of the slash. -/
example : normalize [slash, dot, dot, slash, 0x61] = ([slash, 0x61], 0) := by decide

end PadOS.Storage.PPath
