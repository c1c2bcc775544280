import Mathlib.Data.List.Basic
import Mathlib.Data.List.Infix
import Mathlib.Tactic.Common

/-!
# Shell quoting

A word is read as a sequence of pieces: a character that stands for itself, an escaped one, a
line continuation, text between single quotes, text between double quotes. `Removal` relates a
word to what is left of it when the quoting characters are taken out, and says how it ended.
`remove` computes the same in one pass, with the quote it is in as its state.

The characters may carry labels: `mark` tells what a character is to the quoting rules.
-/

namespace PadOS.ShellQuoting

open List

variable {α β : Type*}

/-- What a character is to the quoting rules. -/
inductive Mark
  | ordinary
  | special
  | newline
  | singleQuote
  | doubleQuote
  | backslash
  deriving DecidableEq

def Mark.quotes : Mark → Bool
  | .singleQuote | .doubleQuote | .backslash => true
  | _ => false

/-- What a backslash quotes between double quotes. -/
def Mark.escapable : Mark → Bool
  | .special | .doubleQuote | .backslash => true
  | _ => false

inductive Ending
  | complete
  | openSingle
  | openDouble
  | trailingBackslash
  deriving DecidableEq

section Pieces

variable (mark : α → Mark)

/-- What text between double quotes stands for. -/
inductive Double : List α → List α → Prop
  | nil : Double [] []
  | plain {c s v} : mark c ≠ .doubleQuote → mark c ≠ .backslash → Double s v →
      Double (c :: s) (c :: v)
  | escaped {b c s v} : mark b = .backslash → (mark c).escapable = true → Double s v →
      Double (b :: c :: s) (c :: v)
  | continuation {b c s v} : mark b = .backslash → mark c = .newline → Double s v →
      Double (b :: c :: s) v
  | literal {b c s v} : mark b = .backslash → (mark c).escapable = false → mark c ≠ .newline →
      Double s v → Double (b :: c :: s) (b :: c :: v)

inductive Removal : List α → List α → Ending → Prop
  | nil : Removal [] [] .complete
  | plain {c s v e} : (mark c).quotes = false → Removal s v e → Removal (c :: s) (c :: v) e
  | escaped {b c s v e} : mark b = .backslash → mark c ≠ .newline → Removal s v e →
      Removal (b :: c :: s) (c :: v) e
  | continuation {b c s v e} : mark b = .backslash → mark c = .newline → Removal s v e →
      Removal (b :: c :: s) v e
  | single {q body q' s v e} : mark q = .singleQuote → (∀ c ∈ body, mark c ≠ .singleQuote) →
      mark q' = .singleQuote → Removal s v e → Removal (q :: (body ++ q' :: s)) (body ++ v) e
  | double {q body w q' s v e} : mark q = .doubleQuote → Double mark body w →
      mark q' = .doubleQuote → Removal s v e → Removal (q :: (body ++ q' :: s)) (w ++ v) e
  | openSingle {q body} : mark q = .singleQuote → (∀ c ∈ body, mark c ≠ .singleQuote) →
      Removal (q :: body) body .openSingle
  | openDouble {q body w} : mark q = .doubleQuote → Double mark body w →
      Removal (q :: body) w .openDouble
  | trailing {b} : mark b = .backslash → Removal [b] [] .trailingBackslash
  | trailingInDouble {q body w b} : mark q = .doubleQuote → Double mark body w →
      mark b = .backslash → Removal (q :: (body ++ [b])) w .trailingBackslash

end Pieces

/-! ## In one pass -/

inductive Mode
  | none
  | inSingle
  | inDouble
  deriving DecidableEq

@[simp] def Mode.ending : Mode → Ending
  | .none => .complete
  | .inSingle => .openSingle
  | .inDouble => .openDouble

def keep (c : α) (r : List α × Ending) : List α × Ending := (c :: r.1, r.2)

@[simp] theorem keep_fst (c : α) (r : List α × Ending) : (keep c r).1 = c :: r.1 := rfl

@[simp] theorem keep_snd (c : α) (r : List α × Ending) : (keep c r).2 = r.2 := rfl

def remove (mark : α → Mark) : Mode → List α → List α × Ending
  | mode, [] => ([], mode.ending)
  | .none, c :: rest =>
    match mark c with
    | .singleQuote => remove mark .inSingle rest
    | .doubleQuote => remove mark .inDouble rest
    | .backslash =>
      match rest with
      | [] => ([], .trailingBackslash)
      | next :: rest =>
        if mark next = .newline then remove mark .none rest
        else keep next (remove mark .none rest)
    | _ => keep c (remove mark .none rest)
  | .inSingle, c :: rest =>
    if mark c = .singleQuote then remove mark .none rest else keep c (remove mark .inSingle rest)
  | .inDouble, c :: rest =>
    match mark c with
    | .doubleQuote => remove mark .none rest
    | .backslash =>
      match rest with
      | [] => ([], .trailingBackslash)
      | next :: rest =>
        if (mark next).escapable then keep next (remove mark .inDouble rest)
        else if mark next = .newline then remove mark .inDouble rest
        else keep c (keep next (remove mark .inDouble rest))
    | _ => keep c (remove mark .inDouble rest)

/-- The pass as an equation. -/
alias remove_eq := remove.eq_def

section Remove

variable {mark : α → Mark} {c b next : α} {rest : List α}

@[simp] theorem remove_nil (mode : Mode) : remove mark mode [] = ([], mode.ending) := by
  cases mode <;> rfl

theorem remove_plain (h : (mark c).quotes = false) :
    remove mark .none (c :: rest) = keep c (remove mark .none rest) := by
  rw [remove_eq]
  cases m : mark c <;> simp_all [Mark.quotes]

theorem remove_of_plain {s : List α} (h : ∀ c ∈ s, (mark c).quotes = false) :
    remove mark .none s = (s, .complete) := by
  induction s with
  | nil => rfl
  | cons c s ih =>
    rw [remove_plain (h c (by simp)), ih (fun d mem => h d (mem_cons_of_mem c mem))]
    rfl

theorem remove_singleQuote (h : mark c = .singleQuote) :
    remove mark .none (c :: rest) = remove mark .inSingle rest := by
  rw [remove_eq]
  simp [h]

theorem remove_doubleQuote (h : mark c = .doubleQuote) :
    remove mark .none (c :: rest) = remove mark .inDouble rest := by
  rw [remove_eq]
  simp [h]

theorem remove_trailing (h : mark b = .backslash) :
    remove mark .none [b] = ([], .trailingBackslash) := by
  rw [remove_eq]
  simp [h]

theorem remove_backslash (h : mark b = .backslash) :
    remove mark .none (b :: next :: rest) = if mark next = .newline then remove mark .none rest
      else keep next (remove mark .none rest) := by
  rw [remove_eq]
  simp [h]

theorem remove_closeSingle (h : mark c = .singleQuote) :
    remove mark .inSingle (c :: rest) = remove mark .none rest := by
  rw [remove_eq]
  simp [h]

theorem remove_inSingle (h : mark c ≠ .singleQuote) :
    remove mark .inSingle (c :: rest) = keep c (remove mark .inSingle rest) := by
  rw [remove_eq]
  simp [h]

theorem remove_closeDouble (h : mark c = .doubleQuote) :
    remove mark .inDouble (c :: rest) = remove mark .none rest := by
  rw [remove_eq]
  simp [h]

theorem remove_inDouble (quote : mark c ≠ .doubleQuote) (backslash : mark c ≠ .backslash) :
    remove mark .inDouble (c :: rest) = keep c (remove mark .inDouble rest) := by
  rw [remove_eq]
  cases m : mark c <;> simp_all

theorem remove_trailingInDouble (h : mark b = .backslash) :
    remove mark .inDouble [b] = ([], .trailingBackslash) := by
  rw [remove_eq]
  simp [h]

theorem remove_backslashInDouble (h : mark b = .backslash) :
    remove mark .inDouble (b :: next :: rest) =
      if (mark next).escapable then keep next (remove mark .inDouble rest)
      else if mark next = .newline then remove mark .inDouble rest
      else keep b (keep next (remove mark .inDouble rest)) := by
  rw [remove_eq]
  simp [h]

end Remove

/-! ## The pass and the pieces agree -/

section Agreement

variable {mark : α → Mark}

theorem remove_singleBody {body : List α} (h : ∀ c ∈ body, mark c ≠ .singleQuote) (rest : List α) :
    remove mark .inSingle (body ++ rest) =
      (body ++ (remove mark .inSingle rest).1, (remove mark .inSingle rest).2) := by
  induction body with
  | nil => rfl
  | cons c body ih =>
    rw [cons_append, remove_inSingle (h c (by simp)), ih (fun d mem => h d (mem_cons_of_mem c mem))]
    rfl

theorem Double.remove_append {body w : List α} (h : Double mark body w) (rest : List α) :
    remove mark .inDouble (body ++ rest) =
      (w ++ (remove mark .inDouble rest).1, (remove mark .inDouble rest).2) := by
  induction h with
  | nil => rfl
  | plain quote backslash _ ih =>
    rw [cons_append, remove_inDouble quote backslash, ih]
    rfl
  | escaped backslash escapable _ ih =>
    rw [cons_append, cons_append, remove_backslashInDouble backslash, if_pos escapable, ih]
    rfl
  | continuation backslash newline _ ih =>
    rw [cons_append, cons_append, remove_backslashInDouble backslash,
      if_neg (by simp [newline, Mark.escapable]), if_pos newline, ih]
  | literal backslash escapable newline _ ih =>
    rw [cons_append, cons_append, remove_backslashInDouble backslash,
      if_neg (by simp [escapable]), if_neg newline, ih]
    rfl

theorem Removal.remove_eq {s v : List α} {e : Ending} (h : Removal mark s v e) :
    remove mark .none s = (v, e) := by
  induction h with
  | nil => rfl
  | plain plain _ ih => rw [remove_plain plain, ih]; rfl
  | escaped backslash newline _ ih => rw [remove_backslash backslash, if_neg newline, ih]; rfl
  | continuation backslash newline _ ih => rw [remove_backslash backslash, if_pos newline, ih]
  | single opening body closing _ ih =>
    rw [remove_singleQuote opening, remove_singleBody body, remove_closeSingle closing, ih]
  | double opening body closing _ ih =>
    rw [remove_doubleQuote opening, body.remove_append, remove_closeDouble closing, ih]
  | @openSingle q body opening plain =>
    have read := remove_singleBody plain []
    rw [append_nil] at read
    rw [remove_singleQuote opening, read]
    simp
  | @openDouble q body w opening inside =>
    have read := inside.remove_append []
    rw [append_nil] at read
    rw [remove_doubleQuote opening, read]
    simp
  | trailing backslash => exact remove_trailing backslash
  | trailingInDouble opening inside backslash =>
    rw [remove_doubleQuote opening, inside.remove_append, remove_trailingInDouble backslash]
    simp

theorem Double.snoc {body w t u : List α} (h : Double mark body w) (last : Double mark t u) :
    Double mark (body ++ t) (w ++ u) := by
  induction h with
  | nil => exact last
  | plain quote backslash _ ih => exact .plain quote backslash ih
  | escaped backslash escapable _ ih => exact .escaped backslash escapable ih
  | continuation backslash newline _ ih => exact .continuation backslash newline ih
  | literal backslash escapable newline _ ih => exact .literal backslash escapable newline ih

/-- What is read inside a quote completes the piece that the quote began. -/
def Completes (mark : α → Mark) : Mode → List α → Prop
  | .none, s => Removal mark s (remove mark .none s).1 (remove mark .none s).2
  | .inSingle, s =>
    ∀ q body, mark q = .singleQuote → (∀ c ∈ body, mark c ≠ .singleQuote) →
      Removal mark (q :: (body ++ s)) (body ++ (remove mark .inSingle s).1)
        (remove mark .inSingle s).2
  | .inDouble, s =>
    ∀ q body w, mark q = .doubleQuote → Double mark body w →
      Removal mark (q :: (body ++ s)) (w ++ (remove mark .inDouble s).1) (remove mark .inDouble s).2

theorem completes (mark : α → Mark) (mode : Mode) (s : List α) : Completes mark mode s := by
  induction mode, s using remove.induct mark with
  | case1 mode =>
    cases mode with
    | none => exact .nil
    | inSingle =>
      intro q body opening plain
      simpa using Removal.openSingle opening plain
    | inDouble =>
      intro q body w opening inside
      simpa using Removal.openDouble opening inside
  | case2 c rest quote ih =>
    rw [Completes, remove_singleQuote quote]
    exact ih c [] quote (by simp)
  | case3 c rest quote ih =>
    rw [Completes, remove_doubleQuote quote]
    exact ih c [] [] quote .nil
  | case4 c backslash =>
    rw [Completes, remove_trailing backslash]
    exact .trailing backslash
  | case5 c backslash next rest newline ih =>
    rw [Completes, remove_backslash backslash, if_pos newline]
    exact .continuation backslash newline ih
  | case6 c backslash next rest newline ih =>
    rw [Completes, remove_backslash backslash, if_neg newline]
    exact .escaped backslash newline ih
  | case7 c rest single double backslash ih =>
    have plain : (mark c).quotes = false := by
      cases m : mark c <;> simp_all [Mark.quotes]
    rw [Completes, remove_plain plain]
    exact .plain plain ih
  | case8 c rest quote ih =>
    intro q body opening plain
    rw [remove_closeSingle quote]
    exact .single opening plain quote ih
  | case9 c rest quote ih =>
    intro q body opening plain
    rw [remove_inSingle quote]
    have longer := ih q (body ++ [c]) opening (by
      simpa [or_imp, forall_and] using And.intro plain quote)
    simpa using longer
  | case10 c rest quote ih =>
    intro q body w opening inside
    rw [remove_closeDouble quote]
    exact .double opening inside quote ih
  | case11 c backslash =>
    intro q body w opening inside
    rw [remove_trailingInDouble backslash, append_nil]
    exact .trailingInDouble opening inside backslash
  | case12 c backslash next rest escapable ih =>
    intro q body w opening inside
    rw [remove_backslashInDouble backslash, if_pos escapable]
    simpa using ih q _ _ opening (inside.snoc (.escaped backslash escapable .nil))
  | case13 c backslash next rest escapable newline ih =>
    intro q body w opening inside
    rw [remove_backslashInDouble backslash, if_neg escapable, if_pos newline]
    simpa using ih q _ _ opening (inside.snoc (.continuation backslash newline .nil))
  | case14 c backslash next rest escapable newline ih =>
    intro q body w opening inside
    rw [remove_backslashInDouble backslash, if_neg escapable, if_neg newline]
    have escapable : (mark next).escapable = false := by simpa using escapable
    simpa using ih q _ _ opening (inside.snoc (.literal backslash escapable newline .nil))
  | case15 c rest quote backslash ih =>
    intro q body w opening inside
    rw [remove_inDouble quote backslash]
    simpa using ih q _ _ opening (inside.snoc (.plain quote backslash .nil))

theorem removal_iff {s v : List α} {e : Ending} :
    Removal mark s v e ↔ remove mark .none s = (v, e) := by
  constructor
  · exact Removal.remove_eq
  · intro read
    have all := completes mark .none s
    rw [Completes, read] at all
    exact all

theorem removal_remove (mark : α → Mark) (s : List α) :
    Removal mark s (remove mark .none s).1 (remove mark .none s).2 := completes mark .none s

/-! ## Labels -/

theorem remove_map (mark : α → Mark) (f : β → α) (mode : Mode) (s : List β) :
    remove mark mode (s.map f) =
      ((remove (mark ∘ f) mode s).1.map f, (remove (mark ∘ f) mode s).2) := by
  induction mode, s using remove.induct (mark ∘ f) with
  | case1 mode => simp
  | case2 c rest quote ih =>
    rw [remove_singleQuote quote, map_cons, remove_singleQuote (c := f c) quote, ih]
  | case3 c rest quote ih =>
    rw [remove_doubleQuote quote, map_cons, remove_doubleQuote (c := f c) quote, ih]
  | case4 c backslash =>
    rw [remove_trailing backslash]
    exact remove_trailing (b := f c) backslash
  | case5 c backslash next rest newline ih =>
    rw [remove_backslash backslash, map_cons, map_cons,
      remove_backslash (b := f c) backslash, if_pos newline, ih]
    exact if_pos newline
  | case6 c backslash next rest newline ih =>
    rw [remove_backslash backslash, map_cons, map_cons,
      remove_backslash (b := f c) backslash, if_neg newline, ih]
    exact if_neg newline
  | case7 c rest single double backslash ih =>
    have plain : (mark (f c)).quotes = false := by
      cases m : mark (f c) <;> simp_all [Mark.quotes]
    rw [remove_plain (c := c) plain, map_cons, remove_plain plain, ih]
    rfl
  | case8 c rest quote ih =>
    rw [remove_closeSingle quote, map_cons, remove_closeSingle (c := f c) quote, ih]
  | case9 c rest quote ih =>
    rw [remove_inSingle quote, map_cons, remove_inSingle (c := f c) quote, ih]
    rfl
  | case10 c rest quote ih =>
    rw [remove_closeDouble quote, map_cons, remove_closeDouble (c := f c) quote, ih]
  | case11 c backslash =>
    rw [remove_trailingInDouble backslash]
    exact remove_trailingInDouble (b := f c) backslash
  | case12 c backslash next rest escapable ih =>
    rw [remove_backslashInDouble backslash, map_cons, map_cons,
      remove_backslashInDouble (b := f c) backslash, if_pos escapable, ih]
    exact if_pos escapable
  | case13 c backslash next rest escapable newline ih =>
    rw [remove_backslashInDouble backslash, map_cons, map_cons,
      remove_backslashInDouble (b := f c) backslash, if_neg escapable, if_pos newline, ih]
    exact (if_neg escapable).trans (if_pos newline)
  | case14 c backslash next rest escapable newline ih =>
    rw [remove_backslashInDouble backslash, map_cons, map_cons,
      remove_backslashInDouble (b := f c) backslash, if_neg escapable, if_neg newline, ih]
    exact (if_neg escapable).trans (if_neg newline)
  | case15 c rest quote backslash ih =>
    rw [remove_inDouble quote backslash, map_cons, remove_inDouble (c := f c) quote backslash, ih]
    rfl

/-- Removing only leaves characters out. -/
theorem remove_sublist (mark : α → Mark) (mode : Mode) (s : List α) :
    (remove mark mode s).1.Sublist s := by
  induction mode, s using remove.induct mark with
  | case1 mode => simp
  | case2 c rest quote ih => simpa [remove_singleQuote quote] using ih.cons c
  | case3 c rest quote ih => simpa [remove_doubleQuote quote] using ih.cons c
  | case4 c backslash => simp [remove_trailing backslash]
  | case5 c backslash next rest newline ih =>
    simpa [remove_backslash backslash, newline] using (ih.cons next).cons c
  | case6 c backslash next rest newline ih =>
    simpa [remove_backslash backslash, newline] using (ih.cons_cons next).cons c
  | case7 c rest single double backslash ih =>
    have plain : (mark c).quotes = false := by
      cases m : mark c <;> simp_all [Mark.quotes]
    simpa [remove_plain plain] using ih
  | case8 c rest quote ih => simpa [remove_closeSingle quote] using ih.cons c
  | case9 c rest quote ih => simpa [remove_inSingle quote] using ih
  | case10 c rest quote ih => simpa [remove_closeDouble quote] using ih.cons c
  | case11 c backslash => simp [remove_trailingInDouble backslash]
  | case12 c backslash next rest escapable ih =>
    simpa [remove_backslashInDouble backslash, escapable] using (ih.cons_cons next).cons c
  | case13 c backslash next rest escapable newline ih =>
    simpa [remove_backslashInDouble backslash, newline, Mark.escapable] using (ih.cons next).cons c
  | case14 c backslash next rest escapable newline ih =>
    simpa [remove_backslashInDouble backslash, escapable, newline] using ih
  | case15 c rest quote backslash ih => simpa [remove_inDouble quote backslash] using ih

/-! ## Prefixes -/

/-- Having read `s`, the pass is in `mode` and has kept `v`. -/
def Reached (mark : α → Mark) (s v : List α) (mode : Mode) : Prop :=
  ∀ rest, remove mark .none (s ++ rest) =
    (v ++ (remove mark mode rest).1, (remove mark mode rest).2)

theorem Reached.nil : Reached mark [] [] .none := fun _ => rfl

variable {s v : List α} {mode next : Mode}

theorem Reached.remove_eq (h : Reached mark s v mode) : remove mark .none s = (v, mode.ending) := by
  simpa using h []

theorem Reached.append {t w : List α} (h : Reached mark s v mode)
    (step : ∀ rest, remove mark mode (t ++ rest) =
      (w ++ (remove mark next rest).1, (remove mark next rest).2)) :
    Reached mark (s ++ t) (v ++ w) next := by
  intro rest
  rw [append_assoc, h, step]
  simp

end Agreement

end PadOS.ShellQuoting
