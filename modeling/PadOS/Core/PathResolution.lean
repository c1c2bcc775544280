import Mathlib.Data.List.Basic
import Mathlib.Tactic.Common

/-!
# Resolving paths

A path is a separator followed by components with separators between them. Resolving takes the
components from left to right: an empty one and a single dot say nothing, two dots take away the
last component that was kept, and do nothing at the root.
-/

namespace PadOS.PathResolution

open List

variable {α : Type*}

/-- The components of what stands behind the first separator. -/
def components [DecidableEq α] (separator : α) (text : List α) : List (List α) :=
  text.splitOn separator

def joined (separator : α) (parts : List (List α)) : List α := [separator].intercalate parts

/-- The path of the components. -/
def render (separator : α) (kept : List (List α)) : List α := separator :: joined separator kept

def resolveStep [DecidableEq α] (dot : α) (kept : List (List α)) (part : List α) : List (List α) :=
  if part = [] ∨ part = [dot] then kept
  else if part = [dot, dot] then kept.dropLast
  else kept ++ [part]

def resolve [DecidableEq α] (dot : α) (parts : List (List α)) : List (List α) :=
  parts.foldl (resolveStep dot) []

/-- A component that stands for itself. -/
structure IsName (separator dot : α) (part : List α) : Prop where
  nonempty : part ≠ []
  notDot : part ≠ [dot]
  notDots : part ≠ [dot, dot]
  whole : separator ∉ part

/-- Where the last component of the path begins; behind the separator when there is none. -/
def lastStart (separator : α) (kept : List (List α)) : Nat :=
  (render separator kept).length - (kept.getLastD []).length

/-! ## Components -/

variable {separator dot : α} {parts kept : List (List α)} {part : List α}

@[simp] theorem joined_nil : joined separator ([] : List (List α)) = [] := rfl

@[simp] theorem joined_singleton (part : List α) : joined separator [part] = part := by
  simp [joined, List.intercalate]

theorem joined_cons (part : List α) (some' : parts ≠ []) :
    joined separator (part :: parts) = part ++ separator :: joined separator parts := by
  cases parts with
  | nil => exact absurd rfl some'
  | cons next rest => simp [joined, List.intercalate]

/-! ## The path of the components so far -/

/-- The path of some components with a separator behind the last one, as it stands before the
next one. -/
def entered (separator : α) (kept : List (List α)) : List α :=
  separator :: kept.flatMap (· ++ [separator])

@[simp] theorem entered_nil : entered separator [] = [separator] := rfl

section

variable (kept : List (List α))

theorem entered_append (part : List α) :
    entered separator (kept ++ [part]) = entered separator kept ++ part ++ [separator] := by
  simp [entered]

theorem entered_length_pos : 0 < (entered separator kept).length := by
  simp [entered]

theorem render_append (part : List α) :
    render separator (kept ++ [part]) = entered separator kept ++ part := by
  induction kept with
  | nil => simp [render, entered]
  | cons first rest ih =>
    simp only [render, entered, cons_append, cons.injEq, true_and] at ih ⊢
    rw [joined_cons first (by simp), ih]
    simp

theorem lastStart_append (part : List α) :
    lastStart separator (kept ++ [part]) = (entered separator kept).length := by
  rw [lastStart, render_append]
  simp

end

@[simp] theorem lastStart_nil : lastStart separator ([] : List (List α)) = 1 := rfl

theorem entered_last (kept : List (List α)) :
    (entered separator kept)[(entered separator kept).length - 1]? = some separator := by
  rcases eq_nil_or_concat' kept with rfl | ⟨init, part, rfl⟩
  · rfl
  · rw [entered_append]
    simp

/-! ## Taking a path apart -/

section Equality

variable [DecidableEq α]

theorem not_mem_components (text : List α) :
    ∀ part ∈ components separator text, separator ∉ part := by
  unfold components
  induction text with
  | nil => simp
  | cons c text ih =>
    rw [splitOn_cons_eq_if_modifyHead]
    split_ifs with isSeparator
    · simpa using ih
    · have other : separator ≠ c := by
        intro same
        simp [same] at isSeparator
      cases tail : text.splitOn separator with
      | nil => simp
      | cons first rest =>
        rw [tail] at ih
        simp only [modifyHead_cons, mem_cons, forall_eq_or_imp, not_or] at ih ⊢
        exact ⟨⟨other, ih.1⟩, ih.2⟩

theorem joined_components (text : List α) : joined separator (components separator text) = text :=
  intercalate_splitOn separator

theorem components_joined (whole : ∀ part ∈ parts, separator ∉ part) (some' : parts ≠ []) :
    components separator (joined separator parts) = parts :=
  splitOn_intercalate separator whole some'

/-! ## Resolving -/

theorem resolveStep_name (name : IsName separator dot part) :
    resolveStep dot kept part = kept ++ [part] := by
  simp [resolveStep, name.nonempty, name.notDot, name.notDots]

theorem resolveStep_isName (names : ∀ part ∈ kept, IsName separator dot part)
    (whole : separator ∉ part) : ∀ name ∈ resolveStep dot kept part, IsName separator dot name := by
  intro name member
  unfold resolveStep at member
  split_ifs at member with nothing dots
  · exact names name member
  · exact names name ((dropLast_sublist kept).subset member)
  · rcases mem_append.1 member with old | new
    · exact names name old
    · rw [mem_singleton.1 new]
      simp only [not_or] at nothing
      exact ⟨nothing.1, nothing.2, dots, whole⟩

theorem foldl_isName (names : ∀ part ∈ kept, IsName separator dot part)
    (whole : ∀ part ∈ parts, separator ∉ part) :
    ∀ name ∈ parts.foldl (resolveStep dot) kept, IsName separator dot name := by
  induction parts generalizing kept with
  | nil => exact names
  | cons part rest ih =>
    exact ih (resolveStep_isName names (whole part mem_cons_self))
      fun other member => whole other (mem_cons_of_mem part member)

theorem resolve_isName (text : List α) :
    ∀ name ∈ resolve dot (components separator text), IsName separator dot name :=
  foldl_isName (by simp) (not_mem_components text)

theorem foldl_names (names : ∀ part ∈ parts, IsName separator dot part) :
    parts.foldl (resolveStep dot) kept = kept ++ parts := by
  induction parts generalizing kept with
  | nil => simp
  | cons part rest ih =>
    rw [foldl_cons, resolveStep_name (names part mem_cons_self),
      ih fun other member => names other (mem_cons_of_mem part member)]
    simp

theorem resolve_names (names : ∀ part ∈ parts, IsName separator dot part) :
    resolve dot parts = parts := by
  rw [resolve, foldl_names names, nil_append]

end Equality

end PadOS.PathResolution
