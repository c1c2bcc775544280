import Mathlib.Algebra.Group.Nat.Even
import PadOS.Core.StreamParser
import PadOS.SerialConsole.PacketReader

/-!
# Noise that the search for the magic passes over

The search drops a first magic byte together with the byte behind it. Noise is passed over when
that never takes the first byte of a packet, and when no 16 bytes in a row are all dropped at once.
-/

namespace PadOS.SerialConsole

open ByteStream List

/-- How many first bytes of the magic stand at the end. -/
def magicTail (noise : List UInt8) : Nat := (noise.reverse.takeWhile (· == MAGIC1)).length

/-- The search drops these bytes to the last, and none behind them. -/
def Aligned (noise : List UInt8) : Prop := Even (magicTail noise)

instance (noise : List UInt8) : Decidable (Aligned noise) :=
  inferInstanceAs (Decidable (Even (magicTail noise)))

/-- One byte of the search: whether the byte behind it is looked at as a first one. -/
def searches (first : Bool) (byte : UInt8) : Bool := !first || byte != MAGIC1

theorem aligned_iff (noise : List UInt8) : Aligned noise ↔ noise.foldl searches true = true := by
  induction noise using List.reverseRecOn with
  | nil => exact ⟨fun _ => rfl, fun _ => Nat.even_iff.mpr rfl⟩
  | append_singleton noise byte ih =>
    rw [foldl_append]
    show Aligned _ ↔ searches (noise.foldl searches true) byte = true
    unfold Aligned magicTail at ih ⊢
    rw [reverse_append, reverse_singleton, singleton_append, takeWhile_cons]
    by_cases magic : byte = MAGIC1
    · subst magic
      simp only [BEq.rfl, if_true, length_cons, Nat.even_add_one, ih, searches, bne_self_eq_false,
        Bool.or_false, Bool.not_eq_true, Bool.not_eq_true']
    · simp [magic, searches]

theorem aligned_cons {byte : UInt8} (other : byte ≠ MAGIC1) (rest : List UInt8) :
    Aligned (byte :: rest) ↔ Aligned rest := by
  have next : searches true byte = true := by simp [searches, other]
  rw [aligned_iff, aligned_iff, foldl_cons, next]

theorem aligned_pair (byte : UInt8) (rest : List UInt8) :
    Aligned (MAGIC1 :: byte :: rest) ↔ Aligned rest := by
  rw [aligned_iff, aligned_iff]
  rfl

/-- No 16 bytes in a row without a first magic byte, which the search would drop in one go. -/
def ShortRuns (noise : List UInt8) : Prop :=
  ∀ before run behind, noise = before ++ run ++ behind → Aligned before →
    run.length = headerSize → MAGIC1 ∈ run

/-- Noise that the search passes over, whatever reads bring it, and whether or not it is followed
by packets. -/
structure Passable (followed : Prop) (noise : List UInt8) : Prop where
  clean : ¬ [MAGIC1, MAGIC2] <:+: noise
  aligned : followed → Aligned noise
  short : ShortRuns noise

namespace Passable

variable {followed : Prop} {byte : UInt8} {noise rest : List UInt8}

theorem nil : Passable followed [] where
  clean := by decide
  aligned _ := by decide
  short before run behind parts _ long := by
    have lengths := congrArg List.length parts
    simp [headerSize] at lengths long
    omega

theorem tail (passable : Passable followed (byte :: rest)) (other : byte ≠ MAGIC1) :
    Passable followed rest where
  clean := (not_pair_cons passable.clean).1
  aligned follows := (aligned_cons other rest).mp (passable.aligned follows)
  short before run behind parts aligned long :=
    passable.short (byte :: before) run behind (by rw [parts]; rfl)
      ((aligned_cons other before).mpr aligned) long

theorem pair (passable : Passable followed (MAGIC1 :: rest)) :
    (¬ followed ∧ rest = []) ∨
      ∃ byte behind, rest = byte :: behind ∧ byte ≠ MAGIC2 ∧ Passable followed behind := by
  cases rest with
  | nil =>
    apply Or.inl
    constructor
    · intro follows
      exact absurd (passable.aligned follows) (by decide)
    · rfl
  | cons byte behind =>
    apply Or.inr
    have apart := not_pair_cons passable.clean
    refine ⟨byte, behind, rfl, ?_, ?_, ?_, ?_⟩
    · intro magic
      exact apart.2 rfl (by rw [magic]; rfl)
    · exact (not_pair_cons apart.1).1
    · intro follows
      exact (aligned_pair byte behind).mp (passable.aligned follows)
    · intro before run after parts aligned long
      exact passable.short (MAGIC1 :: byte :: before) run after (by rw [parts]; rfl)
        ((aligned_pair byte before).mpr aligned) long

theorem mem_of_long (passable : Passable followed (noise ++ rest))
    (long : noise.length = headerSize) : MAGIC1 ∈ noise :=
  passable.short [] noise rest rfl (by decide) long

end Passable

end PadOS.SerialConsole
