import Mathlib.Data.Nat.Bitwise
import Mathlib.Tactic.Common

/-! # Little-endian numbers -/

namespace PadOS.ByteOrder

def littleEndian : List UInt8 → Nat
  | [] => 0
  | byte :: rest => byte.toNat + 2 ^ 8 * littleEndian rest

def toBytes : Nat → Nat → List UInt8
  | 0, _ => []
  | length + 1, number => .ofNat number :: toBytes length (number / 2 ^ 8)

@[simp] theorem length_toBytes (length number : Nat) : (toBytes length number).length = length := by
  induction length generalizing number with
  | zero => rfl
  | succ length ih => rw [toBytes, List.length_cons, ih]

theorem littleEndian_toBytes (length number : Nat) :
    littleEndian (toBytes length number) = number % 2 ^ (8 * length) := by
  induction length generalizing number with
  | zero => simp [toBytes, littleEndian, Nat.mod_one]
  | succ length ih =>
    rw [toBytes, littleEndian, ih, UInt8.toNat_ofNat', Nat.mul_succ, add_comm (8 * length),
      Nat.pow_add, Nat.mod_mul]

theorem testBit_littleEndian (bytes : List UInt8) (index : Nat) :
    (littleEndian bytes).testBit index =
      ((bytes[index / 8]?.map UInt8.toNat).getD 0).testBit (index % 8) := by
  induction bytes generalizing index with
  | nil => simp [littleEndian]
  | cons byte rest ih =>
    rw [littleEndian, add_comm, Nat.testBit_two_pow_mul_add _ byte.toNat_lt]
    split
    · rename_i low
      rw [Nat.div_eq_of_lt low, Nat.mod_eq_of_lt low]
      rfl
    · rename_i high
      have behind : index / 8 = (index - 8) / 8 + 1 := by omega
      have place : index % 8 = (index - 8) % 8 := by omega
      rw [ih, behind, place]
      rfl

end PadOS.ByteOrder
