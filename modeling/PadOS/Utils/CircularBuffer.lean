import PadOS.Core.RingBuffer

/-! # `PCircularBuffer`

The positions run on and are masked when the array is accessed; they wrap around as a
`size_t`. A write that does not fit moves the read position. Seen from outside the buffer is a
queue that drops its oldest elements.
-/

namespace PadOS.Utils

open RingBuffer List Nat

/-- A capacity that is a power of two and the width of the `size_t` that represents it. -/
structure QueueSize where
  bits : Nat
  width : Nat
  representable : bits < width

namespace QueueSize

variable (size : QueueSize)

def capacity : Nat := 2 ^ size.bits

def modulus : Nat := 2 ^ size.width

/-- `a - b` as a `size_t`. -/
def sub (a b : Nat) : Nat := (a + (size.modulus - b)) % size.modulus

/-- `a + b` as a `size_t`. -/
def add (a b : Nat) : Nat := (a + b) % size.modulus

end QueueSize

structure PCircularBuffer (α : Type) where
  queue : Nat → α
  queueInPos : Nat := 0
  queueOutPos : Nat := 0

variable {α : Type} {size : QueueSize} {b : PCircularBuffer α} {data queued : List α}
  {n length : Nat}

namespace PCircularBuffer

section

variable (size : QueueSize)

def getLength (b : PCircularBuffer α) : Nat :=
  size.sub b.queueInPos b.queueOutPos

def mask (position : Nat) : Nat := position &&& (size.capacity - 1)

/-- `WriteElements` into the array, split at its end. -/
def store (queue : Nat → α) (maskedInPos : Nat) (data : List α) : Nat → α :=
  let postSpace := size.capacity - maskedInPos
  if postSpace ≥ data.length then memcpy queue maskedInPos data
  else memcpy (memcpy queue maskedInPos (data.take postSpace)) 0 (data.drop postSpace)

def write (b : PCircularBuffer α) (data : List α) : Nat × PCircularBuffer α :=
  let data := if data.length > size.capacity then data.drop (data.length - size.capacity) else data
  let freeSpace := size.sub size.capacity (b.getLength size)
  let queueOutPos :=
    if data.length > freeSpace then size.add b.queueOutPos (data.length - freeSpace)
      else b.queueOutPos
  (data.length,
    { queue := store size b.queue (mask size b.queueInPos) data
      queueInPos := size.add b.queueInPos data.length
      queueOutPos })

/-- `WriteElements` out of the array, split at its end. -/
def load (queue : Nat → α) (maskedOutPos length : Nat) : List α :=
  let postSpace := size.capacity - maskedOutPos
  let elements (start count : Nat) := (List.range count).map fun i => queue (start + i)
  if postSpace ≥ length then elements maskedOutPos length
  else elements maskedOutPos postSpace ++ elements 0 (length - postSpace)

def read (b : PCircularBuffer α) (length : Nat) : List α × PCircularBuffer α :=
  let curLength := b.getLength size
  let length := if length > curLength then curLength else length
  (load size b.queue (mask size b.queueOutPos) length,
    { b with queueOutPos := size.add b.queueOutPos length })

end

end PCircularBuffer

/-! ## Positions -/

namespace QueueSize

theorem capacity_pos : 0 < size.capacity := Nat.two_pow_pos _

theorem capacity_lt : size.capacity < size.modulus :=
  Nat.pow_lt_pow_right (by decide) size.representable

theorem capacity_dvd : size.capacity ∣ size.modulus := pow_dvd_pow 2 size.representable.le

theorem modulus_pos : 0 < size.modulus := Nat.two_pow_pos _

theorem add_lt (a b : Nat) : size.add a b < size.modulus := mod_lt _ modulus_pos

theorem sub_of_le {a b : Nat} (below : b ≤ a) (inside : a < size.modulus) :
    size.sub a b = a - b := by
  have turned : a + (size.modulus - b) = a - b + size.modulus := by omega
  rw [sub, turned, add_mod_right, mod_eq_of_lt (by omega)]

theorem sub_add {out : Nat} (inside : out < size.modulus) (near : n < size.modulus) :
    size.sub (size.add out n) out = n := by
  unfold sub add
  have turned : out + n + (size.modulus - out) = n + size.modulus := by omega
  rw [mod_add_mod, turned, add_mod_right, mod_eq_of_lt near]

theorem add_add (out m n : Nat) : size.add (size.add out m) n = size.add out (m + n) := by
  unfold add
  rw [mod_add_mod, add_assoc]

theorem add_mod_capacity (out n : Nat) :
    size.add out n % size.capacity = (out + n) % size.capacity :=
  mod_mod_of_dvd _ capacity_dvd

end QueueSize

/-! ## What the buffer holds -/

namespace PCircularBuffer

/-- The buffer holds a queue: behind the read position are its elements, up to the write
position. -/
structure Holds (size : QueueSize) (b : PCircularBuffer α) (queued : List α) : Prop where
  inside : b.queueOutPos < size.modulus
  closes : b.queueInPos = size.add b.queueOutPos queued.length
  fits : queued.length ≤ size.capacity
  elements : window size.capacity b.queue b.queueOutPos queued.length = queued

theorem mask_eq (position : Nat) : mask size position = position % size.capacity :=
  and_mask position size.bits

theorem mask_lt (position : Nat) : mask size position < size.capacity := by
  rw [mask_eq]
  exact mod_lt _ QueueSize.capacity_pos

theorem window_out (queue : Nat → α) (position start n : Nat)
    (same : position % size.capacity = start % size.capacity) :
    window size.capacity queue position n = window size.capacity queue start n := by
  rw [← window_mod, same, window_mod]

theorem Holds.getLength (holds : b.Holds size queued) : b.getLength size = queued.length := by
  have near : queued.length < size.modulus := lt_of_le_of_lt holds.fits QueueSize.capacity_lt
  unfold PCircularBuffer.getLength
  rw [holds.closes, QueueSize.sub_add holds.inside near]

theorem window_store {queue : Nat → α} {start : Nat} (closes : mask size (start + n) = length)
    (room : n + data.length ≤ size.capacity) :
    window size.capacity (store size queue length data) start (n + data.length) =
      window size.capacity queue start n ++ data := by
  have here : length = (start + n) % size.capacity := by rw [← closes, mask_eq]
  have inside : length < size.capacity := closes ▸ mask_lt _
  unfold store
  dsimp only
  split
  · rename_i straight
    exact window_memcpy here (by omega) room
  · rename_i turns
    generalize postSpace : size.capacity - length = post at *
    have taken : (data.take post).length = post := by rw [length_take]; omega
    have first : window size.capacity (memcpy queue length (data.take post)) start
        (n + (data.take post).length) = window size.capacity queue start n ++ data.take post :=
      window_memcpy here (by omega) (by omega)
    have zero : 0 = (start + (n + (data.take post).length)) % size.capacity := by
      have turned : (length + post) % size.capacity = 0 := by
        rw [show length + post = size.capacity by omega, mod_self]
      rw [taken, ← add_assoc, add_mod, ← here, add_mod_mod, turned]
    have dropped : (data.take post).length + (data.drop post).length = data.length := by
      rw [taken, length_drop]
      omega
    have second : window size.capacity (memcpy (memcpy queue length (data.take post)) 0
        (data.drop post)) start (n + (data.take post).length + (data.drop post).length) =
        window size.capacity (memcpy queue length (data.take post)) start
          (n + (data.take post).length) ++ data.drop post :=
      window_memcpy zero (by omega) (by omega)
    rw [first, add_assoc, dropped, append_assoc, take_append_drop] at second
    exact second

theorem load_eq {queue : Nat → α} {start : Nat} (fits : n ≤ size.capacity) :
    load size queue (mask size start) n = window size.capacity queue start n := by
  have inside : mask size start < size.capacity := mask_lt start
  have same : window size.capacity queue start n =
      window size.capacity queue (mask size start) n := by
    rw [mask_eq, window_mod]
  rw [same]
  unfold load
  dsimp only
  split
  · exact (window_straight (by omega)).symm
  · rename_i turns
    generalize postSpace : size.capacity - mask size start = post at *
    have whole : n = post + (n - post) := by omega
    conv => rhs; rw [whole, window_add]
    rw [window_straight (by omega), show mask size start + post = size.capacity by omega,
      ← window_mod,
      mod_self, window_straight (by omega)]

theorem Holds.drop (holds : b.Holds size queued) (n : Nat) (within : n ≤ queued.length) :
    Holds size { b with queueOutPos := size.add b.queueOutPos n } (queued.drop n) := by
  have left : (queued.drop n).length = queued.length - n := length_drop
  have whole : n + (queued.length - n) = queued.length := by omega
  constructor
  · exact QueueSize.add_lt _ _
  · rw [left, QueueSize.add_add, whole]
    exact holds.closes
  · have fits := holds.fits
    omega
  · have split : window size.capacity b.queue b.queueOutPos n ++
        window size.capacity b.queue (b.queueOutPos + n) (queued.length - n) = queued := by
      rw [← window_add, whole]
      exact holds.elements
    have behind : (window size.capacity b.queue b.queueOutPos n ++
        window size.capacity b.queue (b.queueOutPos + n) (queued.length - n)).drop n =
          window size.capacity b.queue (b.queueOutPos + n) (queued.length - n) :=
      drop_left' window_length
    rw [split] at behind
    rw [left, behind]
    exact window_out _ _ _ _ (QueueSize.add_mod_capacity _ _)

theorem Holds.store (holds : b.Holds size queued) (data : List α)
    (room : queued.length + data.length ≤ size.capacity) :
    Holds size { b with
        queue := PCircularBuffer.store size b.queue (mask size b.queueInPos) data
        queueInPos := size.add b.queueInPos data.length } (queued ++ data) := by
  have length : (queued ++ data).length = queued.length + data.length := length_append
  constructor
  · exact holds.inside
  · rw [length, ← QueueSize.add_add]
    exact congrArg (size.add · data.length) holds.closes
  · omega
  · have closes : mask size (b.queueOutPos + queued.length) = mask size b.queueInPos := by
      rw [mask_eq, mask_eq, holds.closes, QueueSize.add_mod_capacity]
    rw [length]
    exact (window_store closes room).trans (congrArg (· ++ data) holds.elements)

/-! ## The queue -/

/-- The last elements, as many as fit. -/
def newest (capacity : Nat) (queued : List α) : List α := queued.drop (queued.length - capacity)

theorem newest_of_le {capacity : Nat} (fits : queued.length ≤ capacity) :
    newest capacity queued = queued := by
  rw [newest, Nat.sub_eq_zero_of_le fits, drop_zero]

theorem newest_append {capacity : Nat} : newest capacity (queued ++ newest capacity data) =
    newest capacity (queued ++ data) := by
  unfold newest
  rw [length_append, length_append, length_drop]
  by_cases fits : data.length ≤ capacity
  · rw [Nat.sub_eq_zero_of_le fits, drop_zero, Nat.sub_zero]
  · have kept : queued.length + (data.length - (data.length - capacity)) - capacity =
        queued.length := by omega
    have behind : queued.length + data.length - capacity =
        queued.length + (data.length - capacity) := by omega
    rw [kept, behind, drop_left, drop_length_add_append]

theorem Holds.write (holds : b.Holds size queued) (data : List α) :
    (b.write size data).1 = min data.length size.capacity ∧
    (b.write size data).2.Holds size (newest size.capacity (queued ++ data)) := by
  have shortened :
      (if data.length > size.capacity then data.drop (data.length - size.capacity) else data) =
      newest size.capacity data := by
    split
    · rfl
    · rw [newest_of_le (by omega)]
  have short : (newest size.capacity data).length = min data.length size.capacity := by
    rw [newest, length_drop]
    omega
  have free : size.sub size.capacity (b.getLength size) = size.capacity - queued.length := by
    rw [holds.getLength, QueueSize.sub_of_le holds.fits QueueSize.capacity_lt]
  have fits := holds.fits
  unfold PCircularBuffer.write
  dsimp only
  rw [shortened, free, ← newest_append]
  generalize newest size.capacity data = data' at short
  refine ⟨short, ?_⟩
  split
  · rename_i full
    -- the queue that is left after the oldest elements have been dropped has room for the data
    have dropped := holds.drop (data'.length - (size.capacity - queued.length)) (by omega)
    have stored := dropped.store data' (by rw [length_drop]; omega)
    have kept : newest size.capacity (queued ++ data') =
        queued.drop (data'.length - (size.capacity - queued.length)) ++ data' := by
      rw [newest, length_append, ← drop_append_of_le_length (by omega)]
      congr 1
      omega
    rw [kept]
    exact stored
  · rename_i room
    rw [newest_of_le (by rw [length_append]; omega)]
    exact holds.store _ (by omega)

theorem Holds.read (holds : b.Holds size queued) (length : Nat) :
    (b.read size length).1 = queued.take length ∧
    (b.read size length).2.Holds size (queued.drop length) := by
  have fits := holds.fits
  have taken : (if length > b.getLength size then b.getLength size else length) =
      min length queued.length := by
    rw [holds.getLength]
    split <;> omega
  unfold PCircularBuffer.read
  dsimp only
  rw [taken]
  constructor
  · have first : (window size.capacity b.queue b.queueOutPos queued.length).take
        (min length queued.length) =
        window size.capacity b.queue b.queueOutPos (min length queued.length) := by
      have whole : queued.length = min length queued.length +
          (queued.length - min length queued.length) := by omega
      conv => lhs; arg 2; rw [whole, window_add]
      exact take_left' window_length
    rw [load_eq (by omega), ← first, holds.elements]
    by_cases short : length ≤ queued.length
    · rw [min_eq_left short]
    · rw [min_eq_right (by omega), take_of_length_le (le_refl _),
        take_of_length_le (by omega)]
  · have behind : queued.drop length = queued.drop (min length queued.length) := by
      by_cases short : length ≤ queued.length
      · rw [min_eq_left short]
      · rw [min_eq_right (by omega), drop_eq_nil_of_le (by omega), drop_eq_nil_of_le (by omega)]
    rw [behind]
    exact holds.drop _ (by omega)

end PCircularBuffer

/-! ## Any calls -/

inductive BufferCall (α : Type)
  | write (data : List α)
  | read (length : Nat)

/-- What a call returns, and the length of the buffer after it. -/
structure BufferReturn (α : Type) where
  written : Nat
  elements : List α
  length : Nat

namespace PCircularBuffer

/-- The calls one after the other. -/
def run (size : QueueSize) : PCircularBuffer α → List (BufferCall α) → List (BufferReturn α)
  | _, [] => []
  | b, .write data :: calls =>
    let (written, b) := b.write size data
    ⟨written, [], b.getLength size⟩ :: run size b calls
  | b, .read length :: calls =>
    let (elements, b) := b.read size length
    ⟨0, elements, b.getLength size⟩ :: run size b calls

/-- The calls on a queue that drops its oldest elements. -/
def runQueue (capacity : Nat) : List α → List (BufferCall α) → List (BufferReturn α)
  | _, [] => []
  | queued, .write data :: calls =>
    let queued := newest capacity (queued ++ data)
    ⟨min data.length capacity, [], queued.length⟩ :: runQueue capacity queued calls
  | queued, .read length :: calls =>
    ⟨0, queued.take length, (queued.drop length).length⟩ ::
      runQueue capacity (queued.drop length) calls

theorem Holds.run (holds : b.Holds size queued) (calls : List (BufferCall α)) :
    PCircularBuffer.run size b calls = runQueue size.capacity queued calls ∧
      ∀ r ∈ PCircularBuffer.run size b calls, r.length ≤ size.capacity := by
  induction calls generalizing b queued with
  | nil => exact ⟨rfl, by simp [PCircularBuffer.run]⟩
  | cons call calls ih =>
    cases call with
    | write data =>
      obtain ⟨written, holds'⟩ := holds.write data
      obtain ⟨same, within⟩ := ih holds'
      constructor
      · simp only [PCircularBuffer.run, runQueue, written, holds'.getLength, same]
      · intro r member
        rcases mem_cons.1 member with rfl | member
        · exact holds'.getLength.trans_le holds'.fits
        · exact within r member
    | read length =>
      obtain ⟨elements, holds'⟩ := holds.read length
      obtain ⟨same, within⟩ := ih holds'
      constructor
      · simp only [PCircularBuffer.run, runQueue, elements, holds'.getLength, same]
      · intro r member
        rcases mem_cons.1 member with rfl | member
        · exact holds'.getLength.trans_le holds'.fits
        · exact within r member

/-- What calls return on a new buffer, whatever its array contains, is what they return on the
queue; its length stays within the capacity. -/
theorem keeps_newest (size : QueueSize) (queue : Nat → α) (calls : List (BufferCall α)) :
    run size { queue } calls = runQueue size.capacity [] calls ∧
      ∀ r ∈ run size { queue } calls, r.length ≤ size.capacity := by
  have start : Holds size { queue } ([] : List α) := by
    refine ⟨QueueSize.modulus_pos, ?_, zero_le _, rfl⟩
    exact (zero_mod _).symm
  exact start.run calls

end PCircularBuffer

end PadOS.Utils
