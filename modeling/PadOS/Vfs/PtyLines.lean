import PadOS.Vfs.PtyAccounting
import PadOS.Vfs.PtyFrames

/-! # Canonical reads of a pseudo terminal

Nothing but the bytes in the ring of the slave tells where a line ends. A line is taken here
up to its newline, or up to a `^D`, and a read is compared with the first one in the ring.
-/

namespace PadOS.Vfs.Pty

open Transition RingBuffer List Option

/-- The first finished line; the `^D` that ends one is not part of it. -/
def firstLine : List UInt8 → Option (List UInt8)
  | [] => none
  | byte :: rest =>
    if byte = ctrlD then some []
    else if byte = newLine then some [byte]
    else (firstLine rest).map (byte :: ·)

variable {bytes line rest : List UInt8} {length : Nat}

theorem firstLine_spec (found : firstLine bytes = some line) : ∃ rest, bytes = line ++ rest ∧
    ctrlD ∉ line ∧ (line = [] → rest.head? = some ctrlD) := by
  induction bytes generalizing line with
  | nil => cases found
  | cons byte bytes ih =>
    rw [firstLine] at found
    split at found
    · rename_i mark
      cases found
      exact ⟨byte :: bytes, rfl, nofun, fun _ => congrArg some mark⟩
    · rename_i plain
      split at found
      · cases found
        exact ⟨bytes, rfl, by simpa using Ne.symm plain, nofun⟩
      · obtain ⟨behind, found, same⟩ := map_eq_some_iff.mp found
        obtain ⟨rest, split, clean, _⟩ := ih found
        subst same
        refine ⟨rest, by rw [split]; rfl, ?_, nofun⟩
        rw [mem_cons, not_or]
        exact ⟨Ne.symm plain, clean⟩

theorem firstLine_of_mark (mark : bytes.head? = some ctrlD) : firstLine bytes = some [] := by
  cases bytes with
  | nil => cases mark
  | cons byte rest => exact if_pos (some.inj mark)

theorem firstLine_of_marks (marked : marks bytes ≠ 0) : ∃ line, firstLine bytes = some line := by
  induction bytes with
  | nil => exact absurd rfl marked
  | cons byte bytes ih =>
    rw [firstLine]
    split
    · exact ⟨_, rfl⟩
    · rename_i notMark
      split
      · exact ⟨_, rfl⟩
      · rename_i notLine
        rw [marks_cons, if_neg (not_or.mpr ⟨notMark, notLine⟩)] at marked
        obtain ⟨line, found⟩ := ih marked
        exact ⟨byte :: line, by rw [found]; rfl⟩

/-- The bytes in front of the first `^D` that a buffer of `length` bytes has room for. -/
def copied (bytes : List UInt8) (length : Nat) : List UInt8 :=
  (bytes.take length).takeWhile (· != ctrlD)

theorem copied_line (clean : ctrlD ∉ line) (some' : line ≠ []) (room : length ≠ 0) :
    copied (line ++ rest) length ≠ [] ∧ (copied (line ++ rest) length <+: line ↔
      length ≤ line.length ∨ ∀ byte ∈ rest.head?, byte = ctrlD) := by
  have all : ∀ byte ∈ line, (byte != ctrlD) = true := by
    intro byte member
    rw [bne_iff_ne]
    intro mark
    exact clean (mark ▸ member)
  unfold copied
  rcases Nat.lt_or_ge line.length length with beyond | within
  · rw [take_append, take_of_length_le (Nat.le_of_lt beyond), takeWhile_append_of_pos all]
    refine ⟨by simp [some'], ?_⟩
    constructor
    · intro part
      have short := part.length_le
      rw [length_append] at short
      refine .inr fun byte first => ?_
      cases rest with
      | nil => cases first
      | cons head tail =>
        rw [show length - line.length = length - line.length - 1 + 1 by omega,
          take_succ_cons, takeWhile_cons] at short
        rw [head?_cons, mem_some_iff] at first
        subst first
        by_contra plain
        rw [if_pos (bne_iff_ne.mpr plain), length_cons] at short
        omega
    · rintro (short | ends)
      · omega
      · have none : (rest.take (length - line.length)).takeWhile (· != ctrlD) = [] := by
          cases rest with
          | nil => simp
          | cons head tail =>
            rw [show length - line.length = length - line.length - 1 + 1 by omega, take_succ_cons]
            exact takeWhile_cons_of_neg (by rw [ends head rfl]; decide)
        simp [none]
  · have whole : ((line ++ rest).take length).takeWhile (· != ctrlD) = line.take length := by
      rw [take_append_of_le_length within]
      have part : ((line.take length) ++ []).takeWhile (· != ctrlD) = line.take length ++ [] :=
        takeWhile_append_of_pos fun byte member => all byte (mem_of_mem_take member)
      rwa [append_nil] at part
    rw [whole]
    refine ⟨?_, fun _ => .inl within, fun _ => take_prefix length line⟩
    intro empty
    have count := congrArg List.length empty
    rw [length_take, length_nil] at count
    omega

namespace KPTYInode

variable {bits occupied left : Nat} {n : KPTYInode} {first : Bool}

theorem readLoop_canonical (holds : n.Holds bits occupied) (enough : left ≤ occupied) :
    (readLoop bits true left first n).bytes = copied (n.content bits occupied) left ∧
      ((readLoop bits true left first n).endOfFile = true ↔
        first = true ∧ left ≠ 0 ∧ (n.content bits occupied).head? = some ctrlD) := by
  induction left generalizing n occupied first with
  | zero => exact ⟨rfl, fun ends => absurd ends Bool.false_ne_true, fun ends => absurd rfl ends.2.1⟩
  | succ left ih =>
    cases occupied with
    | zero => omega
    | succ occupied =>
      have popped := holds.pop
      dsimp only at popped
      have later := @ih _ _ false popped.1 (by omega)
      rw [popped.2, copied, take_succ_cons, takeWhile_cons]
      unfold readLoop
      dsimp only
      by_cases mark : n.fileData n.readPos = ctrlD
      · rw [if_pos ⟨mark, rfl⟩, mark]
        cases first with
        | true => exact ⟨rfl, fun _ => ⟨rfl, Nat.succ_ne_zero left, rfl⟩, fun _ => rfl⟩
        | false =>
          exact ⟨rfl, fun ends => absurd ends Bool.false_ne_true,
            fun ends => absurd ends.1 Bool.false_ne_true⟩
      · rw [if_neg fun both => mark both.1, if_pos (bne_iff_ne.mpr mark)]
        refine ⟨congrArg _ later.1, ?_⟩
        constructor
        · intro ends
          exact absurd (later.2.mp ends).1 Bool.false_ne_true
        · intro ends
          exact absurd (some.inj ends.2.2) mark

end KPTYInode

/-! ## The modes of a run -/

/-- The terminal stays canonical and no inode goes to packet mode. -/
def Canonical : Condition State Op
  | _, .setTermios termios => termios.icanon = true
  | _, .setPacketMode on => on = false
  | _, _ => True

/-- No backspace takes back a `^D`. -/
def SparesMarks : Condition State Op
  | s, .advance thread _ =>
    match s.call thread with
    | some (.toSlave _ _ none (byte :: _) _) => ¬s.ErasesMark byte
    | _ => True
  | _, _ => True

/-- A canonical terminal outside of packet mode, whose counters agree with its rings. -/
structure Lined (s : State) : Prop where
  balanced : Balanced s
  icanon : s.termios.icanon = true
  plain : ∀ side, (s.inode side).packetMode = false

namespace Lined

variable {s t : State}

theorem initial : Lined initialState where
  balanced := .initial
  icanon := rfl
  plain := by
    intro side
    cases side with
    | master => rfl
    | slave => rfl

theorem keepsCounts (lined : Lined s) {op : Op} (spares : SparesMarks s op) : KeepsCounts s op := by
  cases op with
  | advance thread interrupted =>
    unfold KeepsCounts
    dsimp only
    split
    · rename_i side length nonblock found
      intro packet
      exact absurd ((lined.plain side).symm.trans packet.1) nofun
    · rename_i found
      simp only [SparesMarks, found] at spares
      exact spares
    · trivial
  | _ => trivial

theorem step (lined : Lined s) {op : Op} (meets : Canonical s op ∧ SparesMarks s op)
    (applies : step s op = some t) : Lined t := by
  have balanced := lined.balanced.step (lined.keepsCounts meets.2) applies
  have same {u : State} (termios : u.termios = s.termios)
      (modes : ∀ side, (u.inode side).packetMode = (s.inode side).packetMode) (kept : Balanced u) :
      Lined u :=
    ⟨kept, by rw [termios]; exact lined.icanon, fun side => (modes side).trans (lined.plain side)⟩
  have begun {thread : Nat} {call : Call} (begins : s.begin thread call = some t) : Lined t := by
    unfold State.begin at begins
    split at begins
    · cases begins
      exact same rfl (fun _ => rfl) balanced
    · cases begins
  cases op with
  | openFile side | closeFile side =>
    cases applies
    refine same rfl (SameFrame.put ?_ ?_ ?_).packetMode balanced <;> rfl
  | setTermios termios =>
    cases applies
    exact ⟨balanced, meets.1, lined.plain⟩
  | setPacketMode on =>
    cases applies
    have off : on = false := meets.1
    refine same rfl (SameFrame.put ?_ ?_ ?_).packetMode balanced
    · exact off.trans (lined.plain .master).symm
    · rfl
    · rfl
  | read | write | writeToMaster | writeToSlave => exact begun applies
  | advance thread interrupted =>
    simp only [Pty.step] at applies
    split at applies
    · cases applies
    · rename_i call found
      cases applies
      have frame := SameFrame.advance s interrupted call
      exact same frame.termios frame.packetMode balanced

theorem reached (run : system.Reaches (fun s op => Canonical s op ∧ SparesMarks s op)
    initialState s) : Lined s :=
  run.invariant Lined initial fun lined meets applies => lined.step meets applies

end Lined

/-! ## Reads -/

namespace State

/-- The bytes in the ring of the slave. -/
def queued (s : State) : List UInt8 :=
  (s.inode .slave).content Side.slave.bits (s.inode .slave).bytesAvailable

/-- What was last read from the slave ended a line. -/
def AtLineStart (s : State) : Prop :=
  ∀ entry ∈ (s.taken .slave).getLast?, entry.1 = newLine ∨ entry.1 = ctrlD

/-- What a read of the slave owes its caller: some of the first finished line, or nothing for a
`^D` at the start of a line, or nothing because the master is closed. -/
inductive LineRead (s t : State) (value : Nat) : Prop
  | line (line bytes : List UInt8) (finished : firstLine s.queued = some line)
      (some' : bytes ≠ []) (part : bytes <+: line) (count : value = bytes.length)
      (unmarked : ctrlD ∉ bytes) (data : t.returned .slave = s.returned .slave ++ bytes)
      (taken : t.taken .slave = s.taken .slave ++ bytes.map fun byte => (byte, false))
  | endOfFile (mark : s.queued.head? = some ctrlD) (start : s.AtLineStart) (none : value = 0)
      (data : t.returned .slave = s.returned .slave)
      (taken : t.taken .slave = s.taken .slave ++ [(ctrlD, true)])
  | hangUp (closed : (s.inode .master).openCount = 0) (unreadable : ¬s.canRead .slave)
      (none : value = 0) (same : t = s)

/-- Every read of `length` bytes that returns is a line read. -/
def ReadsLine (s : State) (length : Nat) : Prop :=
  ∀ nonblock interrupted t value,
    s.read .slave length nonblock interrupted = (t, .returns value) → s.LineRead t value

/-- A `^D` that comes first is at the start of a line, and the buffer has no room beyond the first
line, unless nothing or a `^D` stands behind it. -/
structure LineFits (s : State) (length : Nat) : Prop where
  mark : s.queued.head? = some ctrlD → s.AtLineStart
  line : ∀ line, firstLine s.queued = some line → line ≠ [] →
    length ≤ line.length ∨ ∀ byte ∈ (s.queued.drop line.length).head?, byte = ctrlD

variable {s t : State} {length value : Nat} {nonblock interrupted : Bool}

section

variable (lined : Lined s) (room : length ≠ 0)

include lined room

theorem read_readable (readable : s.canRead .slave)
    (nonblock interrupted : Bool) :
    ∃ t, s.read .slave length nonblock interrupted = (t, .returns (copied s.queued length).length) ∧
      t.returned .slave = s.returned .slave ++ copied s.queued length ∧
      t.taken .slave = s.taken .slave ++ (copied s.queued length).map (fun byte => (byte, false)) ++
        if s.queued.head? = some ctrlD then [(ctrlD, true)] else [] := by
  have ring := (lined.balanced .slave).ring
  have header : (s.inode .slave).header = [] := by simp [KPTYInode.header, lined.plain]
  have needs : s.needNewLine .slave = true := by simp [needNewLine, lined.icanon]
  have size : s.queued.length = (s.inode .slave).bytesAvailable := window_length
  have loop := @KPTYInode.readLoop_canonical _ _ (min length (s.inode .slave).bytesAvailable)
    (s.inode .slave) true ring (Nat.min_le_right _ _)
  have bytes : copied s.queued (min length (s.inode .slave).bytesAvailable) =
      copied s.queued length := by
    unfold copied
    rw [← size, ← take_take, take_length]
  have copies : ((s.inode .slave).copyOut Side.slave.bits true length).bytes =
      copied s.queued length := by
    unfold KPTYInode.copyOut
    rw [header]
    exact loop.1.trans bytes
  have ends : ((s.inode .slave).copyOut Side.slave.bits true length).endOfFile = true ↔
      s.queued.head? = some ctrlD := by
    unfold KPTYInode.copyOut
    rw [header]
    refine loop.2.trans ⟨fun ended => ended.2.2, fun mark => ⟨rfl, ?_, mark⟩⟩
    have some' : s.queued ≠ [] := by
      intro empty
      rw [empty] at mark
      cases mark
    have positive := length_pos_of_ne_nil some'
    omega
  unfold State.read
  rw [if_neg room, if_pos readable]
  simp only [header, needs, copies, length_nil, zero_add, append_nil]
  refine ⟨_, rfl, ?_, ?_⟩
  · dsimp only
    rw [Function.update_self]
  · dsimp only
    rw [Function.update_self, takenBy, copies, append_assoc]
    simp only [ends]

theorem ReadsLine.lineFits (reads : s.ReadsLine length)
    (readable : s.canRead .slave) : s.LineFits length := by
  obtain ⟨t, returns, data, taken⟩ := read_readable lined room readable false false
  cases reads false false t _ returns with
  | line line bytes finished some' part count unmarked dataRead takenRead =>
    have same : copied s.queued length = bytes := append_cancel_left (data.symm.trans dataRead)
    have unmarkedHead : s.queued.head? ≠ some ctrlD := by
      intro mark
      rw [firstLine_of_mark mark, some.injEq] at finished
      rw [← finished, prefix_nil] at part
      exact some' part
    refine ⟨fun mark => absurd mark unmarkedHead, fun other found nonempty => ?_⟩
    rw [finished, some.injEq] at found
    subst found
    obtain ⟨rest, split, clean, _⟩ := firstLine_spec finished
    rw [split, drop_left]
    rw [← same, split] at part
    exact ((copied_line clean nonempty room).2).mp part
  | endOfFile mark start none dataRead takenRead =>
    refine ⟨fun _ => start, fun line found nonempty => ?_⟩
    rw [firstLine_of_mark mark, some.injEq] at found
    exact absurd found.symm nonempty
  | hangUp closed unreadable none same => exact absurd readable unreadable

theorem LineFits.lineRead (readable : s.canRead .slave)
    (fits : s.LineFits length)
    (returns : s.read .slave length nonblock interrupted = (t, .returns value)) :
    s.LineRead t value := by
  obtain ⟨u, same, data, taken⟩ := read_readable lined room readable nonblock interrupted
  rw [returns, Prod.mk.injEq, Progress.returns.injEq] at same
  obtain ⟨rfl, count⟩ := same
  have marked : marks s.queued ≠ 0 := by
    have lines := (lined.balanced .slave).ring.lines
    rcases readable with some' | ⟨plain, _⟩
    · rw [lines] at some'
      exact some'
    · simp [needNewLine, lined.icanon] at plain
  obtain ⟨line, finished⟩ := firstLine_of_marks marked
  obtain ⟨rest, split, clean, empty⟩ := firstLine_spec finished
  by_cases nonempty : line = []
  · subst nonempty
    have mark : s.queued.head? = some ctrlD := by
      rw [split]
      exact empty rfl
    have none : copied s.queued length = [] := by
      cases queue : s.queued with
      | nil => rw [queue] at mark; cases mark
      | cons head tail =>
        rw [queue, head?_cons, some.injEq] at mark
        rw [mark, copied, show length = length - 1 + 1 by omega, take_succ_cons]
        rfl
    rw [none, append_nil] at data
    rw [none, if_pos mark, map_nil, append_nil] at taken
    exact .endOfFile mark (fits.mark mark) (by rw [count, none]; rfl) data taken
  · have bytes := @copied_line _ rest _ clean nonempty room
    have fit := fits.line line finished nonempty
    rw [split, drop_left] at fit
    have part := bytes.2.mpr fit
    rw [← split] at bytes part
    have unmarkedHead : s.queued.head? ≠ some ctrlD := by
      intro mark
      rw [firstLine_of_mark mark, some.injEq] at finished
      exact nonempty finished.symm
    rw [if_neg unmarkedHead, append_nil] at taken
    exact .line line _ finished bytes.1 part count (fun mark => clean (part.subset mark)) data taken

end

end State

/-- In a canonical run that spares the `^D`s, the reads of a length give one finished line exactly
where that fits. -/
theorem reads_line_iff {s : State} {length : Nat}
    (run : system.Reaches (fun s op => Canonical s op ∧ SparesMarks s op) initialState s)
    (room : length ≠ 0) :
    s.ReadsLine length ↔ (s.canRead .slave → s.LineFits length) := by
  have lined := Lined.reached run
  constructor
  · exact fun reads readable => reads.lineFits lined room readable
  · intro fits nonblock interrupted t value returns
    by_cases readable : s.canRead .slave
    · exact (fits readable).lineRead lined room readable returns
    · unfold State.read at returns
      rw [if_neg room, if_neg readable] at returns
      split at returns
      · cases returns
      · split at returns
        · rename_i closed
          cases returns
          exact .hangUp closed readable rfl rfl
        · split at returns
          · cases returns
          · cases returns

theorem lineAndMore_reached : ∃ s, system.Reaches (fun s op => Canonical s op ∧ SparesMarks s op)
    initialState s ∧ s.queued = [0x61, newLine, 0x62] ∧ s.canRead .slave := by
  have begun : system.Reaches (fun s op => Canonical s op ∧ SparesMarks s op) initialState _ :=
    System.Reaches.refl.next (.write 0 .slave [0x61, newLine, 0x62] false) ⟨trivial, trivial⟩ rfl
  exact ⟨_, begun.next (.advance 0 false) ⟨trivial, trivial⟩ rfl, by decide, by decide⟩

theorem reads_line_iff_line : ∃ s : State, s.ReadsLine 2 ∧
    (s.ReadsLine 2 ↔ (s.canRead .slave → s.LineFits 2)) := by
  obtain ⟨s, run, queued, _⟩ := lineAndMore_reached
  have exactly := reads_line_iff run (show 2 ≠ 0 by decide)
  refine ⟨s, exactly.mpr fun _ => ⟨?_, ?_⟩, exactly⟩
  · rw [queued]
    intro mark
    cases mark
  · rw [queued]
    intro line found _
    cases found
    exact .inl (Nat.le_refl 2)

/-- A read with room for more returns the bytes behind the newline, which may still be erased. -/
theorem not_reads_line_always : ¬∀ s, system.Reaches Canonical initialState s →
    ∀ length, length ≠ 0 → s.ReadsLine length := by
  intro always
  obtain ⟨s, run, queued, readable⟩ := lineAndMore_reached
  have reads := always s (run.mono fun _ _ => And.left) 80 (by decide)
  have fits := reads.lineFits (Lined.reached run) (by decide) readable
  have line := fits.line [0x61, newLine] (by rw [queued]; rfl) (by decide)
  rw [queued] at line
  revert line
  decide

end PadOS.Vfs.Pty
