import Dwframe.ByteArray.Cursor
import Dwframe.ByteArray.Positioned
import Mathlib.Algebra.Group.Int.Defs

/-!
# To a file and back

`writeToFile` goes over the blocks from the cursor on. What it writes of a block is the smaller of
the block size and the rest, less the offset of the cursor in its block: the subtraction is meant
for the block, and it also hits a rest that is smaller than a block. Such a rest is never written
out, the loop runs off the chain. The offset is kept in an `int`, the sizes are taken to fit their
64 bits. `readFromFile` reads a block at a time up to the end of the file.
-/
namespace Dwframe.ByteArray

open Lib

/-- The value of `v` in an `int`. -/
def toInt (v : Nat) : Int :=
  if v % 2 ^ 32 < 2 ^ 31 then (v % 2 ^ 32 : Nat) else (v % 2 ^ 32 : Nat) - 2 ^ 32

/-- `ofs.write(ptr + diff, len)`; a count below zero is no call of `write`. -/
def putOut (node : Node) (diff len : Int) : Except Fault (List UInt8) :=
  if 0 ≤ diff ∧ 0 ≤ len ∧ diff + len ≤ node.size then
    .ok (window node.ptr diff.toNat len.toNat)
  else .error .overrun

/-- The loop of `writeToFile` over the nodes from `cur` on: what goes to the file. -/
def fileLoop (base : Nat) : List Node → Int → Int → Except Fault (List UInt8)
  | [], _, read_size => if read_size > 0 then .error .nullNode else .ok []
  | cur :: rest, pos, read_size =>
    if read_size > 0 then do
      let diff := toInt (pos.toNat % base)
      -- the offset is taken off the rest as well
      let len := (if read_size > base then (base : Int) else read_size) - diff
      let bytes ← putOut cur diff len
      let more ← fileLoop base rest (pos + len) (read_size - len)
      .ok (bytes ++ more)
    else .ok []

/-- `writeToFile`: the file, or nothing where it cannot be opened and `false` is returned. -/
def writeToFile (s : ByteArray) (opened : Bool) : Except Fault (Option (List UInt8)) :=
  if !opened then .ok none
  else
    let nodes :=
      match s.cur with
      | none => []
      | some i => s.nodes.drop i
    (fileLoop s.baseSize nodes s.position s.getReadSize).map some

/-- The loop of `readFromFile` with what is left of the file: a short read meets its end. It is
`none` when the end is not met in that many turns. -/
def load (base : Nat) : Nat → List UInt8 → M (Option Bool)
  | 0, _ => return none
  | turns + 1, file => do
    write (file.take base)
    if file.length < base then return some true else load base turns (file.drop base)

/-- `readFromFile`, where the file can be opened if there is one. -/
def readFromFile (turns : Nat) (file : Option (List UInt8)) : M (Option Bool) := fun s =>
  match file with
  | none => .ok (some false) s
  | some file => load s.baseSize turns file s

/-- The unread bytes go to the file, and from it into an array of any block size. -/
def FileRoundTrips (s : ByteArray) : Prop :=
  ∃ file, s.writeToFile true = .ok (some file) ∧ s.toString = .ok file ∧
    ∀ heap base, 1 ≤ base → ∃ enough, ∀ turns, enough ≤ turns → ∃ s',
      readFromFile turns (some file) (create heap base) = .ok (some true) s' ∧ s'.contents = file

/-! ### From the file -/

theorem load_wrote {s : ByteArray} (wf : WellFormed s) (turns : Nat) (file : List UInt8)
    (enough : file.length / s.baseSize < turns) :
    ∃ s', load s.baseSize turns file s = .ok (some true) s' ∧ Wrote file s s' := by
  induction turns generalizing s file with
  | zero => exact absurd enough (Nat.not_lt_zero _)
  | succ turns ih =>
    obtain ⟨mid, ran, wrote⟩ := write_wrote wf (file.take s.baseSize)
    rw [load, bind_apply, ran]
    simp only
    split
    next short =>
      rw [List.take_of_length_le (Nat.le_of_lt short)] at wrote
      exact ⟨mid, rfl, wrote⟩
    next whole =>
      have split_length : file.length = (file.drop s.baseSize).length + s.baseSize := by
        rw [List.length_drop, Nat.sub_add_cancel (Nat.le_of_not_lt whole)]
      rw [split_length, Nat.add_div_right _ wf.positive] at enough
      rw [← wrote.baseSize] at enough ⊢
      obtain ⟨s', ran', wrote'⟩ := ih wrote.wellFormed (file.drop mid.baseSize) (by omega)
      refine ⟨s', ran', ?_⟩
      have both := Wrote.append wf wrote wrote'
      rwa [wrote.baseSize, List.take_append_drop] at both

/-- `readFromFile` into a fresh array ends, with the bytes of the file. -/
theorem readFromFile_create (file : List UInt8) (heap : Nat → Nat → UInt8) {base : Nat}
    (positive : 1 ≤ base) :
    ∃ enough, ∀ turns, enough ≤ turns → ∃ s',
      readFromFile turns (some file) (create heap base) = .ok (some true) s' ∧
        s'.contents = file := by
  refine ⟨file.length / base + 1, fun turns le => ?_⟩
  obtain ⟨s', ran, wrote⟩ := load_wrote (create_wellFormed heap positive) turns file le
  refine ⟨s', ran, ?_⟩
  rw [wrote.contents]
  simp [contents, create, splice]

/-! ### To the file -/

theorem toInt_small {v : Nat} (small : v < 2 ^ 31) : toInt v = v := by
  have whole : v % 2 ^ 32 = v := by omega
  rw [toInt, whole, if_pos small]

/-- A write inside the block, of `count` bytes. -/
theorem putOut_eq_ok {node : Node} {diff len : Int} {bytes : List UInt8}
    (put : putOut node diff len = .ok bytes) :
    ∃ from_ count : Nat, diff = from_ ∧ len = count ∧ from_ + count ≤ node.size ∧
      bytes = window node.ptr from_ count := by
  rw [putOut] at put
  split at put
  next inside =>
    cases put
    exact ⟨diff.toNat, len.toNat, by omega, by omega, by omega, rfl⟩
  next => cases put

/-- What the loop puts out comes from its first block, then from the others. -/
theorem fileLoop_cons {base : Nat} {cur : Node} {rest : List Node} {pos read_size : Int}
    {file : List UInt8} (some_left : 0 < read_size)
    (ran : fileLoop base (cur :: rest) pos read_size = .ok file) :
    ∃ (diff count : Nat) (more : List UInt8), toInt (pos.toNat % base) = diff ∧
      (if read_size > base then (base : Int) else read_size) = diff + count ∧
      diff + count ≤ cur.size ∧
      fileLoop base rest (pos + count) (read_size - count) = .ok more ∧
      file = window cur.ptr diff count ++ more := by
  simp only [fileLoop, if_pos some_left, bind_eq_ok, Except.ok.injEq] at ran
  obtain ⟨bytes, put, more, ran, rfl⟩ := ran
  obtain ⟨diff, count, diff_eq, count_eq, inside, rfl⟩ := putOut_eq_ok put
  rw [count_eq] at ran
  exact ⟨diff, count, more, diff_eq, by omega, inside, ran, rfl⟩

/-- Nothing is put out that is not in the blocks. -/
theorem mem_of_fileLoop {base : Nat} {nodes : List Node} {pos read_size : Int} {file : List UInt8}
    (ran : fileLoop base nodes pos read_size = .ok file) : ∀ b ∈ file, b ∈ memory nodes := by
  induction nodes generalizing pos read_size file with
  | nil =>
    simp only [fileLoop] at ran
    split at ran
    · cases ran
    · cases ran
      simp
  | cons cur rest ih =>
    by_cases some_left : 0 < read_size
    · obtain ⟨diff, count, more, -, -, -, ran', rfl⟩ := fileLoop_cons some_left ran
      intro b member
      rw [memory_cons, List.mem_append]
      rcases List.mem_append.mp member with here | later
      · exact .inl (List.mem_of_mem_drop (List.mem_of_mem_take here))
      · exact .inr (ih ran' b later)
    · simp only [fileLoop, if_neg some_left, Except.ok.injEq] at ran
      simp [← ran]

/-- The loop puts out the rest when it starts at a block, or when the rest fills a block. -/
theorem fileLoop_spec {base : Nat} (positive : 0 < base) (nodes : List Node) (pos left : Nat)
    (uniform : Uniform base nodes) (fits : pos % base + left ≤ nodes.length * base)
    (start : pos % base = 0 ∨ base ≤ left ∧ pos % base < 2 ^ 31) :
    fileLoop base nodes pos left = .ok (window (memory nodes) (pos % base) left) := by
  induction nodes generalizing pos left with
  | nil =>
    rw [List.length_nil, Nat.zero_mul] at fits
    have nothing : left = 0 := by omega
    simp [fileLoop, nothing, window]
  | cons cur rest ih =>
    obtain ⟨head, tail⟩ := uniform.cons
    have block : cur.ptr.length = base := head
    rw [List.length_cons, Nat.succ_mul] at fits
    have inside := Nat.mod_lt pos positive
    by_cases nothing : left = 0
    · simp [fileLoop, nothing, window]
    have some_left : (0 : Int) < left := by omega
    have diff : toInt ((pos : Int).toNat % base) = (pos % base : Nat) := by
      rw [Int.toNat_natCast]
      exact toInt_small (by omega)
    -- the part of the rest that is in this block
    obtain ⟨count, count_eq⟩ : ∃ count, count = min left (base - pos % base) := ⟨_, rfl⟩
    have len : (if (left : Int) > base then (base : Int) else left) - (pos % base : Nat) =
        count := by
      split <;> omega
    have put : putOut cur (pos % base : Nat) count = .ok (window cur.ptr (pos % base) count) := by
      rw [putOut, if_pos ⟨by omega, by omega, by rw [head]; omega⟩]
      rfl
    have next_pos : (pos : Int) + count = (pos + count : Nat) := by omega
    have next_left : (left : Int) - count = (left - count : Nat) := by omega
    simp only [fileLoop, if_pos some_left, diff, len, put, next_pos, next_left, bind, Except.bind]
    by_cases last : left ≤ base - pos % base
    · have all : left - count = 0 := by omega
      have same : count = left := by omega
      have done : fileLoop base rest (pos + count : Nat) (0 : Nat) = .ok [] := by
        cases rest <;> rfl
      rw [all, done, same, memory_cons, window_append_left _ _ _ _ (by omega)]
      simp
    · -- the next block is read from its start
      have filled : count = base - pos % base := by omega
      have aligned : (pos + count) % base = 0 := by
        have split_pos := Nat.div_add_mod' pos base
        have whole : pos + count = (pos / base + 1) * base := by
          rw [Nat.succ_mul]
          omega
        rw [whole, Nat.mul_mod_left]
      rw [ih (pos + count) (left - count) tail (by omega) (.inl aligned), aligned, memory_cons,
        window_append_across _ _ _ _ (by omega) (by omega), block, filled]

/-- A rest smaller than a block, from inside a block: the offset and the rest change places from
block to block, and one of the two counts is below zero, until the blocks end. -/
theorem fileLoop_short {base : Nat} (int : base ≤ 2 ^ 31) (nodes : List Node) (pos left : Nat)
    (inside : 0 < pos % base) (some_left : 0 < left) (short : left < base) (file : List UInt8) :
    fileLoop base nodes pos left ≠ .ok file := by
  induction nodes generalizing pos left file with
  | nil =>
    rw [fileLoop, if_pos (by omega)]
    simp
  | cons cur rest ih =>
    intro ran
    obtain ⟨diff, count, more, diff_eq, len, -, ran', -⟩ := fileLoop_cons (by omega) ran
    have start := Nat.mod_lt pos (Nat.lt_trans some_left short)
    rw [Int.toNat_natCast, toInt_small (by omega)] at diff_eq
    rw [if_neg (by omega)] at len
    have split_pos := Nat.div_add_mod' pos base
    -- the offset of the next turn is the rest of this one
    have next_offset : (pos + count) % base = left := by
      have whole : pos + count = pos / base * base + left := by omega
      rw [whole, Nat.mul_add_mod_self_right, Nat.mod_eq_of_lt short]
    have next_pos : (pos : Int) + count = (pos + count : Nat) := by omega
    have next_left : (left : Int) - count = (pos % base : Nat) := by omega
    rw [next_pos, next_left] at ran'
    exact ih (pos + count) (pos % base) (by omega) inside start more ran'

namespace WellFormed

variable {s : ByteArray}

theorem writeToFile_eq (wf : WellFormed s) :
    s.writeToFile true = (fileLoop s.baseSize (s.nodes.drop (s.position / s.baseSize)) s.position
      (s.size - s.position : Nat)).map some := by
  simp only [writeToFile, Bool.not_true, Bool.false_eq_true, if_false, wf.getReadSize_eq, wf.cur_eq,
    nodeAt]
  split
  next gone =>
    have beyond : s.nodes.length ≤ s.position / s.baseSize := by
      simpa using gone
    rw [List.drop_eq_nil_of_le beyond]
  next i found =>
    simp only [Option.ite_none_right_eq_some, Option.some.injEq] at found
    rw [found.2]

/-- The unread bytes, as a window of the memory. -/
theorem unread_eq (s : ByteArray) :
    s.contents.drop s.position = window (memory s.nodes) s.position (s.size - s.position) := by
  rw [contents, List.drop_take]
  rfl

theorem writeToFile_spec (wf : WellFormed s)
    (start : s.size = s.position ∨ s.baseSize ∣ s.position ∨
      s.baseSize ≤ s.size - s.position ∧ s.position % s.baseSize < 2 ^ 31) :
    s.writeToFile true = .ok (some (s.contents.drop s.position)) := by
  have size_le := wf.size_le
  have position_le := wf.position_le
  obtain ⟨block_le, block_lt⟩ := wf.cursor_block
  obtain ⟨bytes, whole⟩ := wf.drop_block block_le (s.position % s.baseSize) (s.size - s.position)
  have split_pos := Nat.div_add_mod' s.position s.baseSize
  rw [wf.writeToFile_eq, unread_eq]
  rcases Nat.eq_zero_or_pos (s.size - s.position) with nothing | some_left
  · have done : fileLoop s.baseSize (s.nodes.drop (s.position / s.baseSize)) s.position
        (0 : Nat) = .ok [] := by
      cases s.nodes.drop (s.position / s.baseSize) <;> rfl
    rw [nothing, done]
    rfl
  · have aligned : s.position % s.baseSize = 0 ∨
        s.baseSize ≤ s.size - s.position ∧ s.position % s.baseSize < 2 ^ 31 := by
      rcases start with same | block | enough
      · omega
      · exact .inl (Nat.mod_eq_zero_of_dvd block)
      · exact .inr enough
    rw [fileLoop_spec wf.positive _ _ _ (wf.uniform.drop _) (by omega) aligned, bytes, split_pos]
    rfl

/-- What a file begins with, and what it can go on with. -/
theorem file_eq (wf : WellFormed s) (some_left : s.position < s.size) {file : List UInt8}
    (ran : s.writeToFile true = .ok (some file)) :
    ∃ (diff count : Nat) (more : List UInt8), toInt (s.position % s.baseSize) = diff ∧
      min s.baseSize (s.size - s.position) = diff + count ∧
      file = window (memory s.nodes) (s.position / s.baseSize * s.baseSize + diff) count ++ more ∧
      ∀ b ∈ more, b ∈ (memory s.nodes).drop ((s.position / s.baseSize + 1) * s.baseSize) := by
  have size_le := wf.size_le
  obtain ⟨-, block_lt⟩ := wf.cursor_block
  have inside := block_lt.mpr (by omega)
  have node := List.drop_eq_getElem_cons inside
  rw [wf.writeToFile_eq] at ran
  cases looped : fileLoop s.baseSize (s.nodes.drop (s.position / s.baseSize)) s.position
      (s.size - s.position : Nat) with
  | error fault =>
    rw [looped] at ran
    cases ran
  | ok bytes =>
    rw [looped] at ran
    cases ran
    rw [node] at looped
    obtain ⟨diff, count, more, diff_eq, len, room, ran', rfl⟩ := fileLoop_cons (by omega) looped
    rw [Int.toNat_natCast] at diff_eq
    obtain ⟨around, front, block⟩ := memory_at wf.uniform (List.getElem?_eq_getElem inside)
    refine ⟨diff, count, more, diff_eq, ?_, ?_, ?_⟩
    · split at len <;> omega
    · rw [around, ← front, window_append_right, window_append_left _ _ _ _ room]
    · intro b member
      obtain ⟨split_memory, length⟩ := memory_split wf.uniform _ (Nat.succ_le_of_lt inside)
      rw [split_memory, ← length, List.drop_left]
      exact mem_of_fileLoop ran' b member

/-- A marked byte in the cursor's block is put out in its place only from the right offset, and
with the first count. -/
theorem file_marked (wf : WellFormed s) {ahead : Nat} (unread : ahead < s.size - s.position)
    (in_block : s.position % s.baseSize + ahead < s.baseSize)
    (right : FileRoundTrips (s.holding (mark (s.position + ahead)))) :
    ∃ count, toInt (s.position % s.baseSize) = (s.position % s.baseSize : Nat) ∧
      min s.baseSize (s.size - s.position) = s.position % s.baseSize + count ∧ ahead < count := by
  have size_le := wf.size_le
  have split_pos := Nat.div_add_mod' s.position s.baseSize
  obtain ⟨file, ran, text, -⟩ := right
  have wf' := wf.holding (mark (s.position + ahead))
  obtain ⟨diff, count, more, diff_eq, len, begins, later⟩ :=
    wf'.file_eq (show s.position < s.size by omega) ran
  rw [toString_spec wf', Except.ok.injEq, unread_eq] at text
  simp only [holding_baseSize, holding_position, holding_size] at diff_eq len begins later text
  have cell : ∀ a, a < s.capacity →
      (memory (s.holding (mark (s.position + ahead))).nodes)[a]? =
        some (mark (s.position + ahead) a) :=
    fun a below => wf.getElem?_holding _ below
  -- the file is right, so the marked byte is where it should be
  have marked : file[ahead]? = some 1 := by
    rw [← text, getElem?_window _ _ unread, cell _ (by omega), mark, if_pos rfl]
  have inside : (s.position / s.baseSize + 1) * s.baseSize ≤ s.capacity := by
    rw [wf.capacity_eq]
    exact Nat.mul_le_mul_right _ (wf.cursor_block.2.mpr (by omega))
  rw [Nat.succ_mul] at inside later
  have filled : (window (memory (s.holding (mark (s.position + ahead))).nodes)
      (s.position / s.baseSize * s.baseSize + diff) count).length = count := by
    rw [window, List.length_take, List.length_drop, length_memory wf'.uniform, ← wf'.capacity_eq]
    change min count (s.capacity - _) = count
    omega
  rw [begins] at marked
  by_cases first : ahead < count
  · rw [List.getElem?_append_left (by omega), getElem?_window _ _ first, cell _ (by omega), mark,
      Option.some.injEq] at marked
    split at marked
    next same =>
      have offset : diff = s.position % s.baseSize := by omega
      rw [offset] at diff_eq len
      exact ⟨count, diff_eq, len, first⟩
    next => exact absurd marked (by decide)
  · -- the bytes behind the first count are from later blocks, where nothing is marked
    rw [List.getElem?_append_right (by omega)] at marked
    obtain ⟨k, below, found⟩ := List.getElem_of_mem (later 1 (List.mem_of_getElem? marked))
    rw [List.length_drop, length_memory wf'.uniform, ← wf'.capacity_eq] at below
    change k < s.capacity - _ at below
    have value := List.getElem?_eq_getElem (l := (memory
      (s.holding (mark (s.position + ahead))).nodes).drop
        (s.position / s.baseSize * s.baseSize + s.baseSize)) (i := k) (by
          rw [List.length_drop, length_memory wf'.uniform, ← wf'.capacity_eq]
          exact below)
    rw [found, List.getElem?_drop, cell _ (by omega), mark, if_neg (by omega)] at value
    exact absurd value (by decide)

/-- With a marked byte at the place where the loop goes wrong, the file is a wrong one. -/
theorem fileRoundTrips_holding (wf : WellFormed s)
    (right : ∀ bytes, FileRoundTrips (s.holding bytes)) :
    s.size = s.position ∨ s.baseSize ∣ s.position ∨
      s.baseSize ≤ s.size - s.position ∧ s.position % s.baseSize < 2 ^ 31 := by
  by_contra wrong
  simp only [not_or, not_and, Nat.not_lt] at wrong
  obtain ⟨differ, unaligned, short⟩ := wrong
  have position_le := wf.position_le
  have offset := Nat.mod_lt s.position wf.positive
  have some_offset : 0 < s.position % s.baseSize :=
    Nat.pos_of_ne_zero fun zero => unaligned (Nat.dvd_of_mod_eq_zero zero)
  obtain ⟨count, int, len, -⟩ :=
    wf.file_marked (show 0 < s.size - s.position by omega) (by omega) (right _)
  have small : s.position % s.baseSize < 2 ^ 31 := by
    rw [toInt] at int
    split at int <;> omega
  -- the first byte that does not come with the first count
  obtain ⟨count', -, len', first⟩ :=
    wf.file_marked (show count < s.size - s.position by omega) (by omega) (right _)
  omega

/-- What is written can be read back, so only the writing counts. -/
theorem fileRoundTrips_iff (wf : WellFormed s) :
    FileRoundTrips s ↔ s.writeToFile true = .ok (some (s.contents.drop s.position)) := by
  rw [FileRoundTrips, toString_spec wf]
  constructor
  · rintro ⟨file, ran, text, -⟩
    cases text
    exact ran
  · exact fun ran => ⟨_, ran, rfl, fun heap base positive =>
      readFromFile_create _ heap positive⟩

end WellFormed

/-! ### The outcome -/

/-- The unread bytes survive the way over a file when there are none, when they start with a
block, or when they fill a block and the offset of the first fits an `int`. For blocks up to
`2^31` bytes they do not otherwise; for all blocks they do not for some contents. -/
theorem fileRoundTrips_exact {s : ByteArray} (wf : WellFormed s) :
    (s.baseSize ≤ 2 ^ 31 →
      (FileRoundTrips s ↔ s.size = s.position ∨ s.baseSize ∣ s.position ∨
        s.baseSize ≤ s.size - s.position)) ∧
      ((∀ bytes, FileRoundTrips (s.holding bytes)) ↔
        s.size = s.position ∨ s.baseSize ∣ s.position ∨
          s.baseSize ≤ s.size - s.position ∧ s.position % s.baseSize < 2 ^ 31) := by
  have offset := Nat.mod_lt s.position wf.positive
  have position_le := wf.position_le
  refine ⟨fun int => ⟨fun right => ?_, fun start => ?_⟩, wf.fileRoundTrips_holding,
    fun start bytes => ?_⟩
  · by_contra wrong
    simp only [not_or, Nat.not_le] at wrong
    obtain ⟨differ, unaligned, short⟩ := wrong
    have some_offset : 0 < s.position % s.baseSize :=
      Nat.pos_of_ne_zero fun zero => unaligned (Nat.dvd_of_mod_eq_zero zero)
    -- the loop never ends with a file from there
    have ran := wf.fileRoundTrips_iff.mp right
    rw [wf.writeToFile_eq] at ran
    have fails := fileLoop_short int (s.nodes.drop (s.position / s.baseSize)) s.position
      (s.size - s.position) some_offset (by omega) short
    cases looped : fileLoop s.baseSize (s.nodes.drop (s.position / s.baseSize)) s.position
        (s.size - s.position : Nat) with
    | error fault =>
      rw [looped] at ran
      cases ran
    | ok file => exact fails file looped
  · refine wf.fileRoundTrips_iff.mpr (wf.writeToFile_spec ?_)
    rcases start with same | block | enough
    · exact .inl same
    · exact .inr (.inl block)
    · exact .inr (.inr ⟨enough, by omega⟩)
  · exact (wf.holding bytes).fileRoundTrips_iff.mpr ((wf.holding bytes).writeToFile_spec start)

/-- Five bytes in blocks of two from the second on, whatever they are. -/
theorem fileRoundTrips_over_blocks :
    FileRoundTrips (run (create (fun _ _ => 0) 2) [.write [1, 2, 3, 4, 5], .setPosition 1]) ∧
      ∀ bytes, FileRoundTrips
        ((run (create (fun _ _ => 0) 2) [.write [1, 2, 3, 4, 5], .setPosition 1]).holding
          bytes) := by
  have wf : WellFormed
      (run (create (fun _ _ => 0) 2) [.write [1, 2, 3, 4, 5], .setPosition 1]) :=
    (run_wellFormed (create_wellFormed _ (show 0 < 2 by decide))
      [.write [1, 2, 3, 4, 5], .setPosition 1] (by simp [Op.Allowed])).1
  obtain ⟨small, all⟩ := fileRoundTrips_exact wf
  exact ⟨(small (by decide)).mpr (.inr (.inr (by decide))),
    all.mpr (.inr (.inr ⟨by decide, by decide⟩))⟩

/-- One byte left in a block of two, behind the first: the loop follows a null node. -/
theorem fileRoundTrips_short_rest :
    (run (create (fun _ _ => 0) 2) [.write [1, 2], .setPosition 1]).writeToFile true =
        .error .nullNode ∧
      ¬FileRoundTrips (run (create (fun _ _ => 0) 2) [.write [1, 2], .setPosition 1]) := by
  have fails : (run (create (fun _ _ => 0) 2) [.write [1, 2], .setPosition 1]).writeToFile true =
      .error .nullNode := by decide
  refine ⟨fails, ?_⟩
  rintro ⟨file, ran, -⟩
  rw [fails] at ran
  cases ran

end Dwframe.ByteArray
