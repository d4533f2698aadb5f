import Dwframe.ByteArray.File
import Dwframe.Lib.InputStream

/-!
# Reading from a stream that may fail

The loop of `readFromFile` asks its stream for the end of the file alone. After a read error the
stream has nothing more to give and is never at its end: the loop goes on for ever, as it does on a
stream without end and with blocks of no size. Memory is not bounded here.
-/
namespace Dwframe.ByteArray

open Lib

/-- The loop of `readFromFile`. It is `none` when it is not over in that many turns. -/
def loadFrom (base : Nat) : Nat → InputStream UInt8 → M (Option Bool)
  | 0, ifs => return if ifs.eofbit then some true else none
  | turns + 1, ifs =>
    if ifs.eofbit then return some true
    else do
      -- whether the read has failed is not asked
      let (buff, ifs) := ifs.read base
      write (buff.take ifs.gcount)
      loadFrom base turns ifs

/-- `readFromFile`; there is no stream where the file cannot be opened. -/
def readFromIfstream (turns : Nat) (ifs : Option (Source UInt8)) : M (Option Bool) := fun s =>
  match ifs with
  | none => .ok (some false) s
  | some source => loadFrom s.baseSize turns (.going source 0) s

/-- `readFromFile` comes to an end, and puts a file that is readable as a whole at the position. -/
structure Loads (s : ByteArray) (ifs : Option (Source UInt8)) : Prop where
  terminates : ∃ enough, ∀ turns, enough ≤ turns → ∃ done s',
    readFromIfstream turns ifs s = .ok (some done) s'
  appends : ∀ source file, ifs = some source → source.IsFile file → ∃ enough, ∀ turns,
    enough ≤ turns → ∃ s', readFromIfstream turns ifs s = .ok (some true) s' ∧ Wrote file s s'

section Loop

variable {base turns : Nat} {ifs : InputStream UInt8} {s : ByteArray}

theorem loadFrom_eof (eof : ifs.eofbit = true) : loadFrom base turns ifs s = .ok (some true) s := by
  cases turns with
  | zero => rw [loadFrom, eof]; rfl
  | succ turns => rw [loadFrom, eof]; rfl

/-- One turn, before the end of the file. -/
theorem loadFrom_succ (more : ifs.eofbit = false) :
    loadFrom base (turns + 1) ifs s =
      match write ((ifs.read base).1.take (ifs.read base).2.gcount) s with
      | .ok _ s' => loadFrom base turns (ifs.read base).2 s'
      | .error fault s' => .error fault s' := by
  rw [loadFrom, more]
  simp only [Bool.false_eq_true, if_false, bind_apply]
  cases write ((ifs.read base).1.take (ifs.read base).2.gcount) s <;> rfl

/-- Nothing comes from a stuck stream, and the loop asks on. -/
theorem loadFrom_stuck (stuck : ifs.Stuck) : loadFrom base turns ifs s = .ok none s := by
  induction turns generalizing ifs with
  | zero =>
    rw [loadFrom, stuck.2]
    rfl
  | succ turns ih =>
    obtain ⟨still, nothing⟩ := stuck.read base
    rw [loadFrom_succ stuck.2, nothing, List.take_zero]
    exact ih still

/-- With a read that fails, the loop is stuck. -/
theorem loadFrom_failure {source : Source UInt8} (failed : (source.sgetn base).2 = .failure)
    (gcount : Nat) : loadFrom base turns (.going source gcount) s = .ok none s := by
  obtain ⟨stuck, nothing⟩ := InputStream.read_failure failed gcount
  cases turns with
  | zero => rfl
  | succ turns =>
    rw [loadFrom_succ rfl, nothing, List.take_zero]
    exact loadFrom_stuck stuck

/-- On a stream that is a file, the loop loads the file. -/
theorem loadFrom_file {source : Source UInt8} {file : List UInt8} (isFile : source.IsFile file)
    (gcount : Nat) : loadFrom base turns (.going source gcount) s = load base turns file s := by
  induction turns generalizing source file gcount s with
  | zero => rfl
  | succ turns ih =>
    -- a read cut short is the last one of either loop
    have got := isFile.sgetn base
    rw [loadFrom_succ rfl, load, bind_apply]
    by_cases short : file.length < base
    · have stopped : (source.sgetn base).2 = .eof := by rw [got, if_pos short]
      obtain ⟨ifs, ran, eof, gcount⟩ := InputStream.read_eof stopped gcount
      rw [ran, gcount, List.take_length, got]
      cases write (file.take base) s with
      | ok done s' => simp only [loadFrom_eof eof, if_pos short, pure_apply]
      | error fault s' => rfl
    · have stopped : (source.sgetn base).2 = .full := by rw [got, if_neg short]
      rw [InputStream.read_full stopped, got]
      have whole : (file.take base).take base = file.take base := by
        rw [List.take_take, Nat.min_self]
      simp only [InputStream.going, whole, if_neg short]
      cases write (file.take base) s with
      | ok done s' => exact ih (isFile.skip (Nat.le_of_not_lt short)) base
      | error fault s' => rfl

/-- The loop is over at the end of a file only, which it reads in blocks of some size. -/
theorem isFile_of_loadFrom {source : Source UInt8} {gcount : Nat} {done : Bool} {s' : ByteArray}
    (ran : loadFrom base turns (.going source gcount) s = .ok (some done) s') :
    base ≠ 0 ∧ ∃ file, source.IsFile file := by
  induction turns generalizing source gcount s with
  | zero => cases ran
  | succ turns ih =>
    cases stopped : (source.sgetn base).2 with
    | full =>
      rw [loadFrom_succ rfl, InputStream.read_full stopped] at ran
      split at ran
      next mid _ =>
        obtain ⟨positive, rest, isFile⟩ := ih ran
        exact ⟨positive, _, Source.isFile_of_full stopped isFile⟩
      next => cases ran
    | eof =>
      -- blocks of no size are always read in full
      refine ⟨?_, _, Source.isFile_of_eof stopped⟩
      rintro rfl
      cases stopped
    | failure =>
      -- the loop would still be running
      rw [loadFrom_failure stopped] at ran
      cases ran

end Loop

/-! ### The outcome -/

/-- Where nothing fails, this is `readFromFile`. -/
theorem readFromIfstream_ofFile (turns : Nat) (file : Option (List UInt8)) :
    readFromIfstream turns (file.map Source.ofFile) = readFromFile turns file := by
  funext s
  cases file with
  | none => rfl
  | some file => exact loadFrom_file (Source.isFile_ofFile file) 0

/-- A stream that is a file ends the loop, with its bytes at the position. -/
theorem readFromIfstream_file {s : ByteArray} (wf : WellFormed s) {source : Source UInt8}
    {file : List UInt8} (isFile : source.IsFile file) : ∃ enough, ∀ turns, enough ≤ turns →
      ∃ s', readFromIfstream turns (some source) s = .ok (some true) s' ∧ Wrote file s s' := by
  refine ⟨file.length / s.baseSize + 1, fun turns le => ?_⟩
  obtain ⟨s', ran, wrote⟩ := load_wrote wf turns file le
  exact ⟨s', (loadFrom_file isFile 0).trans ran, wrote⟩

/-- `readFromFile` ends, with what is readable in its place, exactly if the file cannot be opened,
or its stream comes to an end of file and the blocks have a size. -/
theorem loads_iff {s : ByteArray} (wf : s.baseSize = 0 ∨ WellFormed s)
    (ifs : Option (Source UInt8)) :
    Loads s ifs ↔ ∀ source, ifs = some source → s.baseSize ≠ 0 ∧ ∃ file, source.IsFile file := by
  constructor
  · rintro ⟨⟨enough, ends⟩, -⟩ source rfl
    obtain ⟨done, s', ran⟩ := ends enough (Nat.le_refl _)
    exact isFile_of_loadFrom ran
  · intro good
    cases ifs with
    | none => exact ⟨⟨0, fun turns _ => ⟨false, s, rfl⟩⟩, fun _ _ same => nomatch same⟩
    | some source =>
      obtain ⟨positive, file, isFile⟩ := good source rfl
      have wf : WellFormed s := wf.resolve_left positive
      obtain ⟨enough, ends⟩ := readFromIfstream_file wf isFile
      refine ⟨⟨enough, fun turns le => ?_⟩, ?_⟩
      · obtain ⟨s', ran, -⟩ := ends turns le
        exact ⟨true, s', ran⟩
      · rintro source' file' ⟨⟩ isFile'
        exact readFromIfstream_file wf isFile'

/-- Five bytes into a fresh array with blocks of two. -/
theorem loads_five_bytes : Loads (create (fun _ _ => 0) 2) (some (.ofFile [1, 2, 3, 4, 5])) :=
  (loads_iff (.inr (create_wellFormed _ (by decide))) _).mpr fun source same => by
    cases same
    exact ⟨by decide, _, Source.isFile_ofFile _⟩

/-- A directory can be opened, every read of it fails: the loop never ends. -/
theorem directory_never_ends :
    (∀ turns, readFromIfstream turns (some fun _ => .failure) (create (fun _ _ => 0) 4096) =
        .ok none (create (fun _ _ => 0) 4096)) ∧
      ¬Loads (create (fun _ _ => 0) 4096) (some fun _ => .failure) := by
  have never : ∀ turns, readFromIfstream turns (some fun _ => .failure)
      (create (fun _ _ => 0) 4096) = .ok none (create (fun _ _ => 0) 4096) :=
    fun turns => loadFrom_failure rfl 0
  refine ⟨never, fun loads => ?_⟩
  obtain ⟨enough, ends⟩ := loads.terminates
  obtain ⟨done, s', ran⟩ := ends enough (Nat.le_refl _)
  rw [never] at ran
  cases ran

end Dwframe.ByteArray
