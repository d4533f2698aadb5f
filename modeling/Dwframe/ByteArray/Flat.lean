import Dwframe.ByteArray.Reachable

/-!
# `ByteArray` as one flat byte string with a cursor

`Flat` says what a `ByteArray` is for: a byte string and a position in it. It
knows nothing of blocks. `represents` relates a block chain to the flat value it
stands for; every command keeps the two related and gives the same answer on both,
so the observations along any run are those of the flat value and the block size
cannot be told from outside.
-/
namespace Dwframe.ByteArray

open Lib

/-- The calls that read, write and move inside the stored bytes. -/
inductive Command where
  | write (buf : List UInt8)
  | read (n : Nat)
  | setPosition (v : Nat)
  | clear
  deriving DecidableEq, Repr

def Command.toOp : Command → Op
  | .write buf => .write buf
  | .read n => .read n
  | .setPosition v => .setPosition v
  | .clear => .clear

/-- What a client sees after a call: its result, and the four observers. -/
structure Observation where
  result : Except Fault Output
  size : Nat
  position : Nat
  readSize : Nat
  text : Except Fault (List UInt8)

def result {α : Type} : EStateM.Result Fault ByteArray α → Except Fault α
  | .ok a _ => .ok a
  | .error fault _ => .error fault

def observe (s : ByteArray) (command : Command) : Observation where
  result := result (perform command.toOp s)
  size := (after (perform command.toOp s)).getSize
  position := (after (perform command.toOp s)).getPosition
  readSize := (after (perform command.toOp s)).getReadSize
  text := (after (perform command.toOp s)).toString

def trace : ByteArray → List Command → List Observation
  | _, [] => []
  | s, command :: rest => observe s command :: trace (after (perform command.toOp s)) rest

/-- The client's side of the contract, at the state it calls from: reads ask for a
byte, and the cursor is moved inside `[0, getSize()]` only. -/
def Respects (s : ByteArray) : Command → Prop
  | .read n => 1 ≤ n
  | .setPosition v => v ≤ s.getSize
  | _ => True

def Admissible : ByteArray → List Command → Prop
  | _, [] => True
  | s, command :: rest =>
    Respects s command ∧ Admissible (after (perform command.toOp s)) rest

structure Flat where
  bytes : List UInt8
  cursor : Nat
  deriving DecidableEq, Repr

namespace Flat

def empty : Flat := ⟨[], 0⟩

def write (f : Flat) (buf : List UInt8) : Flat :=
  ⟨splice f.bytes f.cursor buf, f.cursor + buf.length⟩

/-- The answer to a command and the value after it. -/
def perform (f : Flat) : Command → Except Fault Output × Flat
  | .write buf => (.ok .done, f.write buf)
  | .read n =>
    if n > f.bytes.length - f.cursor then (.error .outOfRange, f)
    else (.ok (.bytes (window f.bytes f.cursor n)), ⟨f.bytes, f.cursor + n⟩)
  | .setPosition v => (.ok .done, ⟨f.bytes, v⟩)
  | .clear => (.ok .done, empty)

def observe (f : Flat) (command : Command) : Observation where
  result := (f.perform command).1
  size := (f.perform command).2.bytes.length
  position := (f.perform command).2.cursor
  readSize := (f.perform command).2.bytes.length - (f.perform command).2.cursor
  text := .ok ((f.perform command).2.bytes.drop (f.perform command).2.cursor)

def trace : Flat → List Command → List Observation
  | _, [] => []
  | f, command :: rest => f.observe command :: trace (f.perform command).2 rest

end Flat

/-- The block chain `s` stands for the flat value `f`. -/
structure Represents (s : ByteArray) (f : Flat) : Prop where
  wellFormed : WellFormed s
  contents_eq : s.contents = f.bytes
  position_eq : s.position = f.cursor

namespace Represents

variable {s : ByteArray} {f : Flat}

theorem size_eq (rep : Represents s f) : s.size = f.bytes.length := by
  rw [← rep.contents_eq, rep.wellFormed.length_contents]

theorem of_create (heap : Nat → Nat → UInt8) {base : Nat} (positive : 1 ≤ base) :
    Represents (create heap base) Flat.empty :=
  ⟨create_wellFormed heap positive, by simp [contents, create, Flat.empty], rfl⟩

/-- One command gives the same answer on both sides and keeps them related. -/
theorem perform (rep : Represents s f) (command : Command) (respects : Respects s command) :
    result (ByteArray.perform command.toOp s) = (f.perform command).1 ∧
      Represents (after (ByteArray.perform command.toOp s)) (f.perform command).2 := by
  have wf := rep.wellFormed
  have size_eq := rep.size_eq
  have position_eq := rep.position_eq
  cases command with
  | write buf =>
    obtain ⟨s', ran, wf', -, position', -, contents'⟩ := write_spec wf buf
    simp only [Command.toOp, ByteArray.perform, map_apply, ran, result, after, Flat.perform,
      true_and]
    refine ⟨wf', ?_, ?_⟩
    · rw [contents', rep.contents_eq, position_eq, Flat.write]
    · rw [position', position_eq, Flat.write]
  | read n =>
    simp only [Command.toOp, ByteArray.perform, map_apply, Flat.perform]
    by_cases short : n > f.bytes.length - f.cursor
    · rw [if_pos short, read_short wf (by omega)]
      exact ⟨rfl, rep⟩
    · obtain ⟨s', ran, wf', -, position', -, contents'⟩ :=
        read_spec wf respects (show n ≤ s.size - s.position by omega)
      rw [if_neg short, ran]
      refine ⟨?_, wf', ?_, ?_⟩
      · simp only [result, rep.contents_eq, position_eq]
      · exact contents'.trans rep.contents_eq
      · exact position'.trans (by rw [position_eq])
  | setPosition v =>
    have inside : v ≤ s.size := respects
    have := wf.size_le
    obtain ⟨s', ran, wf', -, position', size', nodes'⟩ :=
      setPosition_spec wf (show v ≤ s.capacity by omega)
    simp only [Command.toOp, ByteArray.perform, map_apply, ran, result, after, Flat.perform,
      true_and]
    -- the cursor stays inside the stored bytes, so no byte becomes visible
    refine ⟨wf', ?_, position'⟩
    rw [← rep.contents_eq, contents, contents, nodes', size', Nat.max_eq_left inside]
  | clear =>
    simp only [Command.toOp, ByteArray.perform, result, after, Flat.perform, true_and]
    exact ⟨clear_wellFormed wf, by simp [contents, ByteArray.clear, Flat.empty], rfl⟩

theorem observe (rep : Represents s f) (command : Command) (respects : Respects s command) :
    ByteArray.observe s command = f.observe command := by
  obtain ⟨answer, rep'⟩ := rep.perform command respects
  simp only [ByteArray.observe, Flat.observe, answer, getSize, getPosition, rep'.size_eq,
    rep'.position_eq, rep'.wellFormed.getReadSize_eq, toString_spec rep'.wellFormed,
    rep'.contents_eq]

theorem trace (rep : Represents s f) (commands : List Command)
    (admissible : Admissible s commands) : ByteArray.trace s commands = f.trace commands := by
  induction commands generalizing s f with
  | nil => rfl
  | cons command rest ih =>
    obtain ⟨respects, later⟩ := admissible
    rw [ByteArray.trace, Flat.trace, rep.observe command respects,
      ih (rep.perform command respects).2 later]

/-- Two chains that stand for one flat value admit the same commands. -/
theorem admissible_iff {s' : ByteArray} (rep : Represents s f) (rep' : Represents s' f)
    (commands : List Command) (admissible : Admissible s commands) :
    Admissible s' commands := by
  induction commands generalizing s s' f with
  | nil => trivial
  | cons command rest ih =>
    obtain ⟨respects, later⟩ := admissible
    have respects' : Respects s' command := by
      cases command with
      | setPosition v =>
        have inside : v ≤ s.size := respects
        rw [rep.size_eq, ← rep'.size_eq] at inside
        exact inside
      | write | read | clear => exact respects
    exact ⟨respects', ih (rep.perform command respects).2 (rep'.perform command respects').2 later⟩

end Represents

/-- Along every admissible run a `ByteArray` of any block size is observed as one
flat byte string with a cursor; any other block size admits the same run and gives
the same observations. -/
theorem trace_eq_flat (heap : Nat → Nat → UInt8) (base : Nat) (positive : 1 ≤ base)
    (commands : List Command) (admissible : Admissible (create heap base) commands) :
    trace (create heap base) commands = Flat.empty.trace commands ∧
      ∀ heap' base', 1 ≤ base' → Admissible (create heap' base') commands ∧
        trace (create heap' base') commands = trace (create heap base) commands := by
  have rep := Represents.of_create heap positive
  have flat := rep.trace commands admissible
  refine ⟨flat, fun heap' base' positive' => ?_⟩
  have rep' := Represents.of_create heap' positive'
  have admissible' := rep.admissible_iff rep' commands admissible
  exact ⟨admissible', (rep'.trace commands admissible').trans flat.symm⟩

/-- A run over blocks of two that fills the capacity, overwrites across a block edge
and asks for more than is left. -/
theorem trace_eq_flat_blocks_of_two :
    Admissible (create (fun _ _ => 7) 2)
        [.write [1, 2, 3, 4], .setPosition 1, .write [8, 9], .read 2] ∧
      trace (create (fun _ _ => 7) 2)
          [.write [1, 2, 3, 4], .setPosition 1, .write [8, 9], .read 2] =
        Flat.empty.trace [.write [1, 2, 3, 4], .setPosition 1, .write [8, 9], .read 2] := by
  have admissible : Admissible (create (fun _ _ => 7) 2)
      [.write [1, 2, 3, 4], .setPosition 1, .write [8, 9], .read 2] :=
    ⟨trivial, show 1 ≤ 4 by decide, trivial, show 1 ≤ 2 by decide, trivial⟩
  exact ⟨admissible, (trace_eq_flat _ 2 (by decide) _ admissible).1⟩

end Dwframe.ByteArray
