/-!
# Input streams

The buffer of a stream finds a character, the end or a failure at each place. A read that meets the
end sets the end-of-file bit. A read that meets a failure sets the bad bit, and no character of it
counts. With a bit set nothing is read any more, and the end-of-file bit stays as it is.
-/
namespace Dwframe.Lib

inductive Found (α : Type) where
  | char (a : α)
  | eof
  | failure

/-- What is found from the reading position on. -/
abbrev Source (α : Type) := Nat → Found α

/-- What ends a read. -/
inductive Stop where
  | full
  | eof
  | failure
  deriving DecidableEq, Repr

namespace Source

variable {α : Type}

def skip (source : Source α) (n : Nat) : Source α := fun i => source (n + i)

/-- The characters up to the `n`-th, the end or a failure. -/
def sgetn : Nat → Source α → List α × Stop
  | 0, _ => ([], .full)
  | n + 1, source =>
    match source 0 with
    | .char a => (a :: (sgetn n (source.skip 1)).1, (sgetn n (source.skip 1)).2)
    | .eof => ([], .eof)
    | .failure => ([], .failure)

/-- These characters are found, then the end. -/
def IsFile : Source α → List α → Prop
  | source, [] => source 0 = .eof
  | source, a :: rest => source 0 = .char a ∧ IsFile (source.skip 1) rest

def ofFile (file : List α) : Source α := fun i =>
  match file[i]? with
  | some a => .char a
  | none => .eof

theorem skip_zero (source : Source α) : source.skip 0 = source := by
  funext i
  rw [skip, Nat.zero_add]

theorem skip_skip (source : Source α) (m n : Nat) :
    (source.skip m).skip n = source.skip (m + n) := by
  funext i
  rw [skip, skip, skip, Nat.add_assoc]

theorem isFile_ofFile (file : List α) : (ofFile file).IsFile file := by
  induction file with
  | nil => rfl
  | cons a rest ih =>
    refine ⟨rfl, ?_⟩
    have tail : (ofFile (a :: rest)).skip 1 = ofFile rest := by
      funext i
      rw [skip, Nat.add_comm, ofFile, ofFile, List.getElem?_cons_succ]
    rw [tail]
    exact ih

theorem sgetn_char {source : Source α} {a : α} (here : source 0 = .char a) (n : Nat) :
    source.sgetn (n + 1) = (a :: ((source.skip 1).sgetn n).1, ((source.skip 1).sgetn n).2) := by
  rw [sgetn, here]

/-- A read in full starts with a character, and goes on in full. -/
theorem char_of_full {source : Source α} {n : Nat} (stopped : (source.sgetn (n + 1)).2 = .full) :
    ∃ a, source 0 = .char a ∧ ((source.skip 1).sgetn n).2 = .full := by
  cases here : source 0 with
  | char a =>
    rw [sgetn_char here] at stopped
    exact ⟨a, rfl, stopped⟩
  | eof =>
    rw [sgetn, here] at stopped
    cases stopped
  | failure =>
    rw [sgetn, here] at stopped
    cases stopped

theorem IsFile.sgetn {source : Source α} {file : List α} (isFile : source.IsFile file) (n : Nat) :
    source.sgetn n = (file.take n, if file.length < n then .eof else .full) := by
  induction n generalizing source file with
  | zero => rfl
  | succ n ih =>
    cases file with
    | nil =>
      have here : source 0 = .eof := isFile
      simp [Source.sgetn, here]
    | cons a rest =>
      obtain ⟨here, later⟩ := isFile
      simp [sgetn_char here, ih later]

theorem IsFile.skip {source : Source α} {file : List α} (isFile : source.IsFile file) {n : Nat}
    (inside : n ≤ file.length) : (source.skip n).IsFile (file.drop n) := by
  induction n generalizing source file with
  | zero => rwa [skip_zero]
  | succ n ih =>
    cases file with
    | nil => exact absurd inside (Nat.not_succ_le_zero n)
    | cons a rest =>
      -- first the one character, then the others
      rw [Nat.add_comm, ← skip_skip, Nat.add_comm, List.drop_succ_cons]
      exact ih isFile.2 (Nat.le_of_succ_le_succ inside)

theorem length_of_full {source : Source α} {n : Nat} (stopped : (source.sgetn n).2 = .full) :
    (source.sgetn n).1.length = n := by
  induction n generalizing source with
  | zero => rfl
  | succ n ih =>
    obtain ⟨a, here, later⟩ := char_of_full stopped
    rw [sgetn_char here, List.length_cons, ih later]

/-- What is read in full belongs to the file that follows. -/
theorem isFile_of_full {source : Source α} {n : Nat} (stopped : (source.sgetn n).2 = .full)
    {rest : List α} (isFile : (source.skip n).IsFile rest) :
    source.IsFile ((source.sgetn n).1 ++ rest) := by
  induction n generalizing source with
  | zero => rwa [skip_zero] at isFile
  | succ n ih =>
    obtain ⟨a, here, later⟩ := char_of_full stopped
    rw [Nat.add_comm, ← skip_skip] at isFile
    rw [sgetn_char here]
    exact ⟨here, ih later isFile⟩

/-- A read that stops at the end has found the file. -/
theorem isFile_of_eof {source : Source α} {n : Nat} (stopped : (source.sgetn n).2 = .eof) :
    source.IsFile (source.sgetn n).1 := by
  induction n generalizing source with
  | zero => cases stopped
  | succ n ih =>
    cases here : source 0 with
    | char a =>
      rw [sgetn_char here] at stopped ⊢
      exact ⟨here, ih stopped⟩
    | eof =>
      rw [sgetn, here]
      exact here
    | failure =>
      rw [sgetn, here] at stopped
      cases stopped

end Source

structure InputStream (α : Type) where
  source : Source α
  eofbit : Bool
  failbit : Bool
  badbit : Bool
  gcount : Nat

namespace InputStream

variable {α : Type}

/-- No bit is set. -/
def going (source : Source α) (gcount : Nat) : InputStream α :=
  ⟨source, false, false, false, gcount⟩

def good (s : InputStream α) : Bool := !s.eofbit && !s.failbit && !s.badbit

@[simp] theorem good_going (source : Source α) (gcount : Nat) : (going source gcount).good = true :=
  rfl

/-- `read`: what is put into the caller's buffer. `gcount` tells how much of it counts. -/
def read (n : Nat) (s : InputStream α) : List α × InputStream α :=
  if s.good then
    let (chars, stop) := s.source.sgetn n
    (chars, {
      source := s.source.skip chars.length
      eofbit := stop = .eof
      failbit := stop = .eof
      -- an exception of the buffer, which `read` keeps
      badbit := stop = .failure
      gcount := if stop = .failure then 0 else chars.length })
  else ([], { s with failbit := true, gcount := 0 })

theorem read_full {source : Source α} {n : Nat} (stopped : (source.sgetn n).2 = .full)
    (gcount : Nat) :
    (going source gcount).read n = ((source.sgetn n).1, going (source.skip n) n) := by
  rw [read, if_pos (good_going source gcount)]
  simp [going, stopped, Source.length_of_full stopped]

/-- A read that the end cuts short. -/
theorem read_eof {source : Source α} {n : Nat} (stopped : (source.sgetn n).2 = .eof)
    (gcount : Nat) : ∃ s, (going source gcount).read n = ((source.sgetn n).1, s) ∧
      s.eofbit = true ∧ s.gcount = (source.sgetn n).1.length := by
  rw [read, if_pos (good_going source gcount)]
  exact ⟨_, rfl, by simp [going, stopped], by simp [going, stopped]⟩

/-- The stream is not good, and not at its end. -/
def Stuck (s : InputStream α) : Prop := s.good = false ∧ s.eofbit = false

theorem read_failure {source : Source α} {n : Nat} (stopped : (source.sgetn n).2 = .failure)
    (gcount : Nat) :
    ((going source gcount).read n).2.Stuck ∧ ((going source gcount).read n).2.gcount = 0 := by
  rw [read, if_pos (good_going source gcount)]
  simp [going, stopped, Stuck, good]

/-- A stuck stream stays stuck. -/
theorem Stuck.read {s : InputStream α} (stuck : s.Stuck) (n : Nat) :
    (s.read n).2.Stuck ∧ (s.read n).2.gcount = 0 := by
  obtain ⟨not_good, not_eof⟩ := stuck
  rw [InputStream.read, not_good]
  exact ⟨⟨by simp [good], not_eof⟩, rfl⟩

end InputStream

end Dwframe.Lib
