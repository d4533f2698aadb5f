import Dwframe.ByteArray.SocketStream
import Dwframe.Http.Session
import Dwframe.Lib.Transfer

/-!
# Reading and writing a fixed size

The four loops of `Stream` ask the virtual `read` or `write` for what is left until nothing is.
The calls are numbered: call `k` returns the `k`-th result. A raw buffer is a list of bytes, a
`read` into it stores from `buffer + offset` on; `read` and `write` on a `ByteArray` are those of
the subclass.
-/
namespace Dwframe

namespace Stream

open Lib Lib.Transfer Http Dwframe.ByteArray

variable {σ : Type}

/-- The `while` of the four functions; `call k offset left` is call `k`. None when nothing is
left, else the result the loop returns. -/
def fixSizeLoop (call : Nat → Nat → Int → σ → Except Fault (Int32 × σ)) (k offset : Nat)
    (left : Int) (s : σ) : Except Fault (Option Int × σ) :=
  if left > 0 then
    match call k offset left s with
    | .error fault => .error fault
    | .ok (len, s) =>
      if len.toInt ≤ 0 then .ok (some len.toInt, s)
      else fixSizeLoop call (k + 1) (offset + len.toInt.toNat) (left - len.toInt) s
  else .ok (none, s)
termination_by left.toNat
decreasing_by omega

/-- The four functions with their `call`; the end is `return length`. -/
def fixSize (call : Nat → Nat → Int → σ → Except Fault (Int32 × σ)) (length : UInt64) (s : σ) :
    Except Fault (Int × σ) := do
  let (returned, s) ← fixSizeLoop call 0 0 (cInt64 length) s
  return (returned.getD (cInt length.toNat), s)

/-- The result of a `read` and the bytes it received. -/
structure Received where
  result : Int32
  bytes : List UInt8
  length_bytes : bytes.length = result.toInt.toNat

/-- `read((char*)buffer + offset, left)`. -/
def readBuffer (received : Nat → Received) (k offset : Nat) (_left : Int)
    (buffer : List UInt8) : Except Fault (Int32 × List UInt8) :=
  if offset + (received k).bytes.length ≤ buffer.length then
    .ok ((received k).result, splice buffer offset (received k).bytes)
  else .error .overrun

/-- `write((const char*)buffer + offset, left)`; `out` are the bytes that went out. -/
def writeBuffer (buffer : List UInt8) (sent : Nat → Int32) (k offset : Nat) (_left : Int)
    (out : List UInt8) : Except Fault (Int32 × List UInt8) :=
  if offset + (sent k).toInt.toNat ≤ buffer.length then
    .ok (sent k, out ++ window buffer offset (sent k).toInt.toNat)
  else .error .overrun

/-- `read(ba, left)`. -/
def readArray (read : Nat → Nat → M Int32) (k _offset : Nat) (left : Int) (ba : ByteArray) :
    Except Fault (Int32 × ByteArray) :=
  match read k left.toNat ba with
  | .error fault _ => .error fault
  | .ok len ba => .ok (len, ba)

/-- `write(ba, left)`. -/
def writeArray (write : Nat → Nat → M (Int32 × List UInt8)) (k _offset : Nat) (left : Int)
    (s : ByteArray × List UInt8) : Except Fault (Int32 × ByteArray × List UInt8) :=
  match write k left.toNat s.1 with
  | .error fault _ => .error fault
  | .ok (len, out) ba => .ok (len, ba, s.2 ++ out)

/-- `readFixSize(void* buffer, size_t length)`. -/
def readFixSize (received : Nat → Received) (buffer : List UInt8) (length : UInt64) :
    Except Fault (Int × List UInt8) :=
  fixSize (readBuffer received) length buffer

/-- `readFixSize(ByteArray::pointer ba, size_t length)`. -/
def readFixSizeArray (read : Nat → Nat → M Int32) (ba : ByteArray) (length : UInt64) :
    Except Fault (Int × ByteArray) :=
  fixSize (readArray read) length ba

/-- `writeFixSize(const void* buffer, size_t length)`. -/
def writeFixSize (sent : Nat → Int32) (buffer : List UInt8) (length : UInt64) :
    Except Fault (Int × List UInt8) :=
  fixSize (writeBuffer buffer sent) length []

/-- `writeFixSize(ByteArray::pointer ba, size_t length)`. -/
def writeFixSizeArray (write : Nat → Nat → M (Int32 × List UInt8)) (ba : ByteArray)
    (length : UInt64) : Except Fault (Int × ByteArray × List UInt8) :=
  fixSize (writeArray write) length (ba, [])

/-! ### What a loop does -/

variable {call : Nat → Nat → Int → σ → Except Fault (Int32 × σ)} {results : Nat → Int}
  {length : Nat} {Moves : Nat → σ → Prop}

/-- Call `k` returns its result, and moves what it says: `Moves k s` holds of a state in which the
bytes of the first `k` calls have been moved. -/
def Meets (call : Nat → Nat → Int → σ → Except Fault (Int32 × σ)) (results : Nat → Int)
    (length : Nat) (Moves : Nat → σ → Prop) : Prop :=
  ∀ k s, Progress results k → moved results k < length →
    results k ≤ length - moved results k → Moves k s →
    ∃ len s', call k (moved results k) (length - moved results k) s = .ok (len, s') ∧
      len.toInt = results k ∧ (0 < results k → Moves (k + 1) s') ∧ (results k ≤ 0 → Moves k s')

/-- The loop from call `k` on. -/
theorem fixSizeLoop_spec (honest : Honest results length length)
    (meets : Meets call results length Moves) {k : Nat} {s : σ} (before : Progress results k)
    (room : moved results k ≤ length) (moves : Moves k s) :
    ∃ returned j s',
      fixSizeLoop call k (moved results k) (length - moved results k) s = .ok (returned, s') ∧
        Moves j s' ∧ ((returned = none ∧ Completes results length j) ∨
          (returned = some (results j) ∧ Fails results length j)) := by
  induction left : length - moved results k using Nat.strongRecOn generalizing k s with
  | ind left ih =>
    rw [fixSizeLoop]
    -- `left` is what the calls so far have not moved
    by_cases short : moved results k < length
    · rw [if_pos (by omega)]
      obtain ⟨len, s', ran, result, forth, back⟩ :=
        meets k s before short (honest k before short) moves
      rw [ran]
      dsimp only
      rw [result]
      split
      case isTrue failed => exact ⟨_, k, s', rfl, back failed, Or.inr ⟨rfl, before, short, failed⟩⟩
      case isFalse more =>
        have positive : 0 < results k := by omega
        have fits := honest k before short
        have next := moved_succ positive
        have rest : (length : Int) - moved results k - results k =
            length - moved results (k + 1) := by omega
        rw [rest]
        exact ih _ (by omega) (before.succ positive) (by omega) (forth positive) rfl
    · rw [if_neg (by omega)]
      exact ⟨none, k, s, rfl, moves, Or.inl ⟨rfl, before, by omega⟩⟩

/-- A run of one of the four functions is right: its result tells how the transfer ended, and the
bytes of the calls before a failure have been moved. -/
def Right (results : Nat → Int) (length : UInt64) (run : Except Fault (Int × σ))
    (Moves : Nat → σ → Prop) : Prop :=
  ∃ result s' k, run = .ok (result, s') ∧ Moves k s' ∧ Sound results length.toNat result k

/-- The length is positive as an `int`, or a call fails before everything was moved. -/
def Tells (results : Nat → Int) (length : UInt64) : Prop :=
  0 < cInt length.toNat ∨ ∃ k, Fails results length.toNat k

theorem fixSize_right_iff {length : UInt64} (range : length.toNat < 2 ^ 63)
    (honest : Honest results length.toNat length.toNat)
    (meets : Meets call results length.toNat Moves) {s : σ} (moves : Moves 0 s) :
    Right results length (fixSize call length s) Moves ↔ Tells results length := by
  obtain ⟨returned, j, s', ran, moved', ended⟩ :=
    fixSizeLoop_spec honest meets .zero (Nat.zero_le _) moves
  have run : fixSize call length s = .ok (returned.getD (cInt length.toNat), s') := by
    rw [fixSize, cInt64_of_lt range]
    have start : (length.toNat : Int) = length.toNat - (moved results 0 : Nat) := by
      rw [moved]
      omega
    rw [start]
    show (fixSizeLoop call 0 (moved results 0) _ s >>= _) = _
    rw [ran]
    rfl
  rw [run]
  rcases ended with ⟨rfl, completes⟩ | ⟨rfl, fails⟩
  · -- everything was moved: the result is `length` as an `int`, and no call fails
    rw [Option.getD_none]
    have never : ¬∃ k, Fails results length.toNat k := by
      rintro ⟨k, fails⟩
      exact completes.not_fails fails
    constructor
    · rintro ⟨result, s'', k, same, -, sound⟩
      obtain ⟨rfl, rfl⟩ := Prod.mk.inj (Except.ok.inj same)
      exact Or.inl (completes.positive sound)
    · rintro (positive | fails)
      · exact ⟨cInt length.toNat, s', j, rfl, moved', completes.sound positive⟩
      · exact absurd fails never
  · rw [Option.getD_some]
    exact iff_of_true ⟨results j, s', j, rfl, moved', fails.sound⟩ (Or.inr ⟨j, fails⟩)

/-! ### Raw buffers -/

/-- The results of `read`. -/
def resultOf (received : Nat → Received) (k : Nat) : Int := (received k).result.toInt

/-- The results of `write`. -/
def takenOf (sent : Nat → Int32) (k : Nat) : Int := (sent k).toInt

/-- The bytes that the first `k` calls of `read` received. -/
def delivered (received : Nat → Received) : Nat → List UInt8
  | 0 => []
  | k + 1 => delivered received k ++ (received k).bytes

variable {received : Nat → Received} {sent : Nat → Int32} {buffer : List UInt8}

theorem length_delivered (k : Nat) :
    (delivered received k).length = moved (resultOf received) k := by
  induction k with
  | zero => rfl
  | succ k ih =>
    rw [delivered, List.length_append, ih, (received k).length_bytes]
    rfl

theorem bytes_of_failure {k : Nat} (failed : resultOf received k ≤ 0) :
    (received k).bytes = [] := by
  apply List.eq_nil_of_length_eq_zero
  rw [(received k).length_bytes]
  exact Int.toNat_of_nonpos failed

theorem readBuffer_meets (room : length ≤ buffer.length) :
    Meets (readBuffer received) (resultOf received) length fun k stored =>
      stored = splice buffer 0 (delivered received k) := by
  rintro k stored before short fits rfl
  have whole : (delivered received k).length = moved (resultOf received) k := length_delivered k
  have bytes := (received k).length_bytes
  have inside : moved (resultOf received) k + (received k).bytes.length ≤ buffer.length := by
    rw [bytes]
    rw [resultOf] at fits
    omega
  have size : (splice buffer 0 (delivered received k)).length = buffer.length :=
    length_splice _ _ _ (by omega)
  -- the bytes of call `k` go right behind those of the calls before
  have next : splice (splice buffer 0 (delivered received k)) (moved (resultOf received) k)
      (received k).bytes = splice buffer 0 (delivered received (k + 1)) := by
    rw [← whole, ← Nat.zero_add (delivered received k).length,
      splice_splice _ _ _ _ (Nat.zero_le _)]
    rfl
  refine ⟨(received k).result, _, if_pos (by rw [size]; exact inside), rfl, fun _ => next, ?_⟩
  intro failed
  rw [bytes_of_failure failed, splice_nil]

theorem writeBuffer_meets (room : length ≤ buffer.length) :
    Meets (writeBuffer buffer sent) (takenOf sent) length fun k out =>
      out = buffer.take (moved (takenOf sent) k) := by
  rintro k out before short fits rfl
  have inside : moved (takenOf sent) k + (sent k).toInt.toNat ≤ buffer.length := by
    rw [takenOf] at fits
    omega
  have next : buffer.take (moved (takenOf sent) k) ++
      window buffer (moved (takenOf sent) k) (sent k).toInt.toNat =
        buffer.take (moved (takenOf sent) (k + 1)) := List.take_add.symm
  refine ⟨sent k, _, if_pos inside, rfl, fun _ => next, ?_⟩
  intro failed
  rw [takenOf] at failed
  rw [Int.toNat_of_nonpos failed, window, List.take_zero, List.append_nil]

/-! ### Arrays -/

/-- `s'` looks like `s` after `write(bytes)`. -/
structure Stored (bytes : List UInt8) (s s' : ByteArray) : Prop where
  wellFormed : WellFormed s'
  like : ∃ written, ByteArray.write bytes s = .ok () written ∧ Agrees s' written

/-- `out` are the next `n` bytes of `s`, and `s'` is `s` with the cursor behind them. -/
structure Taken (n : Nat) (s s' : ByteArray) (out : List UInt8) : Prop where
  wellFormed : WellFormed s'
  out : out = window s.contents s.position n
  contents : s'.contents = s.contents
  size : s'.getSize = s.getSize
  position : s'.getPosition = s.getPosition + n

variable {ba s s' s'' : ByteArray} {bytes more out out' : List UInt8}

theorem stored_iff (wf : WellFormed s) :
    Stored bytes s s' ↔ WellFormed s' ∧ s'.contents = splice s.contents s.position bytes ∧
      s'.size = max s.size (s.position + bytes.length) ∧
      s'.position = s.position + bytes.length := by
  obtain ⟨written, wrote, -, -, position, size, contents⟩ := write_spec wf bytes
  constructor
  · rintro ⟨wf', other, wrote', agrees⟩
    obtain ⟨-, rfl⟩ := EStateM.Result.ok.inj (wrote.symm.trans wrote')
    exact ⟨wf', agrees.contents.trans contents, agrees.size.trans size,
      agrees.position.trans position⟩
  · rintro ⟨wf', contents', size', position'⟩
    exact ⟨wf', written, wrote, contents'.trans contents.symm, size'.trans size.symm,
      position'.trans position.symm⟩

theorem Stored.nothing (wf : WellFormed s) : Stored [] s s := ⟨wf, s, rfl, rfl, rfl, rfl⟩

theorem Stored.append (wf : WellFormed s) (first : Stored bytes s s')
    (second : Stored more s' s'') : Stored (bytes ++ more) s s'' := by
  obtain ⟨wf', contents', size', position'⟩ := (stored_iff wf).mp first
  obtain ⟨wf'', contents'', size'', position''⟩ := (stored_iff wf').mp second
  have position_le := wf.position_le
  apply (stored_iff wf).mpr
  rw [List.length_append]
  refine ⟨wf'', ?_, by omega, by omega⟩
  rw [contents'', contents', position', splice_splice _ _ _ _ (by
    rw [wf.length_contents]
    exact position_le)]

theorem Taken.nothing (wf : WellFormed s) : Taken 0 s s [] :=
  ⟨wf, rfl, rfl, rfl, rfl⟩

theorem Taken.append {m n : Nat} (first : Taken m s s' out) (second : Taken n s' s'' out') :
    Taken (m + n) s s'' (out ++ out') := by
  refine ⟨second.wellFormed, ?_, second.contents.trans first.contents,
    second.size.trans first.size, ?_⟩
  · have position : s'.position = s.position + m := first.position
    rw [first.out, second.out, first.contents, position, window_append_window]
  · rw [second.position, first.position, Nat.add_assoc]

/-- The virtual `read(ba, length)`: it stores what it receives as `write` does. -/
structure ArrayReader (received : Nat → Received) where
  read : Nat → Nat → M Int32
  spec : ∀ (k length : Nat) (s : ByteArray), WellFormed s → resultOf received k ≤ length →
    ∃ s', read k length s = .ok (received k).result s' ∧ Stored (received k).bytes s s'

/-- The virtual `write(ba, length)`: what it sends it takes as `read` does. -/
structure ArrayWriter (sent : Nat → Int32) where
  write : Nat → Nat → M (Int32 × List UInt8)
  spec : ∀ (k length : Nat) (s : ByteArray), WellFormed s → takenOf sent k ≤ length →
    takenOf sent k ≤ s.getReadSize →
    ∃ out s', write k length s = .ok (sent k, out) s' ∧ Taken (sent k).toInt.toNat s s' out

theorem readArray_meets (reader : ArrayReader received) (wf : WellFormed ba) :
    Meets (readArray reader.read) (resultOf received) length fun k s =>
      Stored (delivered received k) ba s := by
  intro k s before short fits stored
  have left : ((length : Int) - moved (resultOf received) k).toNat =
      length - moved (resultOf received) k := by omega
  obtain ⟨s', ran, more⟩ := reader.spec k (length - moved (resultOf received) k) s
    stored.wellFormed (by omega)
  refine ⟨(received k).result, s', by rw [readArray, left, ran], rfl,
    fun _ => stored.append wf more, ?_⟩
  intro failed
  have same := stored.append wf more
  rw [bytes_of_failure failed, List.append_nil] at same
  exact same

theorem writeArray_meets (writer : ArrayWriter sent) (wf : WellFormed ba)
    (offered : Honest (takenOf sent) length ba.getReadSize) :
    Meets (writeArray writer.write) (takenOf sent) length fun k s =>
      Taken (moved (takenOf sent) k) ba s.1 s.2 := by
  rintro k ⟨s, out⟩ before short fits taken
  have left : ((length : Int) - moved (takenOf sent) k).toNat =
      length - moved (takenOf sent) k := by omega
  -- what is left to read has shrunk by what went out
  have there : takenOf sent k ≤ s.getReadSize := by
    have offer := offered k before short
    have size : s.size = ba.size := taken.size
    have position : s.position = ba.position + moved (takenOf sent) k := taken.position
    have position_le := taken.wellFormed.position_le
    rw [wf.getReadSize_eq] at offer
    rw [taken.wellFormed.getReadSize_eq]
    dsimp only at position_le ⊢
    omega
  obtain ⟨more, s', ran, next⟩ := writer.spec k (length - moved (takenOf sent) k) s
    taken.wellFormed (by omega) there
  have both := taken.append next
  refine ⟨sent k, (s', out ++ more), by rw [writeArray, left, ran], rfl, fun _ => both, ?_⟩
  intro failed
  rw [takenOf] at failed
  rw [Int.toNat_of_nonpos failed, Nat.add_zero] at both
  exact both

/-! ### The socket stream -/

/-- The memory that a `read` gets ready is no part of the array yet. -/
theorem Stored.grown (wf : WellFormed s) {g : ByteArray} (wf' : WellFormed g)
    (position : g.position = s.position) (size : g.size = s.size)
    (contents : g.contents = s.contents) : Stored [] s g := by
  have position_le := wf.position_le
  apply (stored_iff wf).mpr
  refine ⟨wf', ?_, ?_, position⟩
  · rw [contents, splice_nil]
  · rw [size, List.length_nil]
    omega

theorem socketRead_failed (wf : WellFormed s) (length : Nat) :
    ∃ s', SocketStream.read true (fun _ => none) length s = .ok (-1) s' ∧ Stored [] s s' := by
  obtain ⟨buffers, grown, ran, wf', position, size, same, -⟩ := getWriteBuffers_spec wf length
  exact ⟨grown, by simp [SocketStream.read, ran], .grown wf wf' position size same⟩

/-- `SocketStream::read` stores what the socket received. -/
theorem socketRead_received (wf : WellFormed s) {bytes : List UInt8} {length : Nat}
    (fits : bytes.length ≤ length) :
    ∃ s', SocketStream.read true (fun _ => some bytes) length s = .ok bytes.length s' ∧
      Stored bytes s s' := by
  obtain ⟨buffers, grown, ran, wf', position, size, same, room, total, covers⟩ :=
    getWriteBuffers_spec wf length
  by_cases nothing : bytes = []
  · -- the peer has closed: the cursor is not moved
    subst nothing
    exact ⟨grown, by simp [SocketStream.read, ran, store, scatter_nil],
      .grown wf wf' position size same⟩
  · obtain ⟨s', moved, wf'', position', size', contents'⟩ :=
      store_setPosition wf' covers bytes (by omega) (by omega)
    have there : setPosition ((grown.store buffers bytes).getPosition + bytes.length)
        (grown.store buffers bytes) = .ok () s' := moved
    have positive : (bytes.length : Int) > 0 := by
      have some_byte := List.length_pos_iff.mpr nothing
      omega
    refine ⟨s', ?_, (stored_iff wf).mpr ⟨wf'', ?_, ?_, ?_⟩⟩
    · simp only [SocketStream.read, Bool.not_true, Bool.false_eq_true, if_false, ran,
        if_pos positive, there]
    · rw [contents', same, position]
    · rw [size', size, position]
    · rw [position', position]

/-- `SocketStream::write` takes what the socket took. -/
theorem socketWrite_taken (wf : WellFormed s) {n length : Nat} (fits : n ≤ length)
    (there : n ≤ s.getReadSize) :
    ∃ out s', SocketStream.write true (fun _ => some n) length s = .ok (n, out) s' ∧
      Taken n s s' out := by
  obtain ⟨buffers, ran, gathered⟩ := getReadBuffers_spec wf length
  cases n with
  | zero => exact ⟨[], s, by simp [SocketStream.write, ran], Taken.nothing wf⟩
  | succ n =>
    obtain ⟨s', took, moved⟩ := setPosition_eq_read wf (Nat.succ_pos n) there
    have inside : n + 1 ≤ s.size - s.position := wf.getReadSize_eq ▸ there
    obtain ⟨s'', took', wf', -, position, size, contents⟩ := read_spec wf (Nat.succ_pos n) inside
    obtain ⟨-, rfl⟩ := EStateM.Result.ok.inj (took.symm.trans took')
    refine ⟨(gather s.nodes buffers).take (n + 1), s', ?_, wf', ?_, contents, size, position⟩
    · have there : setPosition (s.getPosition + (n + 1)) s = .ok () s' := moved
      have positive : ((n + 1 : Nat) : Int) > 0 := by omega
      simp only [SocketStream.write, Bool.not_true, Bool.false_eq_true, if_false, ran,
        if_pos positive, there]
    · rw [gathered, window, window, List.take_take, Nat.min_eq_left (Nat.le_min.mpr ⟨fits, there⟩)]

/-- What a socket returns: the bytes moved, 0 or -1, and -1 where it is not connected. -/
structure OfSocket (connected : Nat → Bool) (results : Nat → Int) : Prop where
  least : ∀ k, -1 ≤ results k
  closed : ∀ k, connected k = false → results k = -1

theorem int32_eq {len : Int32} {value : Int} (same : len.toInt = value) :
    Int32.ofInt value = len := by
  rw [← same]
  exact Int32.ofInt_toInt len

/-- `SocketStream::read(ba, length)` on a socket with the given results. -/
def socketReader (connected : Nat → Bool) (ofSocket : OfSocket connected (resultOf received)) :
    ArrayReader received where
  read k length s :=
    let recv := fun _ => if resultOf received k < 0 then none else some (received k).bytes
    match SocketStream.read (connected k) recv length s with
    | .error fault s => .error fault s
    | .ok rt s => .ok (.ofInt rt) s
  spec := by
    intro k length s wf fits
    cases state : connected k with
    | false =>
      have closed := ofSocket.closed k state
      refine ⟨s, ?_, ?_⟩
      · exact congrArg (EStateM.Result.ok · s) (int32_eq closed)
      · rw [bytes_of_failure (by omega)]
        exact Stored.nothing wf
    | true =>
      dsimp only
      by_cases failed : resultOf received k < 0
      · have least := ofSocket.least k
        have minusOne : resultOf received k = -1 := by omega
        obtain ⟨s', ran, stored⟩ := socketRead_failed wf length
        refine ⟨s', ?_, ?_⟩
        · rw [if_pos failed, ran]
          exact congrArg (EStateM.Result.ok · s') (int32_eq minusOne)
        · rw [bytes_of_failure (by omega)]
          exact stored
      · have bytes := (received k).length_bytes
        have result : resultOf received k = (received k).bytes.length := by
          rw [bytes]
          exact (Int.toNat_of_nonneg (Int.not_lt.mp failed)).symm
        obtain ⟨s', ran, stored⟩ := @socketRead_received s wf (received k).bytes length (by omega)
        refine ⟨s', ?_, stored⟩
        rw [if_neg failed, ran]
        exact congrArg (EStateM.Result.ok · s') (int32_eq result)

/-- `SocketStream::write(ba, length)` on a socket with the given results. -/
def socketWriter (connected : Nat → Bool) (ofSocket : OfSocket connected (takenOf sent)) :
    ArrayWriter sent where
  write k length s :=
    let send := fun _ => if takenOf sent k < 0 then none else some (takenOf sent k).toNat
    match SocketStream.write (connected k) send length s with
    | .error fault s => .error fault s
    | .ok (rt, out) s => .ok (.ofInt rt, out) s
  spec := by
    intro k length s wf fits there
    cases state : connected k with
    | false =>
      have closed := ofSocket.closed k state
      refine ⟨[], s, ?_, ?_⟩
      · exact congrArg (fun len => EStateM.Result.ok (len, []) s) (int32_eq closed)
      · have nothing : (takenOf sent k).toNat = 0 := Int.toNat_of_nonpos (by omega)
        rw [takenOf] at nothing
        rw [nothing]
        exact Taken.nothing wf
    | true =>
      dsimp only
      by_cases failed : takenOf sent k < 0
      · have least := ofSocket.least k
        have minusOne : takenOf sent k = -1 := by omega
        refine ⟨[], s, ?_, ?_⟩
        · obtain ⟨buffers, ran, -⟩ := getReadBuffers_spec wf length
          rw [if_pos failed]
          simp only [SocketStream.write, Bool.not_true, Bool.false_eq_true, if_false, ran]
          exact congrArg (fun len => EStateM.Result.ok (len, []) s) (int32_eq minusOne)
        · have nothing : (takenOf sent k).toNat = 0 := Int.toNat_of_nonpos (by omega)
          rw [takenOf] at nothing
          rw [nothing]
          exact Taken.nothing wf
      · have result : takenOf sent k = ((takenOf sent k).toNat : Nat) :=
          (Int.toNat_of_nonneg (Int.not_lt.mp failed)).symm
        obtain ⟨out, s', ran, taken⟩ :=
          @socketWrite_taken s wf (takenOf sent k).toNat length (by omega) (by omega)
        refine ⟨out, s', ?_, taken⟩
        rw [if_neg failed, ran]
        exact congrArg (fun len => EStateM.Result.ok (len, out) s') (int32_eq result)

/-! ### The four functions -/

/-- `readFixSize` and `writeFixSize`, on a raw buffer and on a `ByteArray`, move the bytes in order
and tell how the transfer ended, if and only if a whole transfer has a length that is positive as
an `int`. -/
theorem fixSizes_right_iff {length : UInt64} (range : length.toNat < 2 ^ 63)
    (honest : Honest (resultOf received) length.toNat length.toNat)
    (honest' : Honest (takenOf sent) length.toNat length.toNat)
    (room : length.toNat ≤ buffer.length) (wf : WellFormed ba)
    (offered : Honest (takenOf sent) length.toNat ba.getReadSize)
    (reader : ArrayReader received) (writer : ArrayWriter sent) :
    (Right (resultOf received) length (readFixSize received buffer length)
        (fun k stored => stored = splice buffer 0 (delivered received k)) ↔
      Tells (resultOf received) length) ∧
    (Right (resultOf received) length (readFixSizeArray reader.read ba length)
        (fun k s => Stored (delivered received k) ba s) ↔
      Tells (resultOf received) length) ∧
    (Right (takenOf sent) length (writeFixSize sent buffer length)
        (fun k out => out = buffer.take (moved (takenOf sent) k)) ↔
      Tells (takenOf sent) length) ∧
    (Right (takenOf sent) length (writeFixSizeArray writer.write ba length)
        (fun k s => Taken (moved (takenOf sent) k) ba s.1 s.2) ↔
      Tells (takenOf sent) length) :=
  ⟨fixSize_right_iff range honest (readBuffer_meets room) (splice_nil _ _).symm,
    fixSize_right_iff range honest (readArray_meets reader wf) (Stored.nothing wf),
    fixSize_right_iff range honest' (writeBuffer_meets room) (List.take_zero).symm,
    fixSize_right_iff range honest' (writeArray_meets writer wf offered) (Taken.nothing wf)⟩

/-- Three bytes in two calls, the longer one first; then the peer closes. -/
def shortReads : Nat → Received
  | 0 => ⟨2, [1, 2], rfl⟩
  | 1 => ⟨1, [3], rfl⟩
  | _ => ⟨0, [], rfl⟩

def shortWrites : Nat → Int32
  | 0 => 1
  | 1 => 2
  | _ => -1

/-- Three bytes arrive in two calls and go out in two others. -/
theorem fixSizes_right_short :
    ∃ ba : ByteArray, ∃ reader : ArrayReader shortReads, ∃ writer : ArrayWriter shortWrites,
      ba.contents = [7, 8, 9] ∧
      Right (resultOf shortReads) 3 (readFixSize shortReads [0, 0, 0, 0] 3)
        (fun k stored => stored = splice [0, 0, 0, 0] 0 (delivered shortReads k)) ∧
      Right (resultOf shortReads) 3 (readFixSizeArray reader.read ba 3)
        (fun k s => Stored (delivered shortReads k) ba s) ∧
      Right (takenOf shortWrites) 3 (writeFixSize shortWrites [0, 0, 0, 0] 3)
        (fun k out => out = [0, 0, 0, 0].take (moved (takenOf shortWrites) k)) ∧
      Right (takenOf shortWrites) 3 (writeFixSizeArray writer.write ba 3)
        (fun k s => Taken (moved (takenOf shortWrites) k) ba s.1 s.2) := by
  have tells : ∀ results, Tells results 3 := fun _ => Or.inl (by decide)
  have wf : WellFormed (after (perform (.setPosition 0)
      (after (perform (.write [7, 8, 9]) (create (fun _ _ => 0) 2))))) :=
    (((Reachable.create _ (by decide)).perform (.write [7, 8, 9]) trivial).perform
      (.setPosition 0) trivial).wellFormed
  have reads : OfSocket (fun _ => true) (resultOf shortReads) := by
    refine ⟨fun k => ?_, fun _ => nofun⟩
    match k with
    | 0 | 1 => decide
    | k + 2 => exact (by decide : (-1 : Int) ≤ 0)
  have writes : OfSocket (fun k => k < 2) (takenOf shortWrites) := by
    refine ⟨fun k => ?_, fun k closed => ?_⟩
    · match k with
      | 0 | 1 => decide
      | k + 2 => exact Int.le_refl (-1)
    · match k with
      | 0 | 1 => cases closed
      | k + 2 => rfl
  have honest : Honest (resultOf shortReads) 3 3 := by
    intro k before short
    match k with
    | 0 | 1 => decide
    | k + 2 =>
      have nothing : resultOf shortReads (k + 2) = 0 := rfl
      omega
  have honest' : Honest (takenOf shortWrites) 3 3 := by
    intro k before short
    match k with
    | 0 | 1 => decide
    | k + 2 =>
      have closed : takenOf shortWrites (k + 2) = -1 := rfl
      omega
  obtain ⟨read, readArray, write, writeArray⟩ :=
    @fixSizes_right_iff shortReads shortWrites [0, 0, 0, 0] _ 3 (by decide) honest honest'
      (by decide) wf honest' (socketReader _ reads) (socketWriter _ writes)
  exact ⟨_, _, _, by decide +kernel, read.mpr (tells _), readArray.mpr (tells _),
    write.mpr (tells _), writeArray.mpr (tells _)⟩

/-- `writeFixSize` of 2147483648 bytes returns -2147483648 after all of them went out. -/
theorem writeFixSize_int_min :
    let sent : Nat → Int32 := fun k => if k = 0 then 2147483647 else 1
    let buffer : List UInt8 := List.replicate 2147483648 0
    ¬Right (takenOf sent) 2147483648 (writeFixSize sent buffer 2147483648)
      (fun k out => out = buffer.take (moved (takenOf sent) k)) := by
  intro sent buffer right
  have first : takenOf sent 0 = 2147483647 := rfl
  have later : ∀ k, takenOf sent (k + 1) = 1 := fun _ => rfl
  have honest : Honest (takenOf sent) 2147483648 2147483648 := by
    intro k before short
    cases k with
    | zero =>
      rw [first, moved]
      omega
    | succ k =>
      rw [later]
      omega
  have room : 2147483648 ≤ buffer.length := Nat.le_of_eq List.length_replicate.symm
  have tells : Tells (takenOf sent) 2147483648 :=
    (@fixSize_right_iff _ _ _ _ 2147483648 (by decide) honest (writeBuffer_meets room) _
      List.take_zero.symm).mp right
  rcases tells with positive | ⟨k, fails⟩
  · exact absurd positive (by decide)
  · have failed := fails.failed
    cases k with
    | zero => rw [first] at failed; omega
    | succ k => rw [later] at failed; omega

end Stream

end Dwframe
