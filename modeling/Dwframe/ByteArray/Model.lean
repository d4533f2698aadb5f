import Mathlib.Algebra.GroupWithZero.Nat
import Dwframe.Lib.Splice

/-!
# The block chain of `ByteArray`

`ByteArray` keeps its bytes in a singly linked chain of equally sized blocks and
caches in `m_cur` the block under the cursor. The chain is the list of nodes met
from `m_root` along `next`; a node pointer is the node's number in that list,
and `none` is the null pointer. `new char[s]` leaves its block indeterminate: the
bytes come from an arbitrary `heap` that every statement quantifies over.

Each copy loop of the source is a recursion over the nodes from `m_cur` on, one
call for one iteration. `size_t` values are natural numbers; `sizeSub` is the one
operation that can wrap.
-/
namespace Dwframe

open Lib

/-- How an operation ends other than by returning. Only `outOfRange` is an
exception of the source; the other two are undefined behaviour. -/
inductive Fault where
  | outOfRange
  /-- A null `Node*` is followed. -/
  | nullNode
  /-- A `memcpy` leaves the block of its node. -/
  | overrun
  deriving DecidableEq, Repr

/-- `a - b` on `size_t`. -/
def sizeSub (a b : Nat) : Nat :=
  if b ≤ a then a - b else a + 2 ^ 64 - b

@[simp] theorem sizeSub_of_le {a b : Nat} (le : b ≤ a) : sizeSub a b = a - b := if_pos le

structure Node where
  ptr : List UInt8
  deriving DecidableEq, Repr

namespace Node

def size (node : Node) : Nat := node.ptr.length

/-- `memcpy(ptr + npos, src, src.length)`. -/
def copyIn (node : Node) (npos : Nat) (src : List UInt8) : Except Fault Node :=
  if npos + src.length ≤ node.size then .ok ⟨splice node.ptr npos src⟩ else .error .overrun

/-- `memcpy(dst, ptr + npos, count)`. -/
def copyOut (node : Node) (npos count : Nat) : Except Fault (List UInt8) :=
  if npos + count ≤ node.size then .ok (window node.ptr npos count) else .error .overrun

end Node

/-- An `iovec` that points `offset` bytes into node number `node`. -/
structure Iovec where
  node : Nat
  offset : Nat
  len : Nat
  deriving DecidableEq, Repr

inductive Endian where
  | little
  | big
  deriving DecidableEq, Repr

structure ByteArray where
  baseSize : Nat
  position : Nat
  capacity : Nat
  size : Nat
  endian : Endian
  nodes : List Node
  cur : Option Nat
  /-- Byte `j` of the `k`-th block that `new char[]` hands out. -/
  heap : Nat → Nat → UInt8
  /-- How many blocks have been allocated so far. -/
  blocks : Nat

namespace ByteArray

abbrev M := EStateM Fault ByteArray

def newNode (heap : Nat → Nat → UInt8) (block size : Nat) : Node :=
  ⟨(List.range size).map (heap block)⟩

/-- The constructor `ByteArray(base_size)`. -/
def create (heap : Nat → Nat → UInt8) (base_size : Nat) : ByteArray where
  baseSize := base_size
  position := 0
  capacity := base_size
  size := 0
  endian := .big
  nodes := [newNode heap 0 base_size]
  cur := some 0
  heap := heap
  blocks := 1

def isLittleEndian (s : ByteArray) : Bool := s.endian = .little

def setIsLittleEndian (s : ByteArray) (val : Bool) : ByteArray :=
  { s with endian := if val then .little else .big }

def getPosition (s : ByteArray) : Nat := s.position

def getSize (s : ByteArray) : Nat := s.size

def getReadSize (s : ByteArray) : Nat := sizeSub s.size s.position

def getCapacity (s : ByteArray) : Nat := sizeSub s.capacity s.position

/-- The pointer reached from `m_root` after following `next` `number` times. -/
def nodeAt (s : ByteArray) (number : Nat) : Option Nat :=
  if number < s.nodes.length then some number else none

/-- `clear` frees every block after the root. -/
def clear (s : ByteArray) : ByteArray :=
  { s with
    position := 0
    size := 0
    capacity := s.baseSize
    nodes := s.nodes.take 1
    cur := some 0 }

/-- `ceil(1.0 * size / m_baseSize)`, taken as exact. -/
def ceilDiv (size base : Nat) : Nat := (size + base - 1) / base

def addCapacity (s : ByteArray) (size : Nat) : ByteArray :=
  if size = 0 then s
  else
    let old_cap := s.getCapacity
    if old_cap ≥ size then s
    else
      -- `size` grows by the missing part only, in whole blocks
      let count := ceilDiv (size - old_cap) s.baseSize
      { s with
        nodes := s.nodes ++
          (List.range count).map fun i => newNode s.heap (s.blocks + i) s.baseSize
        capacity := s.capacity + count * s.baseSize
        blocks := s.blocks + count
        -- a null `m_cur` is repaired: the first new block is the one under the cursor
        cur := if old_cap = 0 then (if count = 0 then none else some s.nodes.length) else s.cur }

/-- The copy loop of `write` from node `m_cur` on: the rewritten nodes and how
often `m_cur` advanced. -/
def writeLoop : List Node → Nat → List UInt8 → Except Fault (List Node × Nat)
  | [], _, _ => .error .nullNode
  | node :: rest, npos, buf =>
    let ncap := node.size - npos
    -- the rest fits; an exactly filled block moves `m_cur` on
    if ncap ≥ buf.length then do
      let node' ← node.copyIn npos buf
      .ok (node' :: rest, if node.size = npos + buf.length then 1 else 0)
    else do
      let node' ← node.copyIn npos (buf.take ncap)
      let (rest', moved) ← writeLoop rest 0 (buf.drop ncap)
      .ok (node' :: rest', moved + 1)

def write (buf : List UInt8) : M Unit := fun s =>
  if buf.length = 0 then .ok () s
  else
    let s := s.addCapacity buf.length
    match s.cur with
    | none => .error .nullNode s
    | some i =>
      match writeLoop (s.nodes.drop i) (s.position % s.baseSize) buf with
      | .error fault => .error fault s
      | .ok (rest, moved) =>
        let position := s.position + buf.length
        .ok () { s with
          nodes := s.nodes.take i ++ rest
          cur := s.nodeAt (i + moved)
          position := position
          size := if position > s.size then position else s.size }

/-- The copy loop shared by both forms of `read`: the bytes, and how often the
node pointer advanced. -/
def readLoop : List Node → Nat → Nat → Except Fault (List UInt8 × Nat)
  | [], _, _ => .error .nullNode
  | node :: rest, npos, size =>
    if size = 0 then .ok ([], 0)
    else
      let ncap := node.size - npos
      if ncap ≥ size then do
        let bytes ← node.copyOut npos size
        .ok (bytes, if node.size = npos + size then 1 else 0)
      else do
        let bytes ← node.copyOut npos ncap
        let (more, moved) ← readLoop rest 0 (size - ncap)
        .ok (bytes ++ more, moved + 1)

/-- `read(buf, size)`: from the cursor on. Even an empty read looks at
`m_cur->size`. -/
def read (size : Nat) : M (List UInt8) := fun s =>
  if size > s.getReadSize then .error .outOfRange s
  else
    match s.cur with
    | none => .error .nullNode s
    | some i =>
      match readLoop (s.nodes.drop i) (s.position % s.baseSize) size with
      | .error fault => .error fault s
      | .ok (bytes, moved) =>
        .ok bytes { s with position := s.position + size, cur := s.nodeAt (i + moved) }

/-- `read(buf, size, position) const`. The walk starts at `m_cur`, whatever
`position` is. -/
def readAt (s : ByteArray) (size position : Nat) : Except Fault (List UInt8) :=
  if size > sizeSub s.size position then .error .outOfRange
  else
    match s.cur with
    | none => .error .nullNode
    | some i => (readLoop (s.nodes.drop i) (position % s.baseSize) size).map Prod.fst

/-- The walk of `setPosition` from `m_root`: how many nodes lie before `v`. -/
def seek : List Node → Nat → Except Fault Nat
  | [], _ => .error .nullNode
  | node :: rest, v =>
    -- `v` is what remains of the position at this node
    if v > node.size then do
      let passed ← seek rest (v - node.size)
      .ok (passed + 1)
    else if v = node.size then .ok 1
    else .ok 0

def setPosition (v : Nat) : M Unit := fun s =>
  if v > s.capacity then .error .outOfRange s
  else
    let s := { s with position := v, size := if v > s.size then v else s.size }
    match seek s.nodes v with
    | .error fault => .error fault s
    | .ok passed => .ok () { s with cur := s.nodeAt passed }

def toString (s : ByteArray) : Except Fault (List UInt8) :=
  if s.getReadSize = 0 then .ok []
  else s.readAt s.getReadSize s.position

/-- The loop that collects `iovec`s, from node number `number` on. -/
def buffersLoop : List Node → Nat → Nat → Nat → Except Fault (List Iovec)
  | [], _, _, _ => .error .nullNode
  | node :: rest, number, npos, len =>
    if len = 0 then .ok []
    else
      let ncap := node.size - npos
      if ncap ≥ len then .ok [⟨number, npos, len⟩]
      else do
        let more ← buffersLoop rest (number + 1) 0 (len - ncap)
        .ok (⟨number, npos, ncap⟩ :: more)

def buffersFromCur (s : ByteArray) (len : Nat) : Except Fault (List Iovec) :=
  match s.cur with
  | none => .error .nullNode
  | some i => buffersLoop (s.nodes.drop i) i (s.position % s.baseSize) len

/-- `getReadBuffers(buffers, len)`: the `iovec`s pushed and the byte count. -/
def getReadBuffers (s : ByteArray) (len : Nat) : Except Fault (List Iovec × Nat) :=
  let len := if len > s.getReadSize then s.getReadSize else len
  if len = 0 then .ok ([], 0)
  else do
    let buffers ← s.buffersFromCur len
    .ok (buffers, len)

/-- `getReadBuffers(buffers, len, position)`. The walk goes to `position`, the length is cut to
what is left behind the cursor. -/
def getReadBuffersAt (s : ByteArray) (len position : Nat) : Except Fault (List Iovec × Nat) :=
  let len := if len > s.getReadSize then s.getReadSize else len
  if len = 0 then .ok ([], 0)
  else do
    let count := position / s.baseSize
    let buffers ← buffersLoop (s.nodes.drop count) count (position % s.baseSize) len
    .ok (buffers, len)

def getWriteBuffers (len : Nat) : M (List Iovec × Nat) := fun s =>
  if len = 0 then .ok ([], 0) s
  else
    let s := s.addCapacity len
    match s.buffersFromCur len with
    | .error fault => .error fault s
    | .ok buffers => .ok (buffers, len) s

end ByteArray

end Dwframe
