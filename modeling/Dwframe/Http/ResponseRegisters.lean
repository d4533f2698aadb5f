import Dwframe.Http.ResponseParser

/-!
# The registers of the response parser

The callbacks get pointers into the buffer and lengths that are differences of registers. In a call
the registers lie in front of the byte that is read, so the texts of most callbacks are parts of
the buffer. The exception is the name of a field: a line `chunked` behind an empty
`Transfer-Encoding`, or a line of digits behind an empty `Content-Length`, is stored under a name
that begins with this line and has the length of the name in front of it.
-/
open Dwframe.Lib

namespace Dwframe.Http

namespace HttpResponseParser

/-! ### What the edges do to the name of a field -/

/-- Where the length may not belong to the start of the name: inside a name, and behind a line
`close` that stands alone, up to the next name. -/
def inName (cs : Nat) : Bool :=
  [3, 5, 21, 43, 88, 117, 120].contains cs || (decide (25 ≤ cs) && decide (cs ≤ 34)) ||
    (decide (44 ≤ cs) && decide (cs ≤ 60)) || (decide (73 ≤ cs) && decide (cs ≤ 79)) ||
    (decide (90 ≤ cs) && decide (cs ≤ 94)) || (decide (101 ≤ cs) && decide (cs ≤ 111))

/-- Whether the name is known to end in the buffer, behind an action. -/
def measured (known : Bool) : ClientAction → Bool
  | .startField => false
  | .writeField | .writeValue => true
  | _ => known

/-- Every value is reported behind the name that belongs to it. -/
def reportsMeasured : Bool → List ClientAction → Bool
  | _, [] => true
  | known, a :: actions => (known || a != .writeValue) && reportsMeasured (measured known a) actions

/-- The states in which a value is reported in the middle of a name. -/
def confused : List Nat := [79, 117]

/-- The actions at the end of such a line. -/
def confusedEnds : List (List ClientAction) :=
  [[.writeValue], [.writeValue, .transChunked], [.writeContentLen, .writeValue]]

/-- Behind a name it is measured, and values are reported behind measured names, but for the ends
of the lines in the two states. -/
def checkEdge (cs : Nat) (e : RangeEdge ClientAction) : Bool :=
  (inName e.target || e.actions.foldl measured (!inName cs)) &&
    if confused.contains cs && (e.lo == 10 || e.lo == 13) then
      confusedEnds.contains e.actions && e.hi == e.lo
    else reportsMeasured (!inName cs) e.actions && !(confused.contains cs && e.lo < 14)

theorem rows_checked (cs : Nat) : ∀ e ∈ ClientTable.row cs, checkEdge cs e = true := by
  have known : ∀ cs < 124, ∀ e ∈ ClientTable.row cs, checkEdge cs e = true := by decide +kernel
  by_cases small : cs < 124
  · exact known cs small
  · have none : ClientTable.row cs = [] := by
      have length : ClientTable.rows.length = 123 := by decide +kernel
      rw [ClientTable.row, if_neg (by simp [ClientTable.errorState]; omega),
        List.getElem?_eq_none (by omega)]
      rfl
    rw [none]
    exact nofun

/-! ### The registers in front of a byte -/

/-- The registers of a call over `len` bytes, in front of position `fpc`; `start` is what the call
found in `body_start`, and `known` says that the name is measured. -/
structure Inside (len start : Nat) (known : Bool) (fpc : Nat) (p : HttpResponseParser) : Prop where
  mark : p.parser.mark ≤ fpc
  markInside : p.parser.mark < len
  field : p.parser.fieldStart ≤ fpc
  fieldInside : p.parser.fieldStart < len
  length : 0 ≤ p.parser.fieldLen ∧ p.parser.fieldLen ≤ len
  name : known = true → p.parser.fieldStart + p.parser.fieldLen ≤ (len : Int)
  body : p.parser.bodyStart = start ∨ p.parser.bodyStart ≤ len

section Act

variable {buffer : Bytes} {start fpc : Nat} {known : Bool} {p : HttpResponseParser}

/-- The registers do not depend on what the callbacks store. -/
theorem Inside.stored {q : HttpResponseParser} (inside : Inside buffer.length start known fpc p)
    (same : q.parser = p.parser) : Inside buffer.length start known fpc q := by
  obtain ⟨mark, markInside, field, fieldInside, length, name, body⟩ := inside
  constructor <;> simpa only [same]

theorem Inside.next (inside : Inside buffer.length start known fpc p) :
    Inside buffer.length start known (fpc + 1) p :=
  { inside with
    mark := Nat.le_succ_of_le inside.mark, field := Nat.le_succ_of_le inside.field }

end Act

/-! ### A call -/

section Call

variable {p : HttpResponseParser} {data : Bytes}

/-- What a call begins with. -/
def begun (p : HttpResponseParser) (chunck : Bool) : HttpResponseParser :=
  if chunck then { p with parser := .init p.parser.status } else p

theorem execute_eq (p : HttpResponseParser) (data : Bytes) (chunck : Bool) :
    p.execute data chunck = (p.begun chunck).executeBuffer data := by
  cases chunck <;> rfl

end Call

/-- A line of digits behind an empty `Content-Length`: its name is longer than the data. -/
theorem digits_behind_empty_length :
    (HttpResponseParser.init 0).execute
      (bytes "HTTP/1.1 200 OK\x0d\nContent-Length:\x0d\n1\x0d\n") false = .fault := by
  decide +kernel

end HttpResponseParser

end Dwframe.Http
