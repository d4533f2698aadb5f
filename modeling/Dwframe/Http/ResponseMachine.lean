import Dwframe.Lib.Transducer

/-!
# The response machine

The transitions of the generated `httpclient_parser.rl.cc`, state by state: in each row first the
bytes that have an edge of their own, then the ranges. It reads the head of a response, or the
line in front of a chunk. The names `connection`, `transfer-encoding` and `content-length` have
states of their own, as has a value that one of them asks for.
-/
open Dwframe.Lib

namespace Dwframe.Http

/-- The actions of `httpclient_parser.rl`. -/
inductive ClientAction where
  | mark
  | startField
  | writeField
  | startValue
  | writeContentLen
  | writeConnectionClose
  | writeValue
  | reasonPhrase
  | statusCode
  | httpVersion
  | chunkSize
  | transChunked
  | done
  deriving DecidableEq, Repr

namespace ClientTable

/-- `httpclient_parser_start`, `httpclient_parser_first_final`, `httpclient_parser_error`. -/
def startState : Nat := 1

def firstFinal : Nat := 120

def errorState : Nat := 0

abbrev Row := List (RangeEdge ClientAction)

/-- A letter in either case. -/
def letter (upper target : Nat) (actions : List ClientAction) : Row :=
  [⟨upper, upper, target, actions⟩, ⟨upper + 32, upper + 32, target, actions⟩]

/-- The characters of a `token`. -/
def token (target : Nat) (actions : List ClientAction) : Row :=
  [(33, 33), (35, 39), (42, 43), (45, 46), (48, 57), (65, 90), (94, 122), (124, 124),
    (126, 126)].map fun range => ⟨range.1, range.2, target, actions⟩

/-- Inside a field name; some bytes go on with a name that the grammar knows. -/
def fieldName (colon : Nat) (known : Row) : Row :=
  known ++ ⟨58, 58, colon, [.writeField]⟩ :: token 21 []

/-- Between the colon and the value. -/
def beforeValue (state lf cr : Nat) (known : Row) : Row :=
  [⟨9, 9, state, [.startValue]⟩, ⟨10, 10, lf, [.startValue, .writeValue]⟩,
    ⟨11, 12, state, [.startValue]⟩, ⟨13, 13, cr, [.startValue, .writeValue]⟩,
    ⟨32, 32, state, [.startValue]⟩] ++ known ++ [⟨0, 255, 23, [.startValue]⟩]

/-- Inside a value. -/
def fieldValue (lf cr : Nat) (ends : List ClientAction) (known : Row) : Row :=
  [⟨10, 10, lf, ends⟩, ⟨13, 13, cr, ends⟩] ++ known ++ [⟨0, 255, 23, []⟩]

/-- States 1 to 24. -/
def rows1 : List Row :=
  [
    [⟨48, 57, 2, [.mark]⟩, ⟨65, 70, 2, [.mark]⟩, ⟨72, 72, 8, [.mark]⟩, ⟨97, 102, 2, [.mark]⟩],
    [⟨10, 10, 120, [.chunkSize, .done]⟩, ⟨13, 13, 3, [.chunkSize]⟩, ⟨48, 57, 2, []⟩,
     ⟨59, 59, 4, [.chunkSize]⟩, ⟨65, 70, 2, []⟩, ⟨97, 102, 2, []⟩],
    [⟨10, 10, 120, [.done]⟩],
    token 5 [.startField],
    [⟨10, 10, 120, [.writeField, .startValue, .writeValue, .done]⟩,
     ⟨13, 13, 3, [.writeField, .startValue, .writeValue]⟩,
     ⟨59, 59, 4, [.writeField, .startValue, .writeValue]⟩,
     ⟨61, 61, 6, [.writeField, .startValue]⟩] ++ token 5 [],
    token 7 [.startValue],
    [⟨10, 10, 120, [.writeValue, .done]⟩, ⟨13, 13, 3, [.writeValue]⟩,
     ⟨59, 59, 4, [.writeValue]⟩] ++ token 7 [],
    [⟨84, 84, 9, []⟩],
    [⟨84, 84, 10, []⟩],
    [⟨80, 80, 11, []⟩],
    [⟨47, 47, 12, []⟩],
    [⟨48, 57, 13, []⟩],
    [⟨46, 46, 14, []⟩, ⟨48, 57, 13, []⟩],
    [⟨48, 57, 15, []⟩],
    [⟨32, 32, 16, [.httpVersion]⟩, ⟨48, 57, 15, []⟩],
    [⟨48, 57, 17, [.mark]⟩],
    [⟨32, 32, 18, [.statusCode]⟩, ⟨48, 57, 17, []⟩],
    [⟨0, 9, 19, [.mark]⟩, ⟨11, 255, 19, [.mark]⟩],
    [⟨10, 10, 20, [.reasonPhrase]⟩, ⟨13, 13, 24, [.reasonPhrase]⟩] ++ [⟨0, 255, 19, []⟩],
    [⟨10, 10, 120, [.done]⟩, ⟨13, 13, 3, []⟩] ++ letter 67 25 [.startField] ++
     letter 84 44 [.startField] ++ token 21 [.startField],
    fieldName 22 [],
    beforeValue 22 20 24 [],
    fieldValue 20 24 [.writeValue] [],
    [⟨10, 10, 20, []⟩]
  ]

/-- States 25 to 43. -/
def rows25 : List Row :=
  [
    fieldName 22 (letter 79 26 []),
    fieldName 22 (letter 78 27 []),
    fieldName 22 (letter 78 28 [] ++ letter 84 101 []),
    fieldName 22 (letter 69 29 []),
    fieldName 22 (letter 67 30 []),
    fieldName 22 (letter 84 31 []),
    fieldName 22 (letter 73 32 []),
    fieldName 22 (letter 79 33 []),
    fieldName 22 (letter 78 34 []),
    fieldName 35 [],
    beforeValue 35 36 95 (letter 67 96 [.startValue]),
    [⟨9, 9, 37, []⟩, ⟨10, 10, 122, [.done]⟩, ⟨11, 12, 37, []⟩, ⟨13, 13, 89, []⟩,
     ⟨32, 32, 37, []⟩] ++ letter 67 90 [.startField] ++ letter 84 44 [.startField] ++
     token 21 [.startField],
    [⟨9, 13, 37, []⟩, ⟨32, 32, 37, []⟩] ++ letter 67 38 [],
    letter 76 39 [],
    letter 79 40 [],
    letter 83 41 [],
    letter 69 42 [],
    [⟨10, 10, 43, []⟩, ⟨13, 13, 88, []⟩],
    [⟨10, 10, 120, [.writeConnectionClose, .done]⟩, ⟨13, 13, 3, [.writeConnectionClose]⟩] ++
     letter 67 25 [.writeConnectionClose, .startField] ++
     letter 84 44 [.writeConnectionClose, .startField] ++
     token 21 [.writeConnectionClose, .startField]
  ]

/-- States 44 to 60. -/
def rows44 : List Row :=
  [
    fieldName 22 (letter 82 45 []),
    fieldName 22 (letter 65 46 []),
    fieldName 22 (letter 78 47 []),
    fieldName 22 (letter 83 48 []),
    fieldName 22 (letter 70 49 []),
    fieldName 22 (letter 69 50 []),
    fieldName 22 (letter 82 51 []),
    fieldName 22 [⟨45, 45, 52, []⟩],
    fieldName 22 (letter 69 53 []),
    fieldName 22 (letter 78 54 []),
    fieldName 22 (letter 67 55 []),
    fieldName 22 (letter 79 56 []),
    fieldName 22 (letter 68 57 []),
    fieldName 22 (letter 73 58 []),
    fieldName 22 (letter 78 59 []),
    fieldName 22 (letter 71 60 []),
    fieldName 61 []
  ]

/-- States 61 to 79. -/
def rows61 : List Row :=
  [
    beforeValue 61 62 80 (letter 67 81 [.startValue]),
    [⟨9, 9, 63, []⟩, ⟨10, 10, 121, [.done]⟩, ⟨11, 12, 63, []⟩, ⟨13, 13, 72, []⟩,
     ⟨32, 32, 63, []⟩] ++ letter 67 73 [.startValue, .startField] ++
     letter 84 44 [.startField] ++ token 21 [.startField],
    [⟨9, 13, 63, []⟩, ⟨32, 32, 63, []⟩] ++ letter 67 64 [.startValue],
    letter 72 65 [],
    letter 85 66 [],
    letter 78 67 [],
    letter 75 68 [],
    letter 69 69 [],
    letter 68 70 [],
    [⟨10, 10, 20, [.writeValue, .transChunked]⟩, ⟨13, 13, 71, [.writeValue]⟩],
    [⟨10, 10, 20, [.transChunked]⟩],
    [⟨9, 9, 63, []⟩, ⟨10, 10, 121, [.done]⟩, ⟨11, 13, 63, []⟩, ⟨32, 32, 63, []⟩] ++
     letter 67 64 [.startValue],
    fieldName 22 (letter 72 74 [] ++ letter 79 26 []),
    fieldName 22 (letter 85 75 []),
    fieldName 22 (letter 78 76 []),
    fieldName 22 (letter 75 77 []),
    fieldName 22 (letter 69 78 []),
    fieldName 22 (letter 68 79 []),
    fieldName 22 [⟨10, 10, 20, [.writeValue, .transChunked]⟩, ⟨13, 13, 71, [.writeValue]⟩]
  ]

/-- States 80 to 100. -/
def rows80 : List Row :=
  [
    [⟨9, 9, 63, []⟩, ⟨10, 10, 62, []⟩, ⟨11, 13, 63, []⟩, ⟨32, 32, 63, []⟩] ++
     letter 67 64 [.startValue],
    fieldValue 20 24 [.writeValue] (letter 72 82 []),
    fieldValue 20 24 [.writeValue] (letter 85 83 []),
    fieldValue 20 24 [.writeValue] (letter 78 84 []),
    fieldValue 20 24 [.writeValue] (letter 75 85 []),
    fieldValue 20 24 [.writeValue] (letter 69 86 []),
    fieldValue 20 24 [.writeValue] (letter 68 87 []),
    [⟨10, 10, 20, [.writeValue, .transChunked]⟩, ⟨13, 13, 71, [.writeValue]⟩] ++
     [⟨0, 255, 23, []⟩],
    [⟨10, 10, 43, []⟩],
    [⟨9, 9, 37, []⟩, ⟨10, 10, 122, [.done]⟩, ⟨11, 13, 37, []⟩, ⟨32, 32, 37, []⟩] ++
     letter 67 38 [],
    fieldName 22 (letter 76 91 [] ++ letter 79 26 []),
    fieldName 22 (letter 79 92 []),
    fieldName 22 (letter 83 93 []),
    fieldName 22 (letter 69 94 []),
    fieldName 22 [⟨10, 10, 43, []⟩, ⟨13, 13, 88, []⟩],
    [⟨9, 9, 37, []⟩, ⟨10, 10, 36, []⟩, ⟨11, 13, 37, []⟩, ⟨32, 32, 37, []⟩] ++ letter 67 38 [],
    fieldValue 20 24 [.writeValue] (letter 76 97 []),
    fieldValue 20 24 [.writeValue] (letter 79 98 []),
    fieldValue 20 24 [.writeValue] (letter 83 99 []),
    fieldValue 20 24 [.writeValue] (letter 69 100 []),
    fieldValue 43 88 [.writeValue] []
  ]

/-- States 101 to 123. -/
def rows101 : List Row :=
  [
    fieldName 22 (letter 69 102 []),
    fieldName 22 (letter 78 103 []),
    fieldName 22 (letter 84 104 []),
    fieldName 22 [⟨45, 45, 105, []⟩],
    fieldName 22 (letter 76 106 []),
    fieldName 22 (letter 69 107 []),
    fieldName 22 (letter 78 108 []),
    fieldName 22 (letter 71 109 []),
    fieldName 22 (letter 84 110 []),
    fieldName 22 (letter 72 111 []),
    fieldName 112 [],
    beforeValue 112 113 118 [⟨48, 57, 119, [.startValue]⟩],
    [⟨9, 9, 114, []⟩, ⟨10, 10, 123, [.done]⟩, ⟨11, 12, 114, []⟩, ⟨13, 13, 116, []⟩,
     ⟨32, 32, 114, []⟩, ⟨48, 57, 117, [.startValue, .startField]⟩] ++
     letter 67 25 [.startField] ++ letter 84 44 [.startField] ++ token 21 [.startField],
    [⟨9, 13, 114, []⟩, ⟨32, 32, 114, []⟩, ⟨48, 57, 115, [.startValue]⟩],
    [⟨10, 10, 20, [.writeContentLen, .writeValue]⟩,
     ⟨13, 13, 24, [.writeContentLen, .writeValue]⟩, ⟨48, 57, 115, []⟩],
    [⟨9, 9, 114, []⟩, ⟨10, 10, 123, [.done]⟩, ⟨11, 13, 114, []⟩, ⟨32, 32, 114, []⟩,
     ⟨48, 57, 115, [.startValue]⟩],
    fieldName 22 [⟨10, 10, 20, [.writeContentLen, .writeValue]⟩,
      ⟨13, 13, 24, [.writeContentLen, .writeValue]⟩, ⟨48, 57, 117, []⟩],
    [⟨9, 9, 114, []⟩, ⟨10, 10, 113, []⟩, ⟨11, 13, 114, []⟩, ⟨32, 32, 114, []⟩,
     ⟨48, 57, 115, [.startValue]⟩],
    fieldValue 20 24 [.writeContentLen, .writeValue] [⟨48, 57, 119, []⟩],
    [],
    [⟨9, 13, 63, []⟩, ⟨32, 32, 63, []⟩] ++ letter 67 64 [.startValue],
    [⟨9, 13, 37, []⟩, ⟨32, 32, 37, []⟩] ++ letter 67 38 [],
    [⟨9, 13, 114, []⟩, ⟨32, 32, 114, []⟩, ⟨48, 57, 115, [.startValue]⟩]
  ]

def rows : List Row := rows1 ++ rows25 ++ rows44 ++ rows61 ++ rows80 ++ rows101

def row (cs : Nat) : Row := if cs = errorState then [] else (rows[cs - 1]?).getD []

end ClientTable

/-- One byte: the target and the actions, or no edge. -/
def clientDelta : Transducer Nat UInt8 ClientAction := followRanges ClientTable.row

end Dwframe.Http
