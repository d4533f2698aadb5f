import Mathlib.Data.List.Basic

/-!
# The request machine

The transitions of the generated `http11_parser.rl.cc`, state by state. A byte leads along the
first edge whose range contains it; a byte without an edge is an error. `more_delims` are
edges only when `uri_relaxed` is set.
-/
namespace Dwframe.Http

/-- The actions of `http11_parser.rl`. -/
inductive ParserAction where
  | mark
  | startField
  | writeField
  | startValue
  | writeValue
  | requestMethod
  | requestUri
  | fragment
  | startQuery
  | queryString
  | httpVersion
  | requestPath
  | done
  | xml
  | json
  deriving DecidableEq, Repr

/-- For bytes in `lo`..`hi`: go to `target` and perform the actions. -/
structure Edge where
  lo : Nat
  hi : Nat
  target : Nat
  actions : List ParserAction
  deriving DecidableEq, Repr

/-- `http_parser_start`, `http_parser_first_final`, `http_parser_error`. -/
def startState : Nat := 1

def firstFinal : Nat := 348

def errorState : Nat := 0

namespace Table

/-- States 1 to 50. -/
def states1 : List (List Edge) :=
  [
    [⟨48, 57, 2, [.mark]⟩, ⟨60, 60, 194, [.mark]⟩, ⟨64, 64, 198, [.mark]⟩, ⟨65, 90, 2, [.mark]⟩],
    [⟨32, 32, 3, [.requestMethod]⟩, ⟨48, 57, 175, []⟩, ⟨65, 90, 175, []⟩],
    [⟨32, 32, 4, [.mark, .requestPath, .requestUri]⟩, ⟨33, 33, 19, [.mark]⟩,
     ⟨35, 35, 20, [.mark, .requestPath, .requestUri]⟩, ⟨36, 36, 19, [.mark]⟩,
     ⟨37, 37, 24, [.mark]⟩, ⟨38, 46, 19, [.mark]⟩, ⟨47, 47, 33, [.mark]⟩, ⟨48, 57, 19, [.mark]⟩,
     ⟨59, 59, 19, [.mark]⟩, ⟨61, 61, 19, [.mark]⟩, ⟨63, 63, 29, [.mark, .requestPath]⟩,
     ⟨64, 64, 19, [.mark]⟩, ⟨65, 90, 173, [.mark]⟩, ⟨95, 95, 19, [.mark]⟩,
     ⟨97, 122, 173, [.mark]⟩, ⟨126, 126, 19, [.mark]⟩],
    [⟨72, 72, 5, [.mark]⟩],
    [⟨84, 84, 6, []⟩],
    [⟨84, 84, 7, []⟩],
    [⟨80, 80, 8, []⟩],
    [⟨47, 47, 9, []⟩],
    [⟨49, 49, 10, []⟩],
    [⟨46, 46, 11, []⟩],
    [⟨48, 49, 12, []⟩],
    [⟨10, 10, 13, [.httpVersion]⟩, ⟨13, 13, 17, [.httpVersion]⟩],
    [⟨1, 8, 14, [.startField]⟩, ⟨10, 10, 348, [.startField, .done]⟩, ⟨11, 12, 14, [.startField]⟩,
     ⟨13, 13, 18, [.startField]⟩, ⟨14, 31, 14, [.startField]⟩, ⟨33, 33, 14, [.startField]⟩,
     ⟨35, 39, 14, [.startField]⟩, ⟨42, 43, 14, [.startField]⟩, ⟨45, 46, 14, [.startField]⟩,
     ⟨48, 57, 14, [.startField]⟩, ⟨65, 90, 14, [.startField]⟩, ⟨94, 122, 14, [.startField]⟩,
     ⟨124, 124, 14, [.startField]⟩, ⟨126, 126, 14, [.startField]⟩],
    [⟨1, 8, 14, []⟩, ⟨10, 31, 14, []⟩, ⟨33, 33, 14, []⟩, ⟨35, 39, 14, []⟩, ⟨42, 43, 14, []⟩,
     ⟨45, 46, 14, []⟩, ⟨48, 57, 14, []⟩, ⟨58, 58, 15, [.writeField]⟩, ⟨65, 90, 14, []⟩,
     ⟨94, 122, 14, []⟩, ⟨124, 124, 14, []⟩, ⟨126, 126, 14, []⟩],
    [⟨1, 8, 16, [.startValue]⟩, ⟨9, 9, 15, [.startValue]⟩,
     ⟨10, 10, 13, [.startValue, .writeValue]⟩, ⟨11, 12, 16, [.startValue]⟩,
     ⟨13, 13, 17, [.startValue, .writeValue]⟩, ⟨14, 31, 16, [.startValue]⟩,
     ⟨32, 32, 15, [.startValue]⟩, ⟨33, 126, 16, [.startValue]⟩, ⟨128, 255, 16, [.startValue]⟩],
    [⟨1, 9, 16, []⟩, ⟨10, 10, 13, [.writeValue]⟩, ⟨11, 12, 16, []⟩, ⟨13, 13, 17, [.writeValue]⟩,
     ⟨14, 126, 16, []⟩, ⟨128, 255, 16, []⟩],
    [⟨10, 10, 13, []⟩],
    [⟨1, 8, 14, []⟩, ⟨10, 10, 348, [.done]⟩, ⟨11, 31, 14, []⟩, ⟨33, 33, 14, []⟩, ⟨35, 39, 14, []⟩,
     ⟨42, 43, 14, []⟩, ⟨45, 46, 14, []⟩, ⟨48, 57, 14, []⟩, ⟨58, 58, 15, [.writeField]⟩,
     ⟨65, 90, 14, []⟩, ⟨94, 122, 14, []⟩, ⟨124, 124, 14, []⟩, ⟨126, 126, 14, []⟩],
    [⟨32, 32, 4, [.requestPath, .requestUri]⟩, ⟨33, 33, 19, []⟩,
     ⟨35, 35, 20, [.requestPath, .requestUri]⟩, ⟨36, 36, 19, []⟩, ⟨37, 37, 24, []⟩,
     ⟨38, 46, 19, []⟩, ⟨47, 47, 26, []⟩, ⟨48, 57, 19, []⟩, ⟨59, 59, 19, []⟩, ⟨61, 61, 19, []⟩,
     ⟨63, 63, 29, [.requestPath]⟩, ⟨64, 90, 19, []⟩, ⟨95, 95, 19, []⟩, ⟨97, 122, 19, []⟩,
     ⟨126, 126, 19, []⟩],
    [⟨32, 32, 4, [.mark, .fragment]⟩, ⟨33, 33, 21, [.mark]⟩, ⟨36, 36, 21, [.mark]⟩,
     ⟨37, 37, 22, [.mark]⟩, ⟨38, 59, 21, [.mark]⟩, ⟨61, 61, 21, [.mark]⟩, ⟨63, 90, 21, [.mark]⟩,
     ⟨95, 95, 21, [.mark]⟩, ⟨97, 122, 21, [.mark]⟩, ⟨126, 126, 21, [.mark]⟩,
     ⟨128, 255, 21, [.mark]⟩],
    [⟨32, 32, 4, [.fragment]⟩, ⟨33, 33, 21, []⟩, ⟨36, 36, 21, []⟩, ⟨37, 37, 22, []⟩,
     ⟨38, 59, 21, []⟩, ⟨61, 61, 21, []⟩, ⟨63, 90, 21, []⟩, ⟨95, 95, 21, []⟩, ⟨97, 122, 21, []⟩,
     ⟨126, 126, 21, []⟩, ⟨128, 255, 21, []⟩],
    [⟨48, 57, 23, []⟩, ⟨65, 70, 23, []⟩, ⟨97, 102, 23, []⟩],
    [⟨48, 57, 21, []⟩, ⟨65, 70, 21, []⟩, ⟨97, 102, 21, []⟩],
    [⟨48, 57, 25, []⟩, ⟨65, 70, 25, []⟩, ⟨97, 102, 25, []⟩],
    [⟨48, 57, 19, []⟩, ⟨65, 70, 19, []⟩, ⟨97, 102, 19, []⟩],
    [⟨32, 32, 4, [.requestPath, .requestUri]⟩, ⟨33, 33, 26, []⟩,
     ⟨35, 35, 20, [.requestPath, .requestUri]⟩, ⟨36, 36, 26, []⟩, ⟨37, 37, 27, []⟩,
     ⟨38, 59, 26, []⟩, ⟨61, 61, 26, []⟩, ⟨63, 63, 29, [.requestPath]⟩, ⟨64, 90, 26, []⟩,
     ⟨95, 95, 26, []⟩, ⟨97, 122, 26, []⟩, ⟨126, 126, 26, []⟩, ⟨128, 255, 26, []⟩],
    [⟨48, 57, 28, []⟩, ⟨65, 70, 28, []⟩, ⟨97, 102, 28, []⟩],
    [⟨48, 57, 26, []⟩, ⟨65, 70, 26, []⟩, ⟨97, 102, 26, []⟩],
    [⟨32, 32, 4, [.startQuery, .queryString, .requestUri]⟩, ⟨33, 33, 30, [.startQuery]⟩,
     ⟨35, 35, 20, [.startQuery, .queryString, .requestUri]⟩, ⟨36, 36, 30, [.startQuery]⟩,
     ⟨37, 37, 31, [.startQuery]⟩, ⟨38, 59, 30, [.startQuery]⟩, ⟨61, 61, 30, [.startQuery]⟩,
     ⟨63, 90, 30, [.startQuery]⟩, ⟨95, 95, 30, [.startQuery]⟩, ⟨97, 122, 30, [.startQuery]⟩,
     ⟨126, 126, 30, [.startQuery]⟩, ⟨128, 255, 30, [.startQuery]⟩],
    [⟨32, 32, 4, [.queryString, .requestUri]⟩, ⟨33, 33, 30, []⟩,
     ⟨35, 35, 20, [.queryString, .requestUri]⟩, ⟨36, 36, 30, []⟩, ⟨37, 37, 31, []⟩,
     ⟨38, 59, 30, []⟩, ⟨61, 61, 30, []⟩, ⟨63, 90, 30, []⟩, ⟨95, 95, 30, []⟩, ⟨97, 122, 30, []⟩,
     ⟨126, 126, 30, []⟩, ⟨128, 255, 30, []⟩],
    [⟨48, 57, 32, []⟩, ⟨65, 70, 32, []⟩, ⟨97, 102, 32, []⟩],
    [⟨48, 57, 30, []⟩, ⟨65, 70, 30, []⟩, ⟨97, 102, 30, []⟩],
    [⟨32, 32, 4, [.requestPath, .requestUri]⟩, ⟨33, 33, 26, []⟩,
     ⟨35, 35, 20, [.requestPath, .requestUri]⟩, ⟨36, 36, 26, []⟩, ⟨37, 37, 27, []⟩,
     ⟨38, 46, 26, []⟩, ⟨47, 47, 34, []⟩, ⟨48, 59, 26, []⟩, ⟨61, 61, 26, []⟩,
     ⟨63, 63, 29, [.requestPath]⟩, ⟨64, 90, 26, []⟩, ⟨95, 95, 26, []⟩, ⟨97, 122, 26, []⟩,
     ⟨126, 126, 26, []⟩, ⟨128, 255, 26, []⟩],
    [⟨32, 32, 4, [.requestPath, .requestUri]⟩, ⟨33, 33, 35, []⟩,
     ⟨35, 35, 20, [.requestPath, .requestUri]⟩, ⟨36, 36, 35, []⟩, ⟨37, 37, 36, []⟩,
     ⟨38, 46, 35, []⟩, ⟨47, 47, 26, []⟩, ⟨48, 57, 35, []⟩, ⟨58, 58, 38, []⟩, ⟨59, 59, 35, []⟩,
     ⟨61, 61, 35, []⟩, ⟨63, 63, 29, [.requestPath]⟩, ⟨64, 64, 42, []⟩, ⟨65, 90, 35, []⟩,
     ⟨91, 91, 47, []⟩, ⟨95, 95, 35, []⟩, ⟨97, 122, 35, []⟩, ⟨126, 126, 35, []⟩],
    [⟨32, 32, 4, [.requestPath, .requestUri]⟩, ⟨33, 33, 35, []⟩,
     ⟨35, 35, 20, [.requestPath, .requestUri]⟩, ⟨36, 36, 35, []⟩, ⟨37, 37, 36, []⟩,
     ⟨38, 46, 35, []⟩, ⟨47, 47, 26, []⟩, ⟨48, 57, 35, []⟩, ⟨58, 58, 38, []⟩, ⟨59, 59, 35, []⟩,
     ⟨61, 61, 35, []⟩, ⟨63, 63, 29, [.requestPath]⟩, ⟨64, 64, 42, []⟩, ⟨65, 90, 35, []⟩,
     ⟨95, 95, 35, []⟩, ⟨97, 122, 35, []⟩, ⟨126, 126, 35, []⟩],
    [⟨48, 57, 37, []⟩, ⟨65, 70, 37, []⟩, ⟨97, 102, 37, []⟩],
    [⟨48, 57, 35, []⟩, ⟨65, 70, 35, []⟩, ⟨97, 102, 35, []⟩],
    [⟨32, 32, 4, [.requestPath, .requestUri]⟩, ⟨33, 33, 39, []⟩,
     ⟨35, 35, 20, [.requestPath, .requestUri]⟩, ⟨36, 36, 39, []⟩, ⟨37, 37, 40, []⟩,
     ⟨38, 46, 39, []⟩, ⟨47, 47, 26, []⟩, ⟨48, 57, 38, []⟩, ⟨58, 59, 39, []⟩, ⟨61, 61, 39, []⟩,
     ⟨63, 63, 29, [.requestPath]⟩, ⟨64, 64, 42, []⟩, ⟨65, 90, 39, []⟩, ⟨95, 95, 39, []⟩,
     ⟨97, 122, 39, []⟩, ⟨126, 126, 39, []⟩],
    [⟨33, 33, 39, []⟩, ⟨36, 36, 39, []⟩, ⟨37, 37, 40, []⟩, ⟨38, 46, 39, []⟩, ⟨48, 59, 39, []⟩,
     ⟨61, 61, 39, []⟩, ⟨64, 64, 42, []⟩, ⟨65, 90, 39, []⟩, ⟨95, 95, 39, []⟩, ⟨97, 122, 39, []⟩,
     ⟨126, 126, 39, []⟩],
    [⟨48, 57, 41, []⟩, ⟨65, 70, 41, []⟩, ⟨97, 102, 41, []⟩],
    [⟨48, 57, 39, []⟩, ⟨65, 70, 39, []⟩, ⟨97, 102, 39, []⟩],
    [⟨32, 32, 4, [.requestPath, .requestUri]⟩, ⟨33, 33, 43, []⟩,
     ⟨35, 35, 20, [.requestPath, .requestUri]⟩, ⟨36, 36, 43, []⟩, ⟨37, 37, 44, []⟩,
     ⟨38, 46, 43, []⟩, ⟨47, 47, 26, []⟩, ⟨48, 57, 43, []⟩, ⟨58, 58, 46, []⟩, ⟨59, 59, 43, []⟩,
     ⟨61, 61, 43, []⟩, ⟨63, 63, 29, [.requestPath]⟩, ⟨65, 90, 43, []⟩, ⟨91, 91, 47, []⟩,
     ⟨95, 95, 43, []⟩, ⟨97, 122, 43, []⟩, ⟨126, 126, 43, []⟩],
    [⟨32, 32, 4, [.requestPath, .requestUri]⟩, ⟨33, 33, 43, []⟩,
     ⟨35, 35, 20, [.requestPath, .requestUri]⟩, ⟨36, 36, 43, []⟩, ⟨37, 37, 44, []⟩,
     ⟨38, 46, 43, []⟩, ⟨47, 47, 26, []⟩, ⟨48, 57, 43, []⟩, ⟨58, 58, 46, []⟩, ⟨59, 59, 43, []⟩,
     ⟨61, 61, 43, []⟩, ⟨63, 63, 29, [.requestPath]⟩, ⟨65, 90, 43, []⟩, ⟨95, 95, 43, []⟩,
     ⟨97, 122, 43, []⟩, ⟨126, 126, 43, []⟩],
    [⟨48, 57, 45, []⟩, ⟨65, 70, 45, []⟩, ⟨97, 102, 45, []⟩],
    [⟨48, 57, 43, []⟩, ⟨65, 70, 43, []⟩, ⟨97, 102, 43, []⟩],
    [⟨32, 32, 4, [.requestPath, .requestUri]⟩, ⟨35, 35, 20, [.requestPath, .requestUri]⟩,
     ⟨47, 47, 26, []⟩, ⟨48, 57, 46, []⟩, ⟨63, 63, 29, [.requestPath]⟩],
    [⟨6, 6, 48, []⟩, ⟨48, 57, 91, []⟩, ⟨58, 58, 167, []⟩, ⟨65, 70, 91, []⟩, ⟨97, 102, 91, []⟩,
     ⟨118, 118, 169, []⟩],
    [⟨48, 57, 49, []⟩, ⟨65, 70, 49, []⟩, ⟨97, 102, 49, []⟩],
    [⟨48, 57, 50, []⟩, ⟨58, 58, 53, []⟩, ⟨65, 70, 50, []⟩, ⟨97, 102, 50, []⟩],
    [⟨48, 57, 51, []⟩, ⟨58, 58, 53, []⟩, ⟨65, 70, 51, []⟩, ⟨97, 102, 51, []⟩]
  ]

/-- States 51 to 100. -/
def states51 : List (List Edge) :=
  [
    [⟨48, 57, 52, []⟩, ⟨58, 58, 53, []⟩, ⟨65, 70, 52, []⟩, ⟨97, 102, 52, []⟩],
    [⟨58, 58, 53, []⟩],
    [⟨48, 48, 54, []⟩, ⟨49, 49, 84, []⟩, ⟨50, 50, 87, []⟩, ⟨51, 57, 54, []⟩, ⟨65, 70, 90, []⟩,
     ⟨97, 102, 90, []⟩],
    [⟨46, 46, 55, []⟩, ⟨48, 57, 77, []⟩, ⟨58, 58, 80, []⟩, ⟨65, 70, 77, []⟩, ⟨97, 102, 77, []⟩],
    [⟨48, 48, 56, []⟩, ⟨49, 49, 72, []⟩, ⟨50, 50, 74, []⟩, ⟨51, 57, 56, []⟩],
    [⟨46, 46, 57, []⟩],
    [⟨48, 48, 58, []⟩, ⟨49, 49, 67, []⟩, ⟨50, 50, 69, []⟩, ⟨51, 57, 58, []⟩],
    [⟨46, 46, 59, []⟩],
    [⟨48, 48, 60, []⟩, ⟨49, 49, 62, []⟩, ⟨50, 50, 64, []⟩, ⟨51, 57, 60, []⟩],
    [⟨93, 93, 61, []⟩],
    [⟨32, 32, 4, [.requestPath, .requestUri]⟩, ⟨35, 35, 20, [.requestPath, .requestUri]⟩,
     ⟨47, 47, 26, []⟩, ⟨58, 58, 46, []⟩, ⟨63, 63, 29, [.requestPath]⟩],
    [⟨48, 57, 63, []⟩, ⟨93, 93, 61, []⟩],
    [⟨48, 57, 60, []⟩, ⟨93, 93, 61, []⟩],
    [⟨48, 48, 65, []⟩, ⟨53, 53, 66, []⟩, ⟨93, 93, 61, []⟩],
    [⟨48, 57, 60, []⟩],
    [⟨48, 48, 60, []⟩],
    [⟨46, 46, 59, []⟩, ⟨48, 57, 68, []⟩],
    [⟨46, 46, 59, []⟩, ⟨48, 57, 58, []⟩],
    [⟨46, 46, 59, []⟩, ⟨48, 48, 70, []⟩, ⟨53, 53, 71, []⟩],
    [⟨48, 57, 58, []⟩],
    [⟨48, 48, 58, []⟩],
    [⟨46, 46, 57, []⟩, ⟨48, 57, 73, []⟩],
    [⟨46, 46, 57, []⟩, ⟨48, 57, 56, []⟩],
    [⟨46, 46, 57, []⟩, ⟨48, 48, 75, []⟩, ⟨53, 53, 76, []⟩],
    [⟨48, 57, 56, []⟩],
    [⟨48, 48, 56, []⟩],
    [⟨48, 57, 78, []⟩, ⟨58, 58, 80, []⟩, ⟨65, 70, 78, []⟩, ⟨97, 102, 78, []⟩],
    [⟨48, 57, 79, []⟩, ⟨58, 58, 80, []⟩, ⟨65, 70, 79, []⟩, ⟨97, 102, 79, []⟩],
    [⟨58, 58, 80, []⟩],
    [⟨48, 57, 81, []⟩, ⟨65, 70, 81, []⟩, ⟨97, 102, 81, []⟩],
    [⟨48, 57, 82, []⟩, ⟨65, 70, 82, []⟩, ⟨93, 93, 61, []⟩, ⟨97, 102, 82, []⟩],
    [⟨48, 57, 83, []⟩, ⟨65, 70, 83, []⟩, ⟨93, 93, 61, []⟩, ⟨97, 102, 83, []⟩],
    [⟨48, 57, 60, []⟩, ⟨65, 70, 60, []⟩, ⟨93, 93, 61, []⟩, ⟨97, 102, 60, []⟩],
    [⟨46, 46, 55, []⟩, ⟨48, 57, 85, []⟩, ⟨58, 58, 80, []⟩, ⟨65, 70, 77, []⟩, ⟨97, 102, 77, []⟩],
    [⟨46, 46, 55, []⟩, ⟨48, 57, 86, []⟩, ⟨58, 58, 80, []⟩, ⟨65, 70, 78, []⟩, ⟨97, 102, 78, []⟩],
    [⟨46, 46, 55, []⟩, ⟨48, 57, 79, []⟩, ⟨58, 58, 80, []⟩, ⟨65, 70, 79, []⟩, ⟨97, 102, 79, []⟩],
    [⟨46, 46, 55, []⟩, ⟨48, 48, 88, []⟩, ⟨49, 52, 77, []⟩, ⟨53, 53, 89, []⟩, ⟨54, 57, 77, []⟩,
     ⟨58, 58, 80, []⟩, ⟨65, 70, 77, []⟩, ⟨97, 102, 77, []⟩],
    [⟨48, 57, 86, []⟩, ⟨58, 58, 80, []⟩, ⟨65, 70, 78, []⟩, ⟨97, 102, 78, []⟩],
    [⟨48, 48, 86, []⟩, ⟨49, 57, 78, []⟩, ⟨58, 58, 80, []⟩, ⟨65, 70, 78, []⟩, ⟨97, 102, 78, []⟩],
    [⟨48, 57, 77, []⟩, ⟨58, 58, 80, []⟩, ⟨65, 70, 77, []⟩, ⟨97, 102, 77, []⟩],
    [⟨48, 57, 92, []⟩, ⟨58, 58, 95, []⟩, ⟨65, 70, 92, []⟩, ⟨97, 102, 92, []⟩],
    [⟨48, 57, 93, []⟩, ⟨58, 58, 95, []⟩, ⟨65, 70, 93, []⟩, ⟨97, 102, 93, []⟩],
    [⟨48, 57, 94, []⟩, ⟨58, 58, 95, []⟩, ⟨65, 70, 94, []⟩, ⟨97, 102, 94, []⟩],
    [⟨58, 58, 95, []⟩],
    [⟨48, 57, 96, []⟩, ⟨58, 58, 166, []⟩, ⟨65, 70, 96, []⟩, ⟨97, 102, 96, []⟩],
    [⟨48, 57, 97, []⟩, ⟨58, 58, 100, []⟩, ⟨65, 70, 97, []⟩, ⟨97, 102, 97, []⟩],
    [⟨48, 57, 98, []⟩, ⟨58, 58, 100, []⟩, ⟨65, 70, 98, []⟩, ⟨97, 102, 98, []⟩],
    [⟨48, 57, 99, []⟩, ⟨58, 58, 100, []⟩, ⟨65, 70, 99, []⟩, ⟨97, 102, 99, []⟩],
    [⟨58, 58, 100, []⟩],
    [⟨48, 57, 101, []⟩, ⟨58, 58, 165, []⟩, ⟨65, 70, 101, []⟩, ⟨97, 102, 101, []⟩]
  ]

/-- States 101 to 150. -/
def states101 : List (List Edge) :=
  [
    [⟨48, 57, 102, []⟩, ⟨58, 58, 105, []⟩, ⟨65, 70, 102, []⟩, ⟨97, 102, 102, []⟩],
    [⟨48, 57, 103, []⟩, ⟨58, 58, 105, []⟩, ⟨65, 70, 103, []⟩, ⟨97, 102, 103, []⟩],
    [⟨48, 57, 104, []⟩, ⟨58, 58, 105, []⟩, ⟨65, 70, 104, []⟩, ⟨97, 102, 104, []⟩],
    [⟨58, 58, 105, []⟩],
    [⟨48, 57, 106, []⟩, ⟨58, 58, 164, []⟩, ⟨65, 70, 106, []⟩, ⟨97, 102, 106, []⟩],
    [⟨48, 57, 107, []⟩, ⟨58, 58, 110, []⟩, ⟨65, 70, 107, []⟩, ⟨97, 102, 107, []⟩],
    [⟨48, 57, 108, []⟩, ⟨58, 58, 110, []⟩, ⟨65, 70, 108, []⟩, ⟨97, 102, 108, []⟩],
    [⟨48, 57, 109, []⟩, ⟨58, 58, 110, []⟩, ⟨65, 70, 109, []⟩, ⟨97, 102, 109, []⟩],
    [⟨58, 58, 110, []⟩],
    [⟨48, 57, 111, []⟩, ⟨58, 58, 163, []⟩, ⟨65, 70, 111, []⟩, ⟨97, 102, 111, []⟩],
    [⟨48, 57, 112, []⟩, ⟨58, 58, 115, []⟩, ⟨65, 70, 112, []⟩, ⟨97, 102, 112, []⟩],
    [⟨48, 57, 113, []⟩, ⟨58, 58, 115, []⟩, ⟨65, 70, 113, []⟩, ⟨97, 102, 113, []⟩],
    [⟨48, 57, 114, []⟩, ⟨58, 58, 115, []⟩, ⟨65, 70, 114, []⟩, ⟨97, 102, 114, []⟩],
    [⟨58, 58, 115, []⟩],
    [⟨48, 57, 116, []⟩, ⟨58, 58, 151, []⟩, ⟨65, 70, 116, []⟩, ⟨97, 102, 116, []⟩],
    [⟨48, 57, 117, []⟩, ⟨58, 58, 120, []⟩, ⟨65, 70, 117, []⟩, ⟨97, 102, 117, []⟩],
    [⟨48, 57, 118, []⟩, ⟨58, 58, 120, []⟩, ⟨65, 70, 118, []⟩, ⟨97, 102, 118, []⟩],
    [⟨48, 57, 119, []⟩, ⟨58, 58, 120, []⟩, ⟨65, 70, 119, []⟩, ⟨97, 102, 119, []⟩],
    [⟨58, 58, 120, []⟩],
    [⟨48, 57, 121, []⟩, ⟨58, 58, 150, []⟩, ⟨65, 70, 121, []⟩, ⟨97, 102, 121, []⟩],
    [⟨48, 57, 122, []⟩, ⟨58, 58, 125, []⟩, ⟨65, 70, 122, []⟩, ⟨97, 102, 122, []⟩],
    [⟨48, 57, 123, []⟩, ⟨58, 58, 125, []⟩, ⟨65, 70, 123, []⟩, ⟨97, 102, 123, []⟩],
    [⟨48, 57, 124, []⟩, ⟨58, 58, 125, []⟩, ⟨65, 70, 124, []⟩, ⟨97, 102, 124, []⟩],
    [⟨58, 58, 125, []⟩],
    [⟨48, 57, 121, []⟩, ⟨58, 58, 126, []⟩, ⟨65, 70, 121, []⟩, ⟨97, 102, 121, []⟩],
    [⟨2, 3, 48, []⟩, ⟨48, 48, 127, []⟩, ⟨49, 49, 143, []⟩, ⟨50, 50, 146, []⟩, ⟨51, 57, 127, []⟩,
     ⟨65, 70, 149, []⟩, ⟨93, 93, 61, []⟩, ⟨97, 102, 149, []⟩],
    [⟨46, 46, 55, []⟩, ⟨48, 57, 128, []⟩, ⟨58, 58, 131, []⟩, ⟨65, 70, 128, []⟩, ⟨93, 93, 61, []⟩,
     ⟨97, 102, 128, []⟩],
    [⟨48, 57, 129, []⟩, ⟨58, 58, 131, []⟩, ⟨65, 70, 129, []⟩, ⟨93, 93, 61, []⟩, ⟨97, 102, 129, []⟩],
    [⟨48, 57, 130, []⟩, ⟨58, 58, 131, []⟩, ⟨65, 70, 130, []⟩, ⟨93, 93, 61, []⟩, ⟨97, 102, 130, []⟩],
    [⟨58, 58, 131, []⟩, ⟨93, 93, 61, []⟩],
    [⟨48, 48, 132, []⟩, ⟨49, 49, 136, []⟩, ⟨50, 50, 139, []⟩, ⟨51, 57, 132, []⟩,
     ⟨65, 70, 142, []⟩, ⟨97, 102, 142, []⟩],
    [⟨46, 46, 55, []⟩, ⟨48, 57, 133, []⟩, ⟨58, 58, 80, []⟩, ⟨65, 70, 133, []⟩, ⟨93, 93, 61, []⟩,
     ⟨97, 102, 133, []⟩],
    [⟨48, 57, 134, []⟩, ⟨58, 58, 80, []⟩, ⟨65, 70, 134, []⟩, ⟨93, 93, 61, []⟩, ⟨97, 102, 134, []⟩],
    [⟨48, 57, 135, []⟩, ⟨58, 58, 80, []⟩, ⟨65, 70, 135, []⟩, ⟨93, 93, 61, []⟩, ⟨97, 102, 135, []⟩],
    [⟨58, 58, 80, []⟩, ⟨93, 93, 61, []⟩],
    [⟨46, 46, 55, []⟩, ⟨48, 57, 137, []⟩, ⟨58, 58, 80, []⟩, ⟨65, 70, 133, []⟩, ⟨93, 93, 61, []⟩,
     ⟨97, 102, 133, []⟩],
    [⟨46, 46, 55, []⟩, ⟨48, 57, 138, []⟩, ⟨58, 58, 80, []⟩, ⟨65, 70, 134, []⟩, ⟨93, 93, 61, []⟩,
     ⟨97, 102, 134, []⟩],
    [⟨46, 46, 55, []⟩, ⟨48, 57, 135, []⟩, ⟨58, 58, 80, []⟩, ⟨65, 70, 135, []⟩, ⟨93, 93, 61, []⟩,
     ⟨97, 102, 135, []⟩],
    [⟨46, 46, 55, []⟩, ⟨48, 48, 140, []⟩, ⟨49, 52, 133, []⟩, ⟨53, 53, 141, []⟩, ⟨54, 57, 133, []⟩,
     ⟨58, 58, 80, []⟩, ⟨65, 70, 133, []⟩, ⟨93, 93, 61, []⟩, ⟨97, 102, 133, []⟩],
    [⟨48, 57, 138, []⟩, ⟨58, 58, 80, []⟩, ⟨65, 70, 134, []⟩, ⟨93, 93, 61, []⟩, ⟨97, 102, 134, []⟩],
    [⟨48, 48, 138, []⟩, ⟨49, 57, 134, []⟩, ⟨58, 58, 80, []⟩, ⟨65, 70, 134, []⟩, ⟨93, 93, 61, []⟩,
     ⟨97, 102, 134, []⟩],
    [⟨48, 57, 133, []⟩, ⟨58, 58, 80, []⟩, ⟨65, 70, 133, []⟩, ⟨93, 93, 61, []⟩, ⟨97, 102, 133, []⟩],
    [⟨46, 46, 55, []⟩, ⟨48, 57, 144, []⟩, ⟨58, 58, 131, []⟩, ⟨65, 70, 128, []⟩, ⟨93, 93, 61, []⟩,
     ⟨97, 102, 128, []⟩],
    [⟨46, 46, 55, []⟩, ⟨48, 57, 145, []⟩, ⟨58, 58, 131, []⟩, ⟨65, 70, 129, []⟩, ⟨93, 93, 61, []⟩,
     ⟨97, 102, 129, []⟩],
    [⟨46, 46, 55, []⟩, ⟨48, 57, 130, []⟩, ⟨58, 58, 131, []⟩, ⟨65, 70, 130, []⟩, ⟨93, 93, 61, []⟩,
     ⟨97, 102, 130, []⟩],
    [⟨46, 46, 55, []⟩, ⟨48, 48, 147, []⟩, ⟨49, 52, 128, []⟩, ⟨53, 53, 148, []⟩, ⟨54, 57, 128, []⟩,
     ⟨58, 58, 131, []⟩, ⟨65, 70, 128, []⟩, ⟨93, 93, 61, []⟩, ⟨97, 102, 128, []⟩],
    [⟨48, 57, 145, []⟩, ⟨58, 58, 131, []⟩, ⟨65, 70, 129, []⟩, ⟨93, 93, 61, []⟩, ⟨97, 102, 129, []⟩],
    [⟨48, 48, 145, []⟩, ⟨49, 57, 129, []⟩, ⟨58, 58, 131, []⟩, ⟨65, 70, 129, []⟩, ⟨93, 93, 61, []⟩,
     ⟨97, 102, 129, []⟩],
    [⟨48, 57, 128, []⟩, ⟨58, 58, 131, []⟩, ⟨65, 70, 128, []⟩, ⟨93, 93, 61, []⟩, ⟨97, 102, 128, []⟩],
    [⟨2, 3, 48, []⟩, ⟨48, 48, 127, []⟩, ⟨49, 49, 143, []⟩, ⟨50, 50, 146, []⟩, ⟨51, 57, 127, []⟩,
     ⟨65, 70, 149, []⟩, ⟨97, 102, 149, []⟩]
  ]

/-- States 151 to 200. -/
def states151 : List (List Edge) :=
  [
    [⟨2, 3, 48, []⟩, ⟨48, 48, 152, []⟩, ⟨49, 49, 156, []⟩, ⟨50, 50, 159, []⟩, ⟨51, 57, 152, []⟩,
     ⟨65, 70, 162, []⟩, ⟨97, 102, 162, []⟩],
    [⟨46, 46, 55, []⟩, ⟨48, 57, 153, []⟩, ⟨58, 58, 131, []⟩, ⟨65, 70, 153, []⟩, ⟨97, 102, 153, []⟩],
    [⟨48, 57, 154, []⟩, ⟨58, 58, 131, []⟩, ⟨65, 70, 154, []⟩, ⟨97, 102, 154, []⟩],
    [⟨48, 57, 155, []⟩, ⟨58, 58, 131, []⟩, ⟨65, 70, 155, []⟩, ⟨97, 102, 155, []⟩],
    [⟨58, 58, 131, []⟩],
    [⟨46, 46, 55, []⟩, ⟨48, 57, 157, []⟩, ⟨58, 58, 131, []⟩, ⟨65, 70, 153, []⟩, ⟨97, 102, 153, []⟩],
    [⟨46, 46, 55, []⟩, ⟨48, 57, 158, []⟩, ⟨58, 58, 131, []⟩, ⟨65, 70, 154, []⟩, ⟨97, 102, 154, []⟩],
    [⟨46, 46, 55, []⟩, ⟨48, 57, 155, []⟩, ⟨58, 58, 131, []⟩, ⟨65, 70, 155, []⟩, ⟨97, 102, 155, []⟩],
    [⟨46, 46, 55, []⟩, ⟨48, 48, 160, []⟩, ⟨49, 52, 153, []⟩, ⟨53, 53, 161, []⟩, ⟨54, 57, 153, []⟩,
     ⟨58, 58, 131, []⟩, ⟨65, 70, 153, []⟩, ⟨97, 102, 153, []⟩],
    [⟨48, 57, 158, []⟩, ⟨58, 58, 131, []⟩, ⟨65, 70, 154, []⟩, ⟨97, 102, 154, []⟩],
    [⟨48, 48, 158, []⟩, ⟨49, 57, 154, []⟩, ⟨58, 58, 131, []⟩, ⟨65, 70, 154, []⟩,
     ⟨97, 102, 154, []⟩],
    [⟨48, 57, 153, []⟩, ⟨58, 58, 131, []⟩, ⟨65, 70, 153, []⟩, ⟨97, 102, 153, []⟩],
    [⟨2, 3, 48, []⟩, ⟨48, 57, 49, []⟩, ⟨65, 70, 49, []⟩, ⟨97, 102, 49, []⟩],
    [⟨2, 3, 48, []⟩],
    [⟨3, 3, 48, []⟩],
    [⟨4, 4, 48, []⟩],
    [⟨58, 58, 168, []⟩],
    [⟨2, 5, 48, []⟩, ⟨48, 48, 127, []⟩, ⟨49, 49, 143, []⟩, ⟨50, 50, 146, []⟩, ⟨51, 57, 127, []⟩,
     ⟨65, 70, 149, []⟩, ⟨93, 93, 61, []⟩, ⟨97, 102, 149, []⟩],
    [⟨48, 57, 170, []⟩, ⟨65, 70, 170, []⟩, ⟨97, 102, 170, []⟩],
    [⟨46, 46, 171, []⟩, ⟨48, 57, 170, []⟩, ⟨65, 70, 170, []⟩, ⟨97, 102, 170, []⟩],
    [⟨33, 33, 172, []⟩, ⟨36, 36, 172, []⟩, ⟨38, 46, 172, []⟩, ⟨48, 59, 172, []⟩,
     ⟨61, 61, 172, []⟩, ⟨65, 90, 172, []⟩, ⟨95, 95, 172, []⟩, ⟨97, 122, 172, []⟩,
     ⟨126, 126, 172, []⟩],
    [⟨33, 33, 172, []⟩, ⟨36, 36, 172, []⟩, ⟨38, 46, 172, []⟩, ⟨48, 59, 172, []⟩,
     ⟨61, 61, 172, []⟩, ⟨65, 90, 172, []⟩, ⟨93, 93, 61, []⟩, ⟨95, 95, 172, []⟩,
     ⟨97, 122, 172, []⟩, ⟨126, 126, 172, []⟩],
    [⟨32, 32, 4, [.requestPath, .requestUri]⟩, ⟨33, 33, 19, []⟩,
     ⟨35, 35, 20, [.requestPath, .requestUri]⟩, ⟨36, 36, 19, []⟩, ⟨37, 37, 24, []⟩,
     ⟨38, 42, 19, []⟩, ⟨43, 43, 173, []⟩, ⟨44, 44, 19, []⟩, ⟨45, 46, 173, []⟩, ⟨47, 47, 26, []⟩,
     ⟨48, 57, 173, []⟩, ⟨58, 58, 174, []⟩, ⟨59, 59, 19, []⟩, ⟨61, 61, 19, []⟩,
     ⟨63, 63, 29, [.requestPath]⟩, ⟨64, 64, 19, []⟩, ⟨65, 90, 173, []⟩, ⟨95, 95, 19, []⟩,
     ⟨97, 122, 173, []⟩, ⟨126, 126, 19, []⟩],
    [⟨32, 32, 4, [.mark, .requestPath, .requestUri]⟩, ⟨33, 33, 26, [.mark]⟩,
     ⟨35, 35, 20, [.mark, .requestPath, .requestUri]⟩, ⟨36, 36, 26, [.mark]⟩,
     ⟨37, 37, 27, [.mark]⟩, ⟨38, 46, 26, [.mark]⟩, ⟨47, 47, 33, [.mark]⟩, ⟨48, 59, 26, [.mark]⟩,
     ⟨61, 61, 26, [.mark]⟩, ⟨63, 63, 29, [.mark, .requestPath]⟩, ⟨64, 90, 26, [.mark]⟩,
     ⟨95, 95, 26, [.mark]⟩, ⟨97, 122, 26, [.mark]⟩, ⟨126, 126, 26, [.mark]⟩,
     ⟨128, 255, 26, [.mark]⟩],
    [⟨32, 32, 3, [.requestMethod]⟩, ⟨48, 57, 176, []⟩, ⟨65, 90, 176, []⟩],
    [⟨32, 32, 3, [.requestMethod]⟩, ⟨48, 57, 177, []⟩, ⟨65, 90, 177, []⟩],
    [⟨32, 32, 3, [.requestMethod]⟩, ⟨48, 57, 178, []⟩, ⟨65, 90, 178, []⟩],
    [⟨32, 32, 3, [.requestMethod]⟩, ⟨48, 57, 179, []⟩, ⟨65, 90, 179, []⟩],
    [⟨32, 32, 3, [.requestMethod]⟩, ⟨48, 57, 180, []⟩, ⟨65, 90, 180, []⟩],
    [⟨32, 32, 3, [.requestMethod]⟩, ⟨48, 57, 181, []⟩, ⟨65, 90, 181, []⟩],
    [⟨32, 32, 3, [.requestMethod]⟩, ⟨48, 57, 182, []⟩, ⟨65, 90, 182, []⟩],
    [⟨32, 32, 3, [.requestMethod]⟩, ⟨48, 57, 183, []⟩, ⟨65, 90, 183, []⟩],
    [⟨32, 32, 3, [.requestMethod]⟩, ⟨48, 57, 184, []⟩, ⟨65, 90, 184, []⟩],
    [⟨32, 32, 3, [.requestMethod]⟩, ⟨48, 57, 185, []⟩, ⟨65, 90, 185, []⟩],
    [⟨32, 32, 3, [.requestMethod]⟩, ⟨48, 57, 186, []⟩, ⟨65, 90, 186, []⟩],
    [⟨32, 32, 3, [.requestMethod]⟩, ⟨48, 57, 187, []⟩, ⟨65, 90, 187, []⟩],
    [⟨32, 32, 3, [.requestMethod]⟩, ⟨48, 57, 188, []⟩, ⟨65, 90, 188, []⟩],
    [⟨32, 32, 3, [.requestMethod]⟩, ⟨48, 57, 189, []⟩, ⟨65, 90, 189, []⟩],
    [⟨32, 32, 3, [.requestMethod]⟩, ⟨48, 57, 190, []⟩, ⟨65, 90, 190, []⟩],
    [⟨32, 32, 3, [.requestMethod]⟩, ⟨48, 57, 191, []⟩, ⟨65, 90, 191, []⟩],
    [⟨32, 32, 3, [.requestMethod]⟩, ⟨48, 57, 192, []⟩, ⟨65, 90, 192, []⟩],
    [⟨32, 32, 3, [.requestMethod]⟩, ⟨48, 57, 193, []⟩, ⟨65, 90, 193, []⟩],
    [⟨32, 32, 3, [.requestMethod]⟩],
    [⟨45, 46, 195, []⟩, ⟨48, 57, 195, []⟩, ⟨65, 90, 195, []⟩, ⟨97, 122, 195, []⟩],
    [⟨9, 13, 196, [.requestPath]⟩, ⟨32, 32, 196, [.requestPath]⟩, ⟨45, 46, 195, []⟩,
     ⟨47, 47, 196, [.requestPath]⟩, ⟨48, 57, 195, []⟩, ⟨62, 62, 196, [.requestPath]⟩,
     ⟨65, 90, 195, []⟩, ⟨97, 122, 195, []⟩],
    [⟨0, 61, 196, []⟩, ⟨62, 62, 197, []⟩, ⟨63, 255, 196, []⟩],
    [⟨0, 0, 349, [.xml, .done]⟩, ⟨1, 61, 196, []⟩, ⟨62, 62, 197, []⟩, ⟨63, 255, 196, []⟩],
    [⟨32, 32, 199, [.requestPath]⟩, ⟨33, 33, 202, []⟩, ⟨36, 36, 202, []⟩, ⟨37, 37, 203, []⟩,
     ⟨38, 46, 202, []⟩, ⟨47, 47, 208, []⟩, ⟨48, 57, 202, []⟩, ⟨59, 59, 202, []⟩,
     ⟨61, 61, 202, []⟩, ⟨64, 90, 202, []⟩, ⟨95, 95, 202, []⟩, ⟨97, 122, 202, []⟩,
     ⟨126, 126, 202, []⟩],
    [⟨123, 123, 200, [.mark]⟩],
    [⟨0, 124, 200, []⟩, ⟨125, 125, 201, []⟩, ⟨126, 255, 200, []⟩]
  ]

/-- States 201 to 250. -/
def states201 : List (List Edge) :=
  [
    [⟨0, 0, 349, [.json, .done]⟩, ⟨1, 124, 200, []⟩, ⟨125, 125, 201, []⟩, ⟨126, 255, 200, []⟩],
    [⟨32, 32, 199, [.requestPath]⟩, ⟨33, 33, 202, []⟩, ⟨36, 36, 202, []⟩, ⟨37, 37, 203, []⟩,
     ⟨38, 46, 202, []⟩, ⟨47, 47, 205, []⟩, ⟨48, 57, 202, []⟩, ⟨59, 59, 202, []⟩,
     ⟨61, 61, 202, []⟩, ⟨64, 90, 202, []⟩, ⟨95, 95, 202, []⟩, ⟨97, 122, 202, []⟩,
     ⟨126, 126, 202, []⟩],
    [⟨48, 57, 204, []⟩, ⟨65, 70, 204, []⟩, ⟨97, 102, 204, []⟩],
    [⟨48, 57, 202, []⟩, ⟨65, 70, 202, []⟩, ⟨97, 102, 202, []⟩],
    [⟨32, 32, 199, [.requestPath]⟩, ⟨33, 33, 205, []⟩, ⟨36, 36, 205, []⟩, ⟨37, 37, 206, []⟩,
     ⟨38, 59, 205, []⟩, ⟨61, 61, 205, []⟩, ⟨64, 90, 205, []⟩, ⟨95, 95, 205, []⟩,
     ⟨97, 122, 205, []⟩, ⟨126, 126, 205, []⟩, ⟨128, 255, 205, []⟩],
    [⟨48, 57, 207, []⟩, ⟨65, 70, 207, []⟩, ⟨97, 102, 207, []⟩],
    [⟨48, 57, 205, []⟩, ⟨65, 70, 205, []⟩, ⟨97, 102, 205, []⟩],
    [⟨32, 32, 199, [.requestPath]⟩, ⟨33, 33, 205, []⟩, ⟨36, 36, 205, []⟩, ⟨37, 37, 206, []⟩,
     ⟨38, 46, 205, []⟩, ⟨47, 47, 209, []⟩, ⟨48, 59, 205, []⟩, ⟨61, 61, 205, []⟩,
     ⟨64, 90, 205, []⟩, ⟨95, 95, 205, []⟩, ⟨97, 122, 205, []⟩, ⟨126, 126, 205, []⟩,
     ⟨128, 255, 205, []⟩],
    [⟨32, 32, 199, [.requestPath]⟩, ⟨33, 33, 210, []⟩, ⟨36, 36, 210, []⟩, ⟨37, 37, 211, []⟩,
     ⟨38, 46, 210, []⟩, ⟨47, 47, 205, []⟩, ⟨48, 57, 210, []⟩, ⟨58, 58, 213, []⟩,
     ⟨59, 59, 210, []⟩, ⟨61, 61, 210, []⟩, ⟨64, 64, 217, []⟩, ⟨65, 90, 210, []⟩,
     ⟨91, 91, 222, []⟩, ⟨95, 95, 210, []⟩, ⟨97, 122, 210, []⟩, ⟨126, 126, 210, []⟩],
    [⟨32, 32, 199, [.requestPath]⟩, ⟨33, 33, 210, []⟩, ⟨36, 36, 210, []⟩, ⟨37, 37, 211, []⟩,
     ⟨38, 46, 210, []⟩, ⟨47, 47, 205, []⟩, ⟨48, 57, 210, []⟩, ⟨58, 58, 213, []⟩,
     ⟨59, 59, 210, []⟩, ⟨61, 61, 210, []⟩, ⟨64, 64, 217, []⟩, ⟨65, 90, 210, []⟩,
     ⟨95, 95, 210, []⟩, ⟨97, 122, 210, []⟩, ⟨126, 126, 210, []⟩],
    [⟨48, 57, 212, []⟩, ⟨65, 70, 212, []⟩, ⟨97, 102, 212, []⟩],
    [⟨48, 57, 210, []⟩, ⟨65, 70, 210, []⟩, ⟨97, 102, 210, []⟩],
    [⟨32, 32, 199, [.requestPath]⟩, ⟨33, 33, 214, []⟩, ⟨36, 36, 214, []⟩, ⟨37, 37, 215, []⟩,
     ⟨38, 46, 214, []⟩, ⟨47, 47, 205, []⟩, ⟨48, 57, 213, []⟩, ⟨58, 59, 214, []⟩,
     ⟨61, 61, 214, []⟩, ⟨64, 64, 217, []⟩, ⟨65, 90, 214, []⟩, ⟨95, 95, 214, []⟩,
     ⟨97, 122, 214, []⟩, ⟨126, 126, 214, []⟩],
    [⟨33, 33, 214, []⟩, ⟨36, 36, 214, []⟩, ⟨37, 37, 215, []⟩, ⟨38, 46, 214, []⟩,
     ⟨48, 59, 214, []⟩, ⟨61, 61, 214, []⟩, ⟨64, 64, 217, []⟩, ⟨65, 90, 214, []⟩,
     ⟨95, 95, 214, []⟩, ⟨97, 122, 214, []⟩, ⟨126, 126, 214, []⟩],
    [⟨48, 57, 216, []⟩, ⟨65, 70, 216, []⟩, ⟨97, 102, 216, []⟩],
    [⟨48, 57, 214, []⟩, ⟨65, 70, 214, []⟩, ⟨97, 102, 214, []⟩],
    [⟨32, 32, 199, [.requestPath]⟩, ⟨33, 33, 218, []⟩, ⟨36, 36, 218, []⟩, ⟨37, 37, 219, []⟩,
     ⟨38, 46, 218, []⟩, ⟨47, 47, 205, []⟩, ⟨48, 57, 218, []⟩, ⟨58, 58, 221, []⟩,
     ⟨59, 59, 218, []⟩, ⟨61, 61, 218, []⟩, ⟨65, 90, 218, []⟩, ⟨91, 91, 222, []⟩,
     ⟨95, 95, 218, []⟩, ⟨97, 122, 218, []⟩, ⟨126, 126, 218, []⟩],
    [⟨32, 32, 199, [.requestPath]⟩, ⟨33, 33, 218, []⟩, ⟨36, 36, 218, []⟩, ⟨37, 37, 219, []⟩,
     ⟨38, 46, 218, []⟩, ⟨47, 47, 205, []⟩, ⟨48, 57, 218, []⟩, ⟨58, 58, 221, []⟩,
     ⟨59, 59, 218, []⟩, ⟨61, 61, 218, []⟩, ⟨65, 90, 218, []⟩, ⟨95, 95, 218, []⟩,
     ⟨97, 122, 218, []⟩, ⟨126, 126, 218, []⟩],
    [⟨48, 57, 220, []⟩, ⟨65, 70, 220, []⟩, ⟨97, 102, 220, []⟩],
    [⟨48, 57, 218, []⟩, ⟨65, 70, 218, []⟩, ⟨97, 102, 218, []⟩],
    [⟨32, 32, 199, [.requestPath]⟩, ⟨47, 47, 205, []⟩, ⟨48, 57, 221, []⟩],
    [⟨6, 6, 223, []⟩, ⟨48, 57, 266, []⟩, ⟨58, 58, 342, []⟩, ⟨65, 70, 266, []⟩, ⟨97, 102, 266, []⟩,
     ⟨118, 118, 344, []⟩],
    [⟨48, 57, 224, []⟩, ⟨65, 70, 224, []⟩, ⟨97, 102, 224, []⟩],
    [⟨48, 57, 225, []⟩, ⟨58, 58, 228, []⟩, ⟨65, 70, 225, []⟩, ⟨97, 102, 225, []⟩],
    [⟨48, 57, 226, []⟩, ⟨58, 58, 228, []⟩, ⟨65, 70, 226, []⟩, ⟨97, 102, 226, []⟩],
    [⟨48, 57, 227, []⟩, ⟨58, 58, 228, []⟩, ⟨65, 70, 227, []⟩, ⟨97, 102, 227, []⟩],
    [⟨58, 58, 228, []⟩],
    [⟨48, 48, 229, []⟩, ⟨49, 49, 259, []⟩, ⟨50, 50, 262, []⟩, ⟨51, 57, 229, []⟩,
     ⟨65, 70, 265, []⟩, ⟨97, 102, 265, []⟩],
    [⟨46, 46, 230, []⟩, ⟨48, 57, 252, []⟩, ⟨58, 58, 255, []⟩, ⟨65, 70, 252, []⟩,
     ⟨97, 102, 252, []⟩],
    [⟨48, 48, 231, []⟩, ⟨49, 49, 247, []⟩, ⟨50, 50, 249, []⟩, ⟨51, 57, 231, []⟩],
    [⟨46, 46, 232, []⟩],
    [⟨48, 48, 233, []⟩, ⟨49, 49, 242, []⟩, ⟨50, 50, 244, []⟩, ⟨51, 57, 233, []⟩],
    [⟨46, 46, 234, []⟩],
    [⟨48, 48, 235, []⟩, ⟨49, 49, 237, []⟩, ⟨50, 50, 239, []⟩, ⟨51, 57, 235, []⟩],
    [⟨93, 93, 236, []⟩],
    [⟨32, 32, 199, [.requestPath]⟩, ⟨47, 47, 205, []⟩, ⟨58, 58, 221, []⟩],
    [⟨48, 57, 238, []⟩, ⟨93, 93, 236, []⟩],
    [⟨48, 57, 235, []⟩, ⟨93, 93, 236, []⟩],
    [⟨48, 48, 240, []⟩, ⟨53, 53, 241, []⟩, ⟨93, 93, 236, []⟩],
    [⟨48, 57, 235, []⟩],
    [⟨48, 48, 235, []⟩],
    [⟨46, 46, 234, []⟩, ⟨48, 57, 243, []⟩],
    [⟨46, 46, 234, []⟩, ⟨48, 57, 233, []⟩],
    [⟨46, 46, 234, []⟩, ⟨48, 48, 245, []⟩, ⟨53, 53, 246, []⟩],
    [⟨48, 57, 233, []⟩],
    [⟨48, 48, 233, []⟩],
    [⟨46, 46, 232, []⟩, ⟨48, 57, 248, []⟩],
    [⟨46, 46, 232, []⟩, ⟨48, 57, 231, []⟩],
    [⟨46, 46, 232, []⟩, ⟨48, 48, 250, []⟩, ⟨53, 53, 251, []⟩],
    [⟨48, 57, 231, []⟩]
  ]

/-- States 251 to 300. -/
def states251 : List (List Edge) :=
  [
    [⟨48, 48, 231, []⟩],
    [⟨48, 57, 253, []⟩, ⟨58, 58, 255, []⟩, ⟨65, 70, 253, []⟩, ⟨97, 102, 253, []⟩],
    [⟨48, 57, 254, []⟩, ⟨58, 58, 255, []⟩, ⟨65, 70, 254, []⟩, ⟨97, 102, 254, []⟩],
    [⟨58, 58, 255, []⟩],
    [⟨48, 57, 256, []⟩, ⟨65, 70, 256, []⟩, ⟨97, 102, 256, []⟩],
    [⟨48, 57, 257, []⟩, ⟨65, 70, 257, []⟩, ⟨93, 93, 236, []⟩, ⟨97, 102, 257, []⟩],
    [⟨48, 57, 258, []⟩, ⟨65, 70, 258, []⟩, ⟨93, 93, 236, []⟩, ⟨97, 102, 258, []⟩],
    [⟨48, 57, 235, []⟩, ⟨65, 70, 235, []⟩, ⟨93, 93, 236, []⟩, ⟨97, 102, 235, []⟩],
    [⟨46, 46, 230, []⟩, ⟨48, 57, 260, []⟩, ⟨58, 58, 255, []⟩, ⟨65, 70, 252, []⟩,
     ⟨97, 102, 252, []⟩],
    [⟨46, 46, 230, []⟩, ⟨48, 57, 261, []⟩, ⟨58, 58, 255, []⟩, ⟨65, 70, 253, []⟩,
     ⟨97, 102, 253, []⟩],
    [⟨46, 46, 230, []⟩, ⟨48, 57, 254, []⟩, ⟨58, 58, 255, []⟩, ⟨65, 70, 254, []⟩,
     ⟨97, 102, 254, []⟩],
    [⟨46, 46, 230, []⟩, ⟨48, 48, 263, []⟩, ⟨49, 52, 252, []⟩, ⟨53, 53, 264, []⟩,
     ⟨54, 57, 252, []⟩, ⟨58, 58, 255, []⟩, ⟨65, 70, 252, []⟩, ⟨97, 102, 252, []⟩],
    [⟨48, 57, 261, []⟩, ⟨58, 58, 255, []⟩, ⟨65, 70, 253, []⟩, ⟨97, 102, 253, []⟩],
    [⟨48, 48, 261, []⟩, ⟨49, 57, 253, []⟩, ⟨58, 58, 255, []⟩, ⟨65, 70, 253, []⟩,
     ⟨97, 102, 253, []⟩],
    [⟨48, 57, 252, []⟩, ⟨58, 58, 255, []⟩, ⟨65, 70, 252, []⟩, ⟨97, 102, 252, []⟩],
    [⟨48, 57, 267, []⟩, ⟨58, 58, 270, []⟩, ⟨65, 70, 267, []⟩, ⟨97, 102, 267, []⟩],
    [⟨48, 57, 268, []⟩, ⟨58, 58, 270, []⟩, ⟨65, 70, 268, []⟩, ⟨97, 102, 268, []⟩],
    [⟨48, 57, 269, []⟩, ⟨58, 58, 270, []⟩, ⟨65, 70, 269, []⟩, ⟨97, 102, 269, []⟩],
    [⟨58, 58, 270, []⟩],
    [⟨48, 57, 271, []⟩, ⟨58, 58, 341, []⟩, ⟨65, 70, 271, []⟩, ⟨97, 102, 271, []⟩],
    [⟨48, 57, 272, []⟩, ⟨58, 58, 275, []⟩, ⟨65, 70, 272, []⟩, ⟨97, 102, 272, []⟩],
    [⟨48, 57, 273, []⟩, ⟨58, 58, 275, []⟩, ⟨65, 70, 273, []⟩, ⟨97, 102, 273, []⟩],
    [⟨48, 57, 274, []⟩, ⟨58, 58, 275, []⟩, ⟨65, 70, 274, []⟩, ⟨97, 102, 274, []⟩],
    [⟨58, 58, 275, []⟩],
    [⟨48, 57, 276, []⟩, ⟨58, 58, 340, []⟩, ⟨65, 70, 276, []⟩, ⟨97, 102, 276, []⟩],
    [⟨48, 57, 277, []⟩, ⟨58, 58, 280, []⟩, ⟨65, 70, 277, []⟩, ⟨97, 102, 277, []⟩],
    [⟨48, 57, 278, []⟩, ⟨58, 58, 280, []⟩, ⟨65, 70, 278, []⟩, ⟨97, 102, 278, []⟩],
    [⟨48, 57, 279, []⟩, ⟨58, 58, 280, []⟩, ⟨65, 70, 279, []⟩, ⟨97, 102, 279, []⟩],
    [⟨58, 58, 280, []⟩],
    [⟨48, 57, 281, []⟩, ⟨58, 58, 339, []⟩, ⟨65, 70, 281, []⟩, ⟨97, 102, 281, []⟩],
    [⟨48, 57, 282, []⟩, ⟨58, 58, 285, []⟩, ⟨65, 70, 282, []⟩, ⟨97, 102, 282, []⟩],
    [⟨48, 57, 283, []⟩, ⟨58, 58, 285, []⟩, ⟨65, 70, 283, []⟩, ⟨97, 102, 283, []⟩],
    [⟨48, 57, 284, []⟩, ⟨58, 58, 285, []⟩, ⟨65, 70, 284, []⟩, ⟨97, 102, 284, []⟩],
    [⟨58, 58, 285, []⟩],
    [⟨48, 57, 286, []⟩, ⟨58, 58, 338, []⟩, ⟨65, 70, 286, []⟩, ⟨97, 102, 286, []⟩],
    [⟨48, 57, 287, []⟩, ⟨58, 58, 290, []⟩, ⟨65, 70, 287, []⟩, ⟨97, 102, 287, []⟩],
    [⟨48, 57, 288, []⟩, ⟨58, 58, 290, []⟩, ⟨65, 70, 288, []⟩, ⟨97, 102, 288, []⟩],
    [⟨48, 57, 289, []⟩, ⟨58, 58, 290, []⟩, ⟨65, 70, 289, []⟩, ⟨97, 102, 289, []⟩],
    [⟨58, 58, 290, []⟩],
    [⟨48, 57, 291, []⟩, ⟨58, 58, 326, []⟩, ⟨65, 70, 291, []⟩, ⟨97, 102, 291, []⟩],
    [⟨48, 57, 292, []⟩, ⟨58, 58, 295, []⟩, ⟨65, 70, 292, []⟩, ⟨97, 102, 292, []⟩],
    [⟨48, 57, 293, []⟩, ⟨58, 58, 295, []⟩, ⟨65, 70, 293, []⟩, ⟨97, 102, 293, []⟩],
    [⟨48, 57, 294, []⟩, ⟨58, 58, 295, []⟩, ⟨65, 70, 294, []⟩, ⟨97, 102, 294, []⟩],
    [⟨58, 58, 295, []⟩],
    [⟨48, 57, 296, []⟩, ⟨58, 58, 325, []⟩, ⟨65, 70, 296, []⟩, ⟨97, 102, 296, []⟩],
    [⟨48, 57, 297, []⟩, ⟨58, 58, 300, []⟩, ⟨65, 70, 297, []⟩, ⟨97, 102, 297, []⟩],
    [⟨48, 57, 298, []⟩, ⟨58, 58, 300, []⟩, ⟨65, 70, 298, []⟩, ⟨97, 102, 298, []⟩],
    [⟨48, 57, 299, []⟩, ⟨58, 58, 300, []⟩, ⟨65, 70, 299, []⟩, ⟨97, 102, 299, []⟩],
    [⟨58, 58, 300, []⟩],
    [⟨48, 57, 296, []⟩, ⟨58, 58, 301, []⟩, ⟨65, 70, 296, []⟩, ⟨97, 102, 296, []⟩]
  ]

/-- States 301 to 349. -/
def states301 : List (List Edge) :=
  [
    [⟨2, 3, 223, []⟩, ⟨48, 48, 302, []⟩, ⟨49, 49, 318, []⟩, ⟨50, 50, 321, []⟩, ⟨51, 57, 302, []⟩,
     ⟨65, 70, 324, []⟩, ⟨93, 93, 236, []⟩, ⟨97, 102, 324, []⟩],
    [⟨46, 46, 230, []⟩, ⟨48, 57, 303, []⟩, ⟨58, 58, 306, []⟩, ⟨65, 70, 303, []⟩,
     ⟨93, 93, 236, []⟩, ⟨97, 102, 303, []⟩],
    [⟨48, 57, 304, []⟩, ⟨58, 58, 306, []⟩, ⟨65, 70, 304, []⟩, ⟨93, 93, 236, []⟩,
     ⟨97, 102, 304, []⟩],
    [⟨48, 57, 305, []⟩, ⟨58, 58, 306, []⟩, ⟨65, 70, 305, []⟩, ⟨93, 93, 236, []⟩,
     ⟨97, 102, 305, []⟩],
    [⟨58, 58, 306, []⟩, ⟨93, 93, 236, []⟩],
    [⟨48, 48, 307, []⟩, ⟨49, 49, 311, []⟩, ⟨50, 50, 314, []⟩, ⟨51, 57, 307, []⟩,
     ⟨65, 70, 317, []⟩, ⟨97, 102, 317, []⟩],
    [⟨46, 46, 230, []⟩, ⟨48, 57, 308, []⟩, ⟨58, 58, 255, []⟩, ⟨65, 70, 308, []⟩,
     ⟨93, 93, 236, []⟩, ⟨97, 102, 308, []⟩],
    [⟨48, 57, 309, []⟩, ⟨58, 58, 255, []⟩, ⟨65, 70, 309, []⟩, ⟨93, 93, 236, []⟩,
     ⟨97, 102, 309, []⟩],
    [⟨48, 57, 310, []⟩, ⟨58, 58, 255, []⟩, ⟨65, 70, 310, []⟩, ⟨93, 93, 236, []⟩,
     ⟨97, 102, 310, []⟩],
    [⟨58, 58, 255, []⟩, ⟨93, 93, 236, []⟩],
    [⟨46, 46, 230, []⟩, ⟨48, 57, 312, []⟩, ⟨58, 58, 255, []⟩, ⟨65, 70, 308, []⟩,
     ⟨93, 93, 236, []⟩, ⟨97, 102, 308, []⟩],
    [⟨46, 46, 230, []⟩, ⟨48, 57, 313, []⟩, ⟨58, 58, 255, []⟩, ⟨65, 70, 309, []⟩,
     ⟨93, 93, 236, []⟩, ⟨97, 102, 309, []⟩],
    [⟨46, 46, 230, []⟩, ⟨48, 57, 310, []⟩, ⟨58, 58, 255, []⟩, ⟨65, 70, 310, []⟩,
     ⟨93, 93, 236, []⟩, ⟨97, 102, 310, []⟩],
    [⟨46, 46, 230, []⟩, ⟨48, 48, 315, []⟩, ⟨49, 52, 308, []⟩, ⟨53, 53, 316, []⟩,
     ⟨54, 57, 308, []⟩, ⟨58, 58, 255, []⟩, ⟨65, 70, 308, []⟩, ⟨93, 93, 236, []⟩,
     ⟨97, 102, 308, []⟩],
    [⟨48, 57, 313, []⟩, ⟨58, 58, 255, []⟩, ⟨65, 70, 309, []⟩, ⟨93, 93, 236, []⟩,
     ⟨97, 102, 309, []⟩],
    [⟨48, 48, 313, []⟩, ⟨49, 57, 309, []⟩, ⟨58, 58, 255, []⟩, ⟨65, 70, 309, []⟩,
     ⟨93, 93, 236, []⟩, ⟨97, 102, 309, []⟩],
    [⟨48, 57, 308, []⟩, ⟨58, 58, 255, []⟩, ⟨65, 70, 308, []⟩, ⟨93, 93, 236, []⟩,
     ⟨97, 102, 308, []⟩],
    [⟨46, 46, 230, []⟩, ⟨48, 57, 319, []⟩, ⟨58, 58, 306, []⟩, ⟨65, 70, 303, []⟩,
     ⟨93, 93, 236, []⟩, ⟨97, 102, 303, []⟩],
    [⟨46, 46, 230, []⟩, ⟨48, 57, 320, []⟩, ⟨58, 58, 306, []⟩, ⟨65, 70, 304, []⟩,
     ⟨93, 93, 236, []⟩, ⟨97, 102, 304, []⟩],
    [⟨46, 46, 230, []⟩, ⟨48, 57, 305, []⟩, ⟨58, 58, 306, []⟩, ⟨65, 70, 305, []⟩,
     ⟨93, 93, 236, []⟩, ⟨97, 102, 305, []⟩],
    [⟨46, 46, 230, []⟩, ⟨48, 48, 322, []⟩, ⟨49, 52, 303, []⟩, ⟨53, 53, 323, []⟩,
     ⟨54, 57, 303, []⟩, ⟨58, 58, 306, []⟩, ⟨65, 70, 303, []⟩, ⟨93, 93, 236, []⟩,
     ⟨97, 102, 303, []⟩],
    [⟨48, 57, 320, []⟩, ⟨58, 58, 306, []⟩, ⟨65, 70, 304, []⟩, ⟨93, 93, 236, []⟩,
     ⟨97, 102, 304, []⟩],
    [⟨48, 48, 320, []⟩, ⟨49, 57, 304, []⟩, ⟨58, 58, 306, []⟩, ⟨65, 70, 304, []⟩,
     ⟨93, 93, 236, []⟩, ⟨97, 102, 304, []⟩],
    [⟨48, 57, 303, []⟩, ⟨58, 58, 306, []⟩, ⟨65, 70, 303, []⟩, ⟨93, 93, 236, []⟩,
     ⟨97, 102, 303, []⟩],
    [⟨2, 3, 223, []⟩, ⟨48, 48, 302, []⟩, ⟨49, 49, 318, []⟩, ⟨50, 50, 321, []⟩, ⟨51, 57, 302, []⟩,
     ⟨65, 70, 324, []⟩, ⟨97, 102, 324, []⟩],
    [⟨2, 3, 223, []⟩, ⟨48, 48, 327, []⟩, ⟨49, 49, 331, []⟩, ⟨50, 50, 334, []⟩, ⟨51, 57, 327, []⟩,
     ⟨65, 70, 337, []⟩, ⟨97, 102, 337, []⟩],
    [⟨46, 46, 230, []⟩, ⟨48, 57, 328, []⟩, ⟨58, 58, 306, []⟩, ⟨65, 70, 328, []⟩,
     ⟨97, 102, 328, []⟩],
    [⟨48, 57, 329, []⟩, ⟨58, 58, 306, []⟩, ⟨65, 70, 329, []⟩, ⟨97, 102, 329, []⟩],
    [⟨48, 57, 330, []⟩, ⟨58, 58, 306, []⟩, ⟨65, 70, 330, []⟩, ⟨97, 102, 330, []⟩],
    [⟨58, 58, 306, []⟩],
    [⟨46, 46, 230, []⟩, ⟨48, 57, 332, []⟩, ⟨58, 58, 306, []⟩, ⟨65, 70, 328, []⟩,
     ⟨97, 102, 328, []⟩],
    [⟨46, 46, 230, []⟩, ⟨48, 57, 333, []⟩, ⟨58, 58, 306, []⟩, ⟨65, 70, 329, []⟩,
     ⟨97, 102, 329, []⟩],
    [⟨46, 46, 230, []⟩, ⟨48, 57, 330, []⟩, ⟨58, 58, 306, []⟩, ⟨65, 70, 330, []⟩,
     ⟨97, 102, 330, []⟩],
    [⟨46, 46, 230, []⟩, ⟨48, 48, 335, []⟩, ⟨49, 52, 328, []⟩, ⟨53, 53, 336, []⟩,
     ⟨54, 57, 328, []⟩, ⟨58, 58, 306, []⟩, ⟨65, 70, 328, []⟩, ⟨97, 102, 328, []⟩],
    [⟨48, 57, 333, []⟩, ⟨58, 58, 306, []⟩, ⟨65, 70, 329, []⟩, ⟨97, 102, 329, []⟩],
    [⟨48, 48, 333, []⟩, ⟨49, 57, 329, []⟩, ⟨58, 58, 306, []⟩, ⟨65, 70, 329, []⟩,
     ⟨97, 102, 329, []⟩],
    [⟨48, 57, 328, []⟩, ⟨58, 58, 306, []⟩, ⟨65, 70, 328, []⟩, ⟨97, 102, 328, []⟩],
    [⟨2, 3, 223, []⟩, ⟨48, 57, 224, []⟩, ⟨65, 70, 224, []⟩, ⟨97, 102, 224, []⟩],
    [⟨2, 3, 223, []⟩],
    [⟨3, 3, 223, []⟩],
    [⟨4, 4, 223, []⟩],
    [⟨58, 58, 343, []⟩],
    [⟨2, 5, 223, []⟩, ⟨48, 48, 302, []⟩, ⟨49, 49, 318, []⟩, ⟨50, 50, 321, []⟩, ⟨51, 57, 302, []⟩,
     ⟨65, 70, 324, []⟩, ⟨93, 93, 236, []⟩, ⟨97, 102, 324, []⟩],
    [⟨48, 57, 345, []⟩, ⟨65, 70, 345, []⟩, ⟨97, 102, 345, []⟩],
    [⟨46, 46, 346, []⟩, ⟨48, 57, 345, []⟩, ⟨65, 70, 345, []⟩, ⟨97, 102, 345, []⟩],
    [⟨33, 33, 347, []⟩, ⟨36, 36, 347, []⟩, ⟨38, 46, 347, []⟩, ⟨48, 59, 347, []⟩,
     ⟨61, 61, 347, []⟩, ⟨65, 90, 347, []⟩, ⟨95, 95, 347, []⟩, ⟨97, 122, 347, []⟩,
     ⟨126, 126, 347, []⟩],
    [⟨33, 33, 347, []⟩, ⟨36, 36, 347, []⟩, ⟨38, 46, 347, []⟩, ⟨48, 59, 347, []⟩,
     ⟨61, 61, 347, []⟩, ⟨65, 90, 347, []⟩, ⟨93, 93, 236, []⟩, ⟨95, 95, 347, []⟩,
     ⟨97, 122, 347, []⟩, ⟨126, 126, 347, []⟩],
    [⟨1, 8, 14, []⟩, ⟨10, 31, 14, []⟩, ⟨33, 33, 14, []⟩, ⟨35, 39, 14, []⟩, ⟨42, 43, 14, []⟩,
     ⟨45, 46, 14, []⟩, ⟨48, 57, 14, []⟩, ⟨58, 58, 15, [.writeField]⟩, ⟨65, 90, 14, []⟩,
     ⟨94, 122, 14, []⟩, ⟨124, 124, 14, []⟩, ⟨126, 126, 14, []⟩],
    []
  ]

/-- The states where `^`, `{` and `}` are allowed under `uri_relaxed`, with the target. -/
def moreDelims : List (Nat × Nat × List ParserAction) :=
  [(3, 19, [.mark]), (19, 19, []), (20, 21, [.mark]), (21, 21, []), (26, 26, []),
    (29, 30, [.startQuery]), (30, 30, []), (33, 26, []), (34, 35, []), (35, 35, []), (38, 39, []),
    (39, 39, []), (42, 43, []), (43, 43, []), (171, 172, []), (172, 172, []), (173, 19, []),
    (174, 26, [.mark]), (198, 202, []), (202, 202, []), (205, 205, []), (208, 205, []),
    (209, 210, []), (210, 210, []), (213, 214, []), (214, 214, []), (217, 218, []),
    (218, 218, []), (346, 347, []), (347, 347, [])]

end Table

open Table in
/-- The edges of every state but the error state. -/
def rows : List (List Edge) :=
  states1 ++ states51 ++ states101 ++ states151 ++ states201 ++ states251 ++ states301

def row (cs : Nat) : List Edge := if cs = errorState then [] else (rows[cs - 1]?).getD []

/-- The transition on a byte; `none` is the jump to the error state. -/
def delta (relaxed : Bool) (cs : Nat) (b : UInt8) : Option (Nat × List ParserAction) :=
  match (row cs).find? fun e => decide (e.lo ≤ b.toNat ∧ b.toNat ≤ e.hi) with
  | some e => some (e.target, e.actions)
  | none =>
    if relaxed && (b == 94 || b == 123 || b == 125) then Table.moreDelims.lookup cs else none

/-! ### What the proofs use of the table -/

/-- The states in which a query has been started and not reported yet. -/
def inQuery (cs : Nat) : Bool := cs == 30 || cs == 31 || cs == 32

/-- The states between a header's name and the end of its value. -/
def inValue (cs : Nat) : Bool := cs == 15 || cs == 16

/-- The facts about one transition. -/
structure Regular (cs : Nat) (b : UInt8) (target : Nat) (actions : List ParserAction) : Prop where
  /-- A method is reported at the space after it. -/
  space : .requestMethod ∈ actions → b = 32
  /-- A query is reported only after its start was marked. -/
  query : inQuery cs = false → .queryString ∈ actions → actions.head? = some .startQuery
  started : inQuery cs = false → .startQuery ∉ actions → inQuery target = false
  /-- A header is reported after its name, with no other name begun since. -/
  value : .writeValue ∈ actions → inValue cs = true ∧ .startField ∉ actions
  named : inValue target = true →
    .startField ∉ actions ∧ (.writeField ∈ actions ∨ inValue cs = true)
  /-- `done` leads to the final states, and nothing else does. -/
  final : cs < firstFinal → (.done ∈ actions ↔ firstFinal ≤ target)
  alive : target ≠ errorState

theorem Regular.running {cs target : Nat} {b : UInt8} {actions : List ParserAction}
    (regular : Regular cs b target actions) (before : cs < firstFinal)
    (more : .done ∉ actions) : target < firstFinal :=
  Nat.lt_of_not_le fun final => more ((regular.final before).mpr final)

/-- `Regular`, over a range of bytes. -/
def regularEdge (cs lo hi target : Nat) (actions : List ParserAction) : Bool :=
  (!actions.contains .requestMethod || (lo == 32 && hi == 32)) &&
    (inQuery cs || !actions.contains .queryString || actions.head? == some .startQuery) &&
    (inQuery cs || actions.contains .startQuery || !inQuery target) &&
    (!actions.contains .writeValue || (inValue cs && !actions.contains .startField)) &&
    (!inValue target ||
      (!actions.contains .startField && (actions.contains .writeField || inValue cs))) &&
    (decide (firstFinal ≤ cs) || actions.contains .done == decide (firstFinal ≤ target)) &&
    target != errorState

theorem regular_of_edge {cs lo hi target : Nat} {actions : List ParserAction} {b : UInt8}
    (checked : regularEdge cs lo hi target actions = true) (low : lo ≤ b.toNat)
    (high : b.toNat ≤ hi) : Regular cs b target actions := by
  simp only [regularEdge, Bool.and_eq_true, Bool.or_eq_true, Bool.not_eq_true', beq_iff_eq,
    bne_iff_ne, decide_eq_true_eq, List.contains_eq_mem, decide_eq_false_iff_not] at checked
  obtain ⟨⟨⟨⟨⟨⟨space, query⟩, started⟩, value⟩, named⟩, final⟩, alive⟩ := checked
  refine ⟨?_, ?_, ?_, ?_, ?_, ?_, alive⟩
  · intro reports
    obtain ⟨rfl, rfl⟩ := space.resolve_left (not_not_intro reports)
    exact UInt8.toNat_inj.mp (Nat.le_antisymm high low)
  · intro outside reports
    rw [outside] at query
    exact (query.resolve_left (by simp [reports]))
  · intro outside unmarked
    rw [outside] at started
    simpa [unmarked] using started
  · intro reports
    exact value.resolve_left (not_not_intro reports)
  · intro inside
    exact named.resolve_left (by simp [inside])
  · intro below
    have agree := final.resolve_left (by omega)
    simpa using agree

/-- The check of all rows, in one pass over the table. -/
private theorem zipIdx_rows_checked : ∀ r ∈ rows.zipIdx 1, ∀ e ∈ r.1,
    regularEdge r.2 e.lo e.hi e.target e.actions = true := by
  decide +kernel

theorem rows_checked (cs : Nat) : ∀ e ∈ row cs,
    regularEdge cs e.lo e.hi e.target e.actions = true := by
  intro e member
  unfold row at member
  split at member
  next => cases member
  next running =>
    cases found : rows[cs - 1]? with
    | none => simp [found] at member
    | some edges =>
      rw [found, Option.getD_some] at member
      have placed : (edges, cs) ∈ rows.zipIdx 1 :=
        List.mk_mem_zipIdx_iff_le_and_getElem?_sub.mpr ⟨Nat.pos_of_ne_zero running, found⟩
      exact zipIdx_rows_checked _ placed e member

theorem moreDelims_checked : ∀ m ∈ Table.moreDelims,
    regularEdge m.1 94 125 m.2.1 m.2.2 = true := by
  decide +kernel

theorem delta_regular {relaxed : Bool} {cs : Nat} {b : UInt8} {target : Nat}
    {actions : List ParserAction} (moved : delta relaxed cs b = some (target, actions)) :
    Regular cs b target actions := by
  unfold delta at moved
  split at moved
  next e found =>
    cases moved
    have member := List.mem_of_find?_eq_some found
    have inRange := List.find?_some found
    rw [decide_eq_true_eq] at inRange
    exact regular_of_edge (rows_checked cs e member) inRange.1 inRange.2
  next =>
    rw [Option.ite_none_right_eq_some] at moved
    obtain ⟨delim, found⟩ := moved
    obtain ⟨before, after, split, -⟩ := List.lookup_eq_some_iff.mp found
    have member : (cs, target, actions) ∈ Table.moreDelims := by
      rw [split]
      exact List.mem_append_right _ List.mem_cons_self
    simp only [Bool.and_eq_true, Bool.or_eq_true, beq_iff_eq] at delim
    -- the three delimiters lie in one range, which `moreDelims_checked` covers
    have low : 94 ≤ b.toNat := by rcases delim.2 with (rfl | rfl) | rfl <;> decide
    have high : b.toNat ≤ 125 := by rcases delim.2 with (rfl | rfl) | rfl <;> decide
    exact regular_of_edge (moreDelims_checked _ member) low high

end Dwframe.Http
