import Dwframe.Lib.Decimal
import Mathlib.Data.List.DropRight

/-!
# Lines of header text

A text as lines that end with CR LF, the lines in front of the first empty one, and the value of
a `name: value` line, which may stand between blanks.
-/
namespace Dwframe.Lib

/-! ### Blanks -/

/-- A space or a tab. -/
def isBlank (b : UInt8) : Bool := b == 32 || b == 9

def trim (text : List UInt8) : List UInt8 := (text.dropWhile isBlank).rdropWhile isBlank

theorem isBlank_eq_false_of_isDigit {b : UInt8} (digit : isDigit b) : isBlank b = false := by
  rw [Bool.eq_false_iff]
  intro blank
  simp only [isBlank, Bool.or_eq_true, beq_iff_eq] at blank
  rcases blank with rfl | rfl <;> exact absurd digit (by decide)

theorem trim_eq_self {text : List UInt8} (solid : ∀ b ∈ text, isBlank b = false) :
    trim text = text := by
  have front : text.dropWhile isBlank = text := by
    cases text with
    | nil => rfl
    | cons b rest => rw [List.dropWhile_cons_of_neg (by simp [solid b List.mem_cons_self])]
  rw [trim, front, List.rdropWhile_eq_self_iff]
  intro notEmpty
  simp [solid _ (List.getLast_mem notEmpty)]

@[simp] theorem trim_space (text : List UInt8) : trim (32 :: text) = trim text := by
  rw [trim, List.dropWhile_cons_of_pos (by decide), trim]

theorem ofDecimal_trim {text : List UInt8} {n : Nat} (denotes : ofDecimal text = some n) :
    ofDecimal (trim text) = some n := by
  have digits := (ofDecimal_eq_some denotes).2
  rw [trim_eq_self fun b member => isBlank_eq_false_of_isDigit (digits b member), denotes]

/-! ### Lines -/

def crlf : List UInt8 := [13, 10]

/-- The lines of a text; what stands behind the last CR LF is the last one. -/
def splitLines : List UInt8 → List (List UInt8)
  | [] => [[]]
  | 13 :: 10 :: rest => [] :: splitLines rest
  | b :: rest => (splitLines rest).modifyHead (b :: ·)

theorem splitLines_ne_nil (text : List UInt8) : splitLines text ≠ [] := by
  fun_induction splitLines text with
  | case1 => simp
  | case2 rest ih => simp
  | case3 b rest notBreak ih => simpa using ih

/-- A break between two texts ends a line. -/
theorem splitLines_append (a b : List UInt8) :
    splitLines (a ++ crlf ++ b) = splitLines a ++ splitLines b := by
  fun_induction splitLines a with
  | case1 => rfl
  | case2 rest ih => simp only [List.cons_append, splitLines, ih]
  | case3 c rest notBreak ih =>
    -- the break that follows cannot begin in front of its own CR
    have same : splitLines (c :: (rest ++ crlf ++ b)) =
        (splitLines (rest ++ crlf ++ b)).modifyHead (c :: ·) := by
      rw [splitLines]
      intro later cr
      cases rest with
      | nil => simp [crlf]
      | cons d rest =>
        rintro tail
        simp only [List.cons_append, List.cons.injEq] at tail
        exact notBreak _ cr (by rw [tail.1])
    have some : splitLines rest ≠ [] := splitLines_ne_nil rest
    rw [List.cons_append, List.cons_append, same, ih]
    cases lines : splitLines rest with
    | nil => exact absurd lines some
    | cons line lines => rfl

theorem splitLines_of_not_mem {line : List UInt8} (unbroken : 13 ∉ line) :
    splitLines line = [line] := by
  fun_induction splitLines line with
  | case1 => rfl
  | case2 rest ih => simp at unbroken
  | case3 b rest notBreak ih =>
    rw [ih fun member => unbroken (.tail _ member)]
    rfl

/-- A text of lines that all end with a break, and what follows them. -/
theorem splitLines_flatMap (pieces : List (List UInt8)) (rest : List UInt8) :
    splitLines (pieces.flatMap (· ++ crlf) ++ rest) = pieces.flatMap splitLines ++
      splitLines rest := by
  induction pieces with
  | nil => rfl
  | cons piece pieces ih =>
    rw [List.flatMap_cons, List.flatMap_cons, List.append_assoc, splitLines_append, ih,
      List.append_assoc]

/-- The lines behind the first one, up to an empty one. -/
def headerLines (text : List UInt8) : List (List UInt8) :=
  (splitLines text).tail.takeWhile (· ≠ [])

/-- An empty line ends the head. -/
theorem takeWhile_append_empty (lines rest : List (List UInt8)) :
    (lines ++ [] :: rest).takeWhile (· ≠ []) = lines.takeWhile (· ≠ []) := by
  induction lines with
  | nil => rfl
  | cons line lines ih =>
    simp only [List.cons_append, List.takeWhile_cons, ih]

/-! ### Fields -/

/-- The name in front of the colon. -/
def fieldName (line : List UInt8) : List UInt8 := line.takeWhile (· ≠ 58)

/-- The value behind the colon, without the blanks around it. -/
def fieldValue (line : List UInt8) : List UInt8 := trim ((line.dropWhile (· ≠ 58)).drop 1)

section Field

variable {name value : List UInt8}

theorem fieldName_append (plain : 58 ∉ name) : fieldName (name ++ 58 :: value) = name := by
  have passed : ∀ b ∈ name, decide (b ≠ 58) = true := fun b member =>
    decide_eq_true fun colon => plain (colon ▸ member)
  rw [fieldName, List.takeWhile_append_of_pos passed]
  simp

theorem fieldValue_append (plain : 58 ∉ name) : fieldValue (name ++ 58 :: value) = trim value := by
  have passed : ∀ b ∈ name, decide (b ≠ 58) = true := fun b member =>
    decide_eq_true fun colon => plain (colon ▸ member)
  rw [fieldValue, List.dropWhile_append_of_pos passed]
  simp

end Field

end Dwframe.Lib
