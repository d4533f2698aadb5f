import Dwframe.Log.Formatter
import Mathlib.Data.List.Forall2

/-!
# The pattern language of a formatter

A pattern is written as a row of texts and directives. `Scans` is the outer loop of `init`
without the fuel: a run of it is finite, and every pattern has exactly one. What is written
in the language is read back, and a format that is not closed is an error wherever it stands.
-/
namespace Dwframe

/-- A part of a pattern as it is written. -/
inductive PatternItem where
  | literal (text : String)
  | bare (name : String)
  | formatted (name fmt : String)
  deriving DecidableEq, Repr

namespace PatternItem

/-- The characters of a part, with every `%` of a text doubled. -/
def print : PatternItem → List Char
  | .literal text => text.toList.flatMap fun c => if c = '%' then ['%', '%'] else [c]
  | .bare name => '%' :: name.toList
  | .formatted name fmt => '%' :: name.toList ++ '{' :: fmt.toList ++ ['}']

def printAll (items : List PatternItem) : List Char := items.flatMap print

/-- The directive of a part. -/
def name? : PatternItem → Option String
  | .literal _ => none
  | .bare name => some name
  | .formatted name _ => some name

/-- A name is a non-empty run of letters. -/
def IsName (name : String) : Prop := name ≠ "" ∧ ∀ c ∈ name.toList, c.isAlpha

def Sound : PatternItem → Prop
  | .literal text => text ≠ ""
  | .bare name => IsName name
  | .formatted name fmt => IsName name ∧ '}' ∉ fmt.toList

/-- What may stand behind a directive without a format. -/
def Ends (behind : List Char) : Prop :=
  ∀ c ∈ behind.head?, ¬c.isAlpha ∧ c ≠ '{' ∧ c ≠ '}'

def Separated : List PatternItem → Prop
  | [] => True
  | item :: rest => (∀ name, item = .bare name → Ends (printAll rest)) ∧ Separated rest

theorem printAll_cons (item : PatternItem) (rest : List PatternItem) :
    printAll (item :: rest) = item.print ++ printAll rest := rfl

theorem IsName.head {name : String} (sound : IsName name) (rest : List Char) :
    (name.toList ++ rest).head? ≠ some '%' := by
  obtain ⟨some_letter, letters⟩ := sound
  cases chars : name.toList with
  | nil => exact absurd (String.toList_eq_nil_iff.mp chars) some_letter
  | cons c more =>
    have letter := letters c (chars ▸ List.mem_cons_self)
    rw [List.cons_append, List.head?_cons, ne_eq, Option.some.injEq]
    rintro rfl
    exact absurd letter (by decide)

end PatternItem

open PatternItem

/-- A row of parts that can be told apart when it is printed. -/
structure Layout where
  items : List PatternItem
  sound : ∀ item ∈ items, item.Sound
  separated : Separated items

def Layout.pattern (layout : Layout) : String := String.ofList (printAll layout.items)

namespace PatternPart

/-- A text in front of parts; two texts that meet are one. -/
def joinText (text : String) : List PatternPart → List PatternPart
  | .text more :: rest => .text (text ++ more) :: rest
  | parts => .text text :: parts

/-- The parts of a row, with texts that meet joined. -/
def merged : List PatternItem → List PatternPart
  | [] => []
  | .literal str :: rest => joinText str (merged rest)
  | .bare name :: rest => .directive name "" :: merged rest
  | .formatted name fmt :: rest => .directive name fmt :: merged rest

/-- The item that stands for a part: a text for itself, a known directive with its format, and
an unknown one as a text that says so. -/
def Shows : PatternPart → FormatItem → Prop
  | .text str, item => item = .string str
  | .directive name fmt, item =>
    (∃ kind, (name, kind) ∈ formatItems ∧ item = .item kind fmt) ∨
      name ∉ formatItems.map Prod.fst ∧
        item = .string ("<<error_format %" ++ name ++ ">>")

theorem joinText_joinText (front text : String) (parts : List PatternPart) :
    joinText front (joinText text parts) = joinText (front ++ text) parts := by
  cases parts with
  | nil => rfl
  | cons part rest =>
    cases part with
    | text more => simp only [joinText, String.append_assoc]
    | directive name fmt => rfl

theorem directive_mem_joinText {text name fmt : String} {parts : List PatternPart} :
    directive name fmt ∈ joinText text parts ↔ directive name fmt ∈ parts := by
  cases parts with
  | nil => simp [joinText]
  | cons part rest => cases part <;> simp [joinText]

theorem directive_mem_merged {name : String} {items : List PatternItem} :
    (∃ fmt, directive name fmt ∈ merged items) ↔ ∃ item ∈ items, name ∈ item.name? := by
  induction items with
  | nil => simp [merged]
  | cons item rest ih =>
    rw [List.exists_mem_cons_iff, ← ih]
    cases item with
    | literal str => simp only [merged, directive_mem_joinText, name?, Option.mem_def,
        reduceCtorEq, false_or]
    | bare other =>
      simp only [merged, List.mem_cons, directive.injEq, exists_or, name?, Option.mem_def,
        Option.some.injEq, exists_and_left, exists_eq, and_true, @eq_comm _ other]
    | formatted other fmt =>
      simp only [merged, List.mem_cons, directive.injEq, exists_or, name?, Option.mem_def,
        Option.some.injEq, exists_and_left, exists_eq, and_true, @eq_comm _ other]

end PatternPart

open PatternPart

namespace LogFormatter

/-- The runs of the outer loop: what is left of the pattern, the text read so far, and what
the loop leaves in `vec` and in `error`. -/
inductive Scans : List Char → List Char → List PatternPart × Bool → Prop
  | done {nstr} : Scans [] nstr (flush nstr, false)
  | char {c rest nstr result} (other : c ≠ '%') (next : Scans rest (nstr ++ [c]) result) :
      Scans (c :: rest) nstr result
  | doubled {rest nstr result} (next : Scans rest (nstr ++ ['%']) result) :
      Scans ('%' :: '%' :: rest) nstr result
  | directive {rest nstr str fmt behind vec error} (single : rest.head? ≠ some '%')
      (read : scanDirective rest [] = some (str, fmt, behind))
      (next : Scans behind [] (vec, error)) :
      Scans ('%' :: rest) nstr (flush nstr ++ .directive str fmt :: vec, error)
  | unclosed {rest nstr vec error} (single : rest.head? ≠ some '%')
      (read : scanDirective rest [] = none) (next : Scans rest nstr (vec, error)) :
      Scans ('%' :: rest) nstr (.text "<<pattern_error>>" :: vec, true)

theorem scanFormat_some {chars acc : List Char} {fmt : String} {behind : List Char}
    (read : scanFormat chars acc = some (fmt, behind)) :
    ∃ front, chars = front ++ '}' :: behind := by
  induction chars generalizing acc with
  | nil => simp [scanFormat] at read
  | cons c rest ih =>
    rw [scanFormat] at read
    split at read
    next closed =>
      simp only [Option.some.injEq, Prod.mk.injEq] at read
      exact ⟨[], by rw [closed, read.2, List.nil_append]⟩
    · obtain ⟨front, rfl⟩ := ih read
      exact ⟨c :: front, rfl⟩

theorem scanFormat_closed {fmt : List Char} (inside : '}' ∉ fmt) (behind acc : List Char) :
    scanFormat (fmt ++ '}' :: behind) acc = some (String.ofList (acc ++ fmt), behind) := by
  induction fmt generalizing acc with
  | nil => simp [scanFormat]
  | cons c rest ih =>
    rw [List.mem_cons, not_or] at inside
    rw [List.cons_append, scanFormat, if_neg (Ne.symm inside.1), ih inside.2, List.append_assoc,
      List.singleton_append]

theorem scanFormat_unclosed {chars : List Char} (never : '}' ∉ chars) (acc : List Char) :
    scanFormat chars acc = none := by
  induction chars generalizing acc with
  | nil => rfl
  | cons c rest ih =>
    rw [List.mem_cons, not_or] at never
    rw [scanFormat, if_neg (Ne.symm never.1), ih never.2]

/-- What a directive takes ends with the `}` of its format, or holds letters and `}` only. -/
theorem scanDirective_some {chars acc : List Char} {str fmt : String} {behind : List Char}
    (read : scanDirective chars acc = some (str, fmt, behind)) :
    ∃ front, chars = front ++ behind ∧
      ((∀ c ∈ front, c.isAlpha ∨ c = '}') ∨ front.getLast? = some '}') := by
  induction chars generalizing acc with
  | nil =>
    simp only [scanDirective, Option.some.injEq, Prod.mk.injEq] at read
    exact ⟨[], read.2.2, .inl fun _ member => absurd member List.not_mem_nil⟩
  | cons c rest ih =>
    rw [scanDirective] at read
    split at read
    · obtain ⟨⟨found, more⟩, format, same⟩ := Option.map_eq_some_iff.mp read
      obtain ⟨front, rfl⟩ := scanFormat_some format
      simp only [Prod.mk.injEq] at same
      refine ⟨c :: front ++ ['}'], ?_, .inr List.getLast?_concat⟩
      rw [same.2.2, List.cons_append, List.cons_append, List.append_assoc, List.singleton_append]
    · split at read
      next letter =>
        obtain ⟨front, rfl, taken⟩ := ih read
        refine ⟨c :: front, rfl, ?_⟩
        rcases taken with letters | last
        · exact .inl (List.forall_mem_cons.mpr ⟨letter, letters⟩)
        · refine .inr ?_
          rw [List.getLast?_cons, last, Option.getD_some]
      · simp only [Option.some.injEq, Prod.mk.injEq] at read
        exact ⟨[], read.2.2, .inl fun _ member => absurd member List.not_mem_nil⟩

theorem scanDirective_letters {name : List Char} (letters : ∀ c ∈ name, c.isAlpha)
    (rest acc : List Char) :
    scanDirective (name ++ rest) acc = scanDirective rest (acc ++ name) := by
  induction name generalizing acc with
  | nil => rw [List.nil_append, List.append_nil]
  | cons c more ih =>
    obtain ⟨letter, letters⟩ := List.forall_mem_cons.mp letters
    have not_open : c ≠ '{' := by
      rintro rfl
      exact absurd letter (by decide)
    rw [List.cons_append, scanDirective, if_neg not_open, if_pos (.inl letter), ih letters,
      List.append_assoc, List.singleton_append]

theorem scanDirective_ends {behind : List Char} (ends : Ends behind) (acc : List Char) :
    scanDirective behind acc = some (String.ofList acc, "", behind) := by
  cases behind with
  | nil => rfl
  | cons c rest =>
    obtain ⟨not_letter, not_open, not_close⟩ := ends c rfl
    rw [scanDirective, if_neg not_open, if_neg (not_or.mpr ⟨not_letter, not_close⟩)]

/-- With a unit of fuel for each character the loop is run to its end. -/
theorem scans {fuel : Nat} {chars : List Char} (enough : chars.length ≤ fuel) (nstr : List Char) :
    Scans chars nstr (scan fuel chars nstr) := by
  induction fuel generalizing chars nstr with
  | zero =>
    rw [List.length_eq_zero_iff.mp (Nat.le_zero.mp enough)]
    exact .done
  | succ fuel ih =>
    cases chars with
    | nil => exact .done
    | cons c rest =>
      rw [List.length_cons, Nat.add_le_add_iff_right] at enough
      rw [scan]
      split
      next other => exact .char other (ih enough _)
      next percent =>
        rw [not_not] at percent
        subst percent
        split
        next double =>
          obtain ⟨more, rfl⟩ := List.head?_eq_some_iff.mp double
          rw [List.length_cons] at enough
          exact .doubled (ih (show more.length ≤ fuel by omega) _)
        next single =>
          split
          next str fmt behind read =>
            -- what is behind a directive is no longer than what it was read from
            obtain ⟨front, rfl, -⟩ := scanDirective_some read
            rw [List.length_append] at enough
            exact .directive single read (ih (by omega) _)
          next read => exact .unclosed single read (ih enough _)

theorem Scans.unique {chars nstr : List Char} {result result' : List PatternPart × Bool}
    (run : Scans chars nstr result) (run' : Scans chars nstr result') : result = result' := by
  -- the first characters say which constructor applies
  induction run generalizing result' with
  | done =>
    cases run'
    rfl
  | char other _ ih =>
    cases run' with
    | char _ next => exact ih next
    | doubled => exact absurd rfl other
    | directive => exact absurd rfl other
    | unclosed => exact absurd rfl other
  | doubled _ ih =>
    cases run' with
    | char other => exact absurd rfl other
    | doubled next => exact ih next
    | directive single => exact absurd rfl single
    | unclosed single => exact absurd rfl single
  | directive single read _ ih =>
    cases run' with
    | char other => exact absurd rfl other
    | doubled => exact absurd rfl single
    | directive _ read' next =>
      rw [read, Option.some.injEq, Prod.mk.injEq, Prod.mk.injEq] at read'
      obtain ⟨rfl, rfl, rfl⟩ := read'
      cases ih next
      rfl
    | unclosed _ read' => exact absurd (read.symm.trans read') (Option.some_ne_none _)
  | unclosed single read _ ih =>
    cases run' with
    | char other => exact absurd rfl other
    | doubled => exact absurd rfl single
    | directive _ read' => exact absurd (read'.symm.trans read) (Option.some_ne_none _)
    | unclosed _ _ next =>
      cases ih next
      rfl

/-- Parts behind the text read so far. -/
def carry (nstr : List Char) (parts : List PatternPart) : List PatternPart :=
  if nstr.isEmpty then parts else joinText (String.ofList nstr) parts

theorem carry_nil (nstr : List Char) : carry nstr [] = flush nstr := by
  rw [carry, flush]
  rfl

theorem carry_directive (nstr : List Char) (name fmt : String) (parts : List PatternPart) :
    carry nstr (.directive name fmt :: parts) = flush nstr ++ .directive name fmt :: parts := by
  rw [carry, flush]
  split
  · rfl
  · rfl

theorem carry_text (nstr : List Char) {text : String} (some_char : text ≠ "")
    (parts : List PatternPart) :
    carry nstr (joinText text parts) = carry (nstr ++ text.toList) parts := by
  cases nstr with
  | nil =>
    have chars : ¬text.toList.isEmpty := by
      rwa [List.isEmpty_iff, String.toList_eq_nil_iff]
    rw [List.nil_append, carry, carry, if_pos List.isEmpty_nil, if_neg chars, String.ofList_toList]
  | cons c more =>
    rw [List.cons_append, carry, carry, if_neg (by simp), if_neg (by simp), joinText_joinText,
      ← List.cons_append, String.ofList_append, String.ofList_toList]

theorem Scans.literal {text rest : List Char} {nstr : List Char}
    {result : List PatternPart × Bool} (next : Scans rest (nstr ++ text) result) :
    Scans ((text.flatMap fun c => if c = '%' then ['%', '%'] else [c]) ++ rest) nstr result := by
  induction text generalizing nstr with
  | nil =>
    rw [List.append_nil] at next
    exact next
  | cons c more ih =>
    rw [← List.singleton_append, ← List.append_assoc] at next
    rw [List.flatMap_cons, List.append_assoc]
    by_cases percent : c = '%'
    · subst percent
      rw [if_pos rfl]
      exact .doubled (ih next)
    · rw [if_neg percent]
      exact .char percent (ih next)

/-- What is printed is read back: a text goes on with the one before it, and a directive takes
its own characters. -/
theorem scans_printAll {items : List PatternItem} (sound : ∀ item ∈ items, item.Sound)
    (separated : Separated items) (nstr : List Char) :
    Scans (printAll items) nstr (carry nstr (merged items), false) := by
  -- a text is read into `nstr` and waits there for the next part
  induction items generalizing nstr with
  | nil =>
    rw [merged, carry_nil]
    exact .done
  | cons item rest ih =>
    obtain ⟨item_sound, sound⟩ := List.forall_mem_cons.mp sound
    obtain ⟨ends, separated⟩ := separated
    have next := ih sound separated
    rw [printAll_cons]
    cases item with
    | literal text =>
      rw [merged, carry_text nstr item_sound]
      exact .literal (next _)
    | bare name =>
      have read : scanDirective (name.toList ++ printAll rest) [] =
          some (name, "", printAll rest) := by
        rw [scanDirective_letters item_sound.2, scanDirective_ends (ends name rfl),
          List.nil_append, String.ofList_toList]
      rw [merged, carry_directive]
      exact .directive (item_sound.head _) read (next [])
    | formatted name fmt =>
      obtain ⟨is_name, inside⟩ := item_sound
      have read : scanDirective (name.toList ++ '{' :: (fmt.toList ++ '}' :: printAll rest)) [] =
          some (name, fmt, printAll rest) := by
        rw [scanDirective_letters is_name.2, scanDirective, if_pos rfl, scanFormat_closed inside,
          Option.map_some, List.nil_append, List.nil_append, String.ofList_toList,
          String.ofList_toList]
      have whole : print (.formatted name fmt) ++ printAll rest =
          '%' :: (name.toList ++ '{' :: (fmt.toList ++ '}' :: printAll rest)) := by
        simp [print]
      rw [merged, carry_directive, whole]
      exact .directive (is_name.head _) read (next [])

theorem new_eq (pattern : String) :
    new pattern =
      ⟨pattern, (scan pattern.length pattern.toList []).1.map fun part => (itemOf part).1,
        (scan pattern.length pattern.toList []).2 ||
          (scan pattern.length pattern.toList []).1.any fun part => (itemOf part).2⟩ := by
  simp only [new, List.map_map, List.any_map]
  rfl

theorem known_of_find {name : String} {entry : String × FormatItemKind}
    (found : (formatItems.find? fun entry => entry.1 = name) = some entry) :
    entry ∈ formatItems ∧ entry.1 = name := by
  have same := List.find?_some found
  exact ⟨List.mem_of_find?_eq_some found, of_decide_eq_true same⟩

theorem unknown_of_find {name : String}
    (missing : (formatItems.find? fun entry => entry.1 = name) = none) :
    name ∉ formatItems.map Prod.fst := by
  rw [List.find?_eq_none] at missing
  intro known
  obtain ⟨entry, member, same⟩ := List.mem_map.mp known
  exact missing entry member (decide_eq_true same)

theorem itemOf_shows (part : PatternPart) : part.Shows (itemOf part).1 := by
  cases part with
  | text str => rfl
  | directive name fmt =>
    rw [itemOf]
    split
    next entry found =>
      obtain ⟨member, same⟩ := known_of_find found
      exact .inl ⟨entry.2, same ▸ member, rfl⟩
    next missing => exact .inr ⟨unknown_of_find missing, rfl⟩

theorem itemOf_unknown (part : PatternPart) :
    (itemOf part).2 = true ↔
      ∃ name fmt, part = .directive name fmt ∧ name ∉ formatItems.map Prod.fst := by
  cases part with
  | text str => simp [itemOf]
  | directive name fmt =>
    rw [itemOf]
    split
    next entry found =>
      obtain ⟨member, same⟩ := known_of_find found
      refine iff_of_false Bool.false_ne_true ?_
      rintro ⟨name', fmt', directive, unknown⟩
      cases directive
      exact unknown (List.mem_map.mpr ⟨entry, member, same⟩)
    next missing => exact iff_of_true rfl ⟨name, fmt, rfl, unknown_of_find missing⟩

/-- An even number of `%` at the end: the next one is not the second of a pair. -/
def Paired (before : List Char) : Prop :=
  ∃ front n, before = front ++ List.replicate (2 * n) '%' ∧ front.getLast? ≠ some '%'

/-- A pattern with a directive whose format is not closed. -/
def Unclosed (pattern : String) : Prop :=
  ∃ before name behind, pattern.toList = before ++ '%' :: (name ++ '{' :: behind) ∧
    Paired before ∧ (∀ c ∈ name, c.isAlpha) ∧ '}' ∉ behind

theorem Scans.open_error {name behind : List Char} (letters : ∀ c ∈ name, c.isAlpha)
    (never : '}' ∉ behind) {nstr : List Char} {result : List PatternPart × Bool}
    (run : Scans ('%' :: (name ++ '{' :: behind)) nstr result) : result.2 = true := by
  have unread : scanDirective (name ++ '{' :: behind) [] = none := by
    rw [scanDirective_letters letters, scanDirective, if_pos rfl, scanFormat_unclosed never,
      Option.map_none]
  generalize rest_eq : name ++ '{' :: behind = rest at run unread
  cases run with
  | char other => exact absurd rfl other
  | directive single read => exact absurd (unread.symm.trans read) (Option.some_ne_none _).symm
  | unclosed => rfl
  | doubled =>
    cases name with
    | nil => exact absurd (List.cons.inj rest_eq).1 (by decide)
    | cons c more =>
      have letter := letters c List.mem_cons_self
      rw [(List.cons.inj rest_eq).1] at letter
      exact absurd letter (by decide)

theorem Scans.pairs_error {rear : List Char}
    (error : ∀ {nstr result}, Scans rear nstr result → result.2 = true) {n : Nat} {nstr : List Char}
    {result : List PatternPart × Bool}
    (run : Scans (List.replicate (2 * n) '%' ++ rear) nstr result) : result.2 = true := by
  induction n generalizing nstr with
  | zero => exact error run
  | succ n ih =>
    rw [show 2 * (n + 1) = 2 * n + 1 + 1 by omega, List.replicate_succ, List.replicate_succ] at run
    cases run with
    | char other => exact absurd rfl other
    | doubled next => exact ih next
    | directive single => exact absurd rfl single
    | unclosed single => exact absurd rfl single

theorem last_of_append (front : List Char) {rear : List Char}
    (last : (front ++ rear).getLast? ≠ some '%') : rear.getLast? ≠ some '%' := by
  rw [List.getLast?_append] at last
  intro same
  rw [same] at last
  exact last rfl

/-- What a directive takes does not reach into `rear`, which begins with `%` and has no `}`. -/
theorem scanDirective_within {front rear behind : List Char} {str fmt : String}
    (begins : rear.head? = some '%') (never : '}' ∉ rear)
    (read : scanDirective (front ++ rear) [] = some (str, fmt, behind)) :
    ∃ taken left, front = taken ++ left ∧ behind = left ++ rear := by
  obtain ⟨taken, whole, kinds⟩ := scanDirective_some read
  rcases List.append_eq_append_iff.mp whole with ⟨into, taken_eq, rear_eq⟩ | ⟨left, same, rest⟩
  · cases into with
    | nil =>
      rw [List.append_nil] at taken_eq
      exact ⟨front, [], (List.append_nil _).symm, rear_eq.symm⟩
    | cons e more =>
      -- it would hold the `%` at the front of `rear`, and its end would be in `rear`
      subst taken_eq
      rw [rear_eq, List.cons_append, List.head?_cons, Option.some.injEq] at begins
      subst begins
      rcases kinds with letters | closed
      · exact absurd (letters '%' (by simp)) (by decide)
      · rw [List.getLast?_append_cons] at closed
        have inside := List.mem_append_left behind (List.mem_of_getLast? closed)
        exact absurd (rear_eq ▸ inside) never
  · exact ⟨taken, left, same, rest⟩

/-- The loop comes to `rear` or sets `error` before it. -/
theorem Scans.rear_error {rear : List Char} (begins : rear.head? = some '%') (never : '}' ∉ rear)
    (error : ∀ {nstr result}, Scans rear nstr result → result.2 = true)
    {chars nstr : List Char} {result : List PatternPart × Bool} (run : Scans chars nstr result)
    {front : List Char} (whole : chars = front ++ rear) (last : front.getLast? ≠ some '%') :
    result.2 = true := by
  induction run generalizing front with
  | done =>
    obtain ⟨-, rfl⟩ := List.append_eq_nil_iff.mp whole.symm
    exact absurd begins (by simp)
  | @char c rest nstr result other next ih =>
    cases front with
    | nil =>
      rw [← List.nil_append rear, ← whole, List.head?_cons, Option.some.injEq] at begins
      exact absurd begins other
    | cons d more =>
      exact ih (List.cons.inj whole).2 (last_of_append [d] last)
  | @doubled rest nstr result next ih =>
    -- a pair does not lie across the border, as `front` does not end with `%`
    cases front with
    | nil =>
      subst whole
      exact error (.doubled next)
    | cons d more =>
      cases more with
      | nil => exact absurd (congrArg some (List.cons.inj whole).1.symm) last
      | cons e more =>
        exact ih (List.cons.inj (List.cons.inj whole).2).2 (last_of_append [d, e] last)
  | @directive rest nstr str fmt behind vec err single read next ih =>
    cases front with
    | nil =>
      subst whole
      exact error (.directive single read next)
    | cons d more =>
      rw [(List.cons.inj whole).2] at read
      obtain ⟨taken, left, rfl, rest_eq⟩ := scanDirective_within begins never read
      exact ih rest_eq (last_of_append (d :: taken) last)
  | unclosed => rfl

theorem unclosed_error {pattern : String} (unclosed : Unclosed pattern) :
    (new pattern).isError = true := by
  obtain ⟨before, name, behind, chars, ⟨front, n, rfl, last⟩, letters, never⟩ := unclosed
  have run := scans (Nat.le_refl pattern.toList.length) []
  have inside : '}' ∉ List.replicate (2 * n) '%' ++ '%' :: (name ++ '{' :: behind) := by
    have not_letter : '}' ∉ name := fun member => absurd (letters _ member) (by decide)
    simp [not_letter, never]
  have begins :
      (List.replicate (2 * n) '%' ++ '%' :: (name ++ '{' :: behind)).head? = some '%' := by
    cases n with
    | zero => rfl
    | succ n => rw [show 2 * (n + 1) = 2 * n + 1 + 1 by omega]; rfl
  have error := run.rear_error begins inside (fun again => again.pairs_error (fun last_run =>
    last_run.open_error letters never)) (chars.trans (List.append_assoc ..)) last
  rw [String.length_toList] at error
  rw [isError, new_eq, error, Bool.true_or]

/-- A pattern written in the language gives its parts in order, and is an error when it names
an unknown directive and only then. The loop comes to its end on every pattern, and a format
that is not closed is an error. -/
theorem init_parses :
    (∀ layout : Layout,
      Scans layout.pattern.toList [] (merged layout.items, false) ∧
      List.Forall₂ PatternPart.Shows (merged layout.items) (new layout.pattern).items ∧
      ((new layout.pattern).isError = true ↔
        ∃ item ∈ layout.items, ∃ name ∈ item.name?, name ∉ formatItems.map Prod.fst)) ∧
    (∀ pattern : String, Scans pattern.toList [] (scan pattern.length pattern.toList [])) ∧
    ∀ pattern : String, Unclosed pattern → (new pattern).isError = true := by
  have ends (pattern : String) :
      Scans pattern.toList [] (scan pattern.length pattern.toList []) := by
    rw [← String.length_toList]
    exact scans (Nat.le_refl _) []
  refine ⟨fun layout => ?_, ends, fun pattern => unclosed_error⟩
  have run : Scans layout.pattern.toList [] (merged layout.items, false) := by
    rw [Layout.pattern, String.toList_ofList]
    exact scans_printAll layout.sound layout.separated []
  have same := (ends layout.pattern).unique run
  refine ⟨run, ?_, ?_⟩
  · rw [new_eq, same, List.forall₂_map_right_iff, List.forall₂_same]
    exact fun part _ => itemOf_shows part
  · rw [isError, new_eq, same, Bool.false_or, List.any_eq_true]
    constructor
    · rintro ⟨part, member, error⟩
      obtain ⟨name, fmt, rfl, unknown⟩ := (itemOf_unknown part).mp error
      obtain ⟨item, item_member, named⟩ := directive_mem_merged.mp ⟨fmt, member⟩
      exact ⟨item, item_member, name, named, unknown⟩
    · rintro ⟨item, item_member, name, named, unknown⟩
      obtain ⟨fmt, member⟩ := directive_mem_merged.mpr ⟨item, item_member, named⟩
      exact ⟨_, member, (itemOf_unknown _).mpr ⟨name, fmt, rfl, unknown⟩⟩

end LogFormatter

end Dwframe
