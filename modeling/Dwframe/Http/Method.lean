import Dwframe.Http.Tokens
import Mathlib.Data.List.TakeWhile

/-!
# The method of a request

`on_request_method` is called with a token and its length, but `CharsToHttpMethod` has no length
and asks which name is a prefix of the buffer from the token on. `StringToHttpMethod` compares the
whole text.
-/
namespace Dwframe.Http

/-- `StringToHttpMethod`; `strcmp` reads the text up to a NUL. -/
def stringToHttpMethod (m : Bytes) : HttpMethod :=
  match httpMethodMap.find? fun entry => entry.1 == m.takeWhile (· ≠ 0) with
  | some entry => entry.2
  | none => .INVALID_METHOD

/-- `upper | digit` of the grammar. -/
def isUpperOrDigit (b : UInt8) : Bool := (65 ≤ b && b ≤ 90) || (48 ≤ b && b ≤ 57)

/-- The grammar's `Method`: `( upper | digit ){1,20}`. -/
structure MethodToken where
  text : Bytes
  nonempty : text ≠ []
  short : text.length ≤ 20
  grammar : text.all isUpperOrDigit = true

/-- What the callback is to do with a token and the bytes behind it. -/
structure Classifies (r : Received) (token : MethodToken) (rest : Bytes) : Prop where
  known : ∀ entry ∈ httpMethodMap, token.text = entry.1 →
    r.onRequestMethod (token.text ++ rest) token.text.length =
      some { r with data := { r.data with method := entry.2 } }
  invalid : (∀ entry ∈ httpMethodMap, token.text ≠ entry.1) →
    r.onRequestMethod (token.text ++ rest) token.text.length = some (r.setError 1000)
  agrees : charsToHttpMethod (token.text ++ rest) = stringToHttpMethod token.text

/-! ### The table -/

/-- No name begins with another one. -/
theorem names_prefix_free : ∀ entry ∈ httpMethodMap, ∀ other ∈ httpMethodMap,
    other.1.isPrefixOf entry.1 = true → other = entry := by
  decide +kernel

theorem names_known : ∀ entry ∈ httpMethodMap, entry.2 ≠ .INVALID_METHOD := by
  decide

/-- The search through the table stops at an entry of it. -/
theorem exists_first {p : Bytes × HttpMethod → Bool} {entry : Bytes × HttpMethod}
    (listed : entry ∈ httpMethodMap) (holds : p entry = true) :
    ∃ first, httpMethodMap.find? p = some first ∧ first ∈ httpMethodMap ∧ p first = true := by
  obtain ⟨first, found⟩ :=
    Option.isSome_iff_exists.mp (List.find?_isSome.mpr ⟨entry, listed, holds⟩)
  exact ⟨first, found, List.mem_of_find?_eq_some found, List.find?_some found⟩

theorem charsToHttpMethod_eq {start : Bytes} {entry : Bytes × HttpMethod}
    (listed : entry ∈ httpMethodMap) (found : entry.1 <+: start)
    (only : ∀ other ∈ httpMethodMap, other.1 <+: start → other = entry) :
    charsToHttpMethod start = entry.2 := by
  obtain ⟨first, is_first, listed', is_prefix⟩ :=
    exists_first (p := fun e => e.1.isPrefixOf start) listed (List.isPrefixOf_iff_prefix.mpr found)
  rw [charsToHttpMethod, is_first, only first listed' (List.isPrefixOf_iff_prefix.mp is_prefix)]

theorem charsToHttpMethod_invalid {start : Bytes}
    (none_found : ∀ entry ∈ httpMethodMap, ¬entry.1 <+: start) :
    charsToHttpMethod start = .INVALID_METHOD := by
  rw [charsToHttpMethod, List.find?_eq_none.mpr fun entry listed is_prefix =>
    none_found entry listed (List.isPrefixOf_iff_prefix.mp is_prefix)]

/-- Some name is a prefix where the method is not invalid. -/
theorem charsToHttpMethod_ne_invalid {start : Bytes} {entry : Bytes × HttpMethod}
    (listed : entry ∈ httpMethodMap) (found : entry.1 <+: start) :
    charsToHttpMethod start ≠ .INVALID_METHOD := by
  obtain ⟨first, is_first, listed', -⟩ :=
    exists_first (p := fun e => e.1.isPrefixOf start) listed (List.isPrefixOf_iff_prefix.mpr found)
  rw [charsToHttpMethod, is_first]
  exact names_known first listed'

/-- A name is found whatever stands behind it. -/
theorem charsToHttpMethod_name {entry : Bytes × HttpMethod} (listed : entry ∈ httpMethodMap)
    (rest : Bytes) : charsToHttpMethod (entry.1 ++ rest) = entry.2 := by
  apply charsToHttpMethod_eq listed (List.prefix_append _ rest)
  intro other listed' found
  have self : entry.1 <+: entry.1 ++ rest := List.prefix_append entry.1 rest
  rcases List.prefix_or_prefix_of_prefix found self with shorter | longer
  · exact names_prefix_free entry listed other listed' (List.isPrefixOf_iff_prefix.mpr shorter)
  · exact (names_prefix_free other listed' entry listed
      (List.isPrefixOf_iff_prefix.mpr longer)).symm

/-! ### Texts -/

variable {r : Received} {token : MethodToken} {rest : Bytes}

theorem takeWhile_token (token : MethodToken) : token.text.takeWhile (· ≠ 0) = token.text := by
  rw [List.takeWhile_eq_self_iff]
  intro b member
  have allowed := List.all_eq_true.mp token.grammar b member
  apply decide_eq_true
  rintro rfl
  exact absurd allowed (by decide)

theorem stringToHttpMethod_name {entry : Bytes × HttpMethod} (listed : entry ∈ httpMethodMap)
    (named : token.text = entry.1) : stringToHttpMethod token.text = entry.2 := by
  obtain ⟨first, is_first, listed', same_name⟩ :=
    exists_first (p := fun e => e.1 == token.text) listed (by rw [named]; exact beq_self_eq_true _)
  have same := names_prefix_free entry listed first listed' (List.isPrefixOf_iff_prefix.mpr
    ((eq_of_beq same_name).trans named ▸ List.prefix_refl _))
  rw [stringToHttpMethod, takeWhile_token, is_first, same]

theorem stringToHttpMethod_invalid (unknown : ∀ entry ∈ httpMethodMap, token.text ≠ entry.1) :
    stringToHttpMethod token.text = .INVALID_METHOD := by
  rw [stringToHttpMethod, takeWhile_token, List.find?_eq_none.mpr fun entry listed same =>
    unknown entry listed (eq_of_beq same).symm]

theorem onRequestMethod_known {start : Bytes} {m : HttpMethod} (length : Int)
    (found : charsToHttpMethod start = m) (known : m ≠ .INVALID_METHOD) :
    r.onRequestMethod start length = some { r with data := { r.data with method := m } } := by
  rw [Received.onRequestMethod, found]
  exact if_neg known

theorem onRequestMethod_invalid {start : Bytes} (length : Int)
    (found : charsToHttpMethod start = .INVALID_METHOD) :
    r.onRequestMethod start length = some (r.setError 1000) := by
  rw [Received.onRequestMethod, found]
  exact if_pos rfl

/-- A token that is no name is taken for the name that the buffer begins with. -/
theorem classifies_iff :
    Classifies r token rest ↔
      (∃ entry ∈ httpMethodMap, token.text = entry.1) ∨
        ∀ entry ∈ httpMethodMap, ¬entry.1 <+: token.text ++ rest := by
  constructor
  · rintro ⟨-, -, agrees⟩
    by_contra! wrong
    obtain ⟨unknown, entry, listed, found⟩ := wrong
    rw [stringToHttpMethod_invalid unknown] at agrees
    exact charsToHttpMethod_ne_invalid listed found agrees
  · rintro (⟨entry, listed, named⟩ | none_found)
    · have chars : charsToHttpMethod (token.text ++ rest) = entry.2 := by
        rw [named]
        exact charsToHttpMethod_name listed rest
      refine ⟨fun other listed' named' => ?_,
        fun unknown => absurd named (unknown entry listed), ?_⟩
      · have same := names_prefix_free entry listed other listed'
          (List.isPrefixOf_iff_prefix.mpr (named'.symm.trans named ▸ List.prefix_refl _))
        rw [same]
        exact onRequestMethod_known _ chars (names_known entry listed)
      · rw [chars, stringToHttpMethod_name listed named]
    · have unknown : ∀ entry ∈ httpMethodMap, token.text ≠ entry.1 := fun entry listed named =>
        none_found entry listed (named ▸ List.prefix_append _ rest)
      have chars := charsToHttpMethod_invalid none_found
      exact ⟨fun entry listed named => absurd named (unknown entry listed),
        fun _ => onRequestMethod_invalid _ chars, by rw [chars, stringToHttpMethod_invalid unknown]⟩

/-- In a request line a space follows, so only names that the token begins with are found. -/
theorem name_prefix_iff {entry : Bytes × HttpMethod} (listed : entry ∈ httpMethodMap)
    (more : Bytes) : entry.1 <+: token.text ++ 32 :: more ↔ entry.1 <+: token.text := by
  constructor
  · intro found
    have spaced : token.text ++ [32] <+: token.text ++ 32 :: more :=
      (List.prefix_append_right_inj _).mpr (List.prefix_append [32] more)
    rcases List.prefix_or_prefix_of_prefix found spaced with shorter | longer
    · rcases List.prefix_concat_iff.mp shorter with whole | inside
      · exact absurd (show 32 ∈ entry.1 by rw [whole]; simp) (methods_without_space entry listed)
      · exact inside
    · exact absurd (longer.subset (by simp)) (methods_without_space entry listed)
  · exact fun inside => inside.trans (List.prefix_append _ _)

/-- `GETX` is taken for `GET`. -/
theorem getx_is_get :
    ∃ token : MethodToken, token.text = bytes "GETX" ∧
      Received.onRequestMethod {} (token.text ++ bytes " / HTTP/1.1") token.text.length =
        some { data := { method := .GET } } ∧
      stringToHttpMethod token.text = .INVALID_METHOD ∧
      ¬Classifies {} token (bytes " / HTTP/1.1") := by
  refine ⟨⟨bytes "GETX", by decide, by decide, by decide⟩, rfl, rfl, rfl, fun right => ?_⟩
  exact absurd right.agrees (by decide)

end Dwframe.Http
