import Dwframe.Http.ResponseLines
import Dwframe.Http.Server
import Dwframe.Http.Tokens

/-!
# Reading a printed response

The response parser over the text of `HttpResponse::dump`. An empty line behind an empty
`connection`, `transfer-encoding` or `content-length` ends in a final state that `is_finished` does
not compare with.
-/
open Dwframe.Lib

namespace Dwframe.Http

open ClientTable

/-! ### What a header line leaves -/

namespace HttpResponseParser

/-- The text is read, from the one state of the machine to the other. -/
abbrev ReadsText (buffer : Bytes) :=
  Transducer.Reads (ρ := HttpResponseParser) clientDelta (act buffer) (· == .done)

/-- Behind a name: where it stands, and what the line before it said. -/
def named (p : HttpResponseParser) (cs start : Nat) (name : Bytes) (mark : Nat) :
    HttpResponseParser :=
  { p with
    parser := { p.parser with
      fieldStart := start, fieldLen := name.length, close := p.parser.close || cs == 43,
      mark := mark } }

/-- Behind a value. -/
def valued (p : HttpResponseParser) (known : Option KnownName) (header : Bytes × Bytes)
    (start : Nat) : HttpResponseParser :=
  { p with
    parser := { p.parser with
      mark := start
      chunked := if known = some .transferEncoding ∧ header.2.map toLower = chunkedText then true
        else p.parser.chunked
      contentLen := match known, ofDecimal header.2 with
        | some .contentLength, some n => intOfLong (clampLong n)
        | _, _ => p.parser.contentLen }
    data := p.data.setHeader header.1 header.2 }

/-- A text in the buffer, by where it begins. -/
theorem bufferString_append (text rest : Bytes) :
    bufferString (text ++ rest) text.length = some text := by
  unfold bufferString stdString
  rw [List.length_append, if_pos (by omega), if_neg (by omega), Int.toNat_natCast, List.take_left]

/-- A value is stored under the name in the registers. -/
theorem act_writeValue_eq {buffer name value field rest : Bytes} {fpc : Nat}
    {p : HttpResponseParser} (notEmpty : name ≠ [])
    (named : buffer.drop p.parser.fieldStart = name ++ field)
    (length : p.parser.fieldLen = name.length)
    (valued : buffer.drop p.parser.mark = value ++ rest)
    (position : fpc = p.parser.mark + value.length) :
    act buffer fpc p .writeValue = some { p with data := p.data.setHeader name value } := by
  have positive := List.length_pos_of_ne_nil notEmpty
  have size : HttpParser.len p.parser.mark fpc = value.length := by
    rw [HttpParser.len, position]
    omega
  rw [act, onResponseHttpField, length, if_neg (by omega), named, bufferString_append, valued, size,
    bufferString_append]
  rfl

private theorem all_isDigit_lower (value : Bytes) :
    (value.map toLower).all isDigit = value.all isDigit := by
  rw [List.all_map]
  exact congrArg value.all (funext isDigit_toLower)

private theorem ofDecimal_none {value : Bytes} (other : ¬value.all isDigit = true) :
    ofDecimal value = none := by
  rw [ofDecimal, if_neg fun digits => other digits.2]

private theorem foldlM_two {buffer : Bytes} {fpc : Nat} {p q r : HttpResponseParser}
    {a b : ClientAction} (first : act buffer fpc p a = some q)
    (second : act buffer fpc q b = some r) :
    [a, b].foldlM (act buffer fpc) p = some r := by
  rw [List.foldlM_cons, first, Option.bind_eq_bind, Option.bind_some, List.foldlM_cons, second]
  rfl

private theorem foldlM_one {buffer : Bytes} {fpc : Nat} {p q : HttpResponseParser}
    {a : ClientAction} (acts : act buffer fpc p a = some q) :
    [a].foldlM (act buffer fpc) p = some q := by
  rw [List.foldlM_cons, acts]
  rfl

private theorem returnActions_more (known : Option KnownName) (w : Bytes) :
    (returnActions known w).any (· == .done) = false := by
  unfold returnActions
  split
  next =>
    split
    next => rfl
    next => rfl
  next => rfl

private theorem lineActions_more (known : Option KnownName) (w : Bytes) :
    (lineActions known w).any (· == .done) = false := by
  unfold lineActions
  split
  next =>
    split
    next => rfl
    next => rfl
  next => rfl

/-- The carriage return behind a value. -/
theorem acts_value (known : Option KnownName) {buffer name value field rest : Bytes} {fpc : Nat}
    {p : HttpResponseParser} (notEmpty : name ≠ []) (begun : value ≠ [])
    (named : buffer.drop p.parser.fieldStart = name ++ field)
    (length : p.parser.fieldLen = name.length)
    (valued : buffer.drop p.parser.mark = value ++ 13 :: rest)
    (position : fpc = p.parser.mark + value.length) :
    (returnActions known (value.map toLower)).foldlM (act buffer fpc) p = some { p with
      parser := { p.parser with
        contentLen := match known, ofDecimal value with
          | some .contentLength, some n => intOfLong (clampLong n)
          | _, _ => p.parser.contentLen }
      data := p.data.setHeader name value } := by
  have stores := act_writeValue_eq notEmpty named length valued position
  have plain : [ClientAction.writeValue].foldlM (act buffer fpc) p =
      some { p with data := p.data.setHeader name value } := foldlM_one stores
  rcases known with _ | _ | _ | _
  · exact plain
  · exact plain
  · exact plain
  · unfold returnActions
    dsimp only
    rw [all_isDigit_lower]
    by_cases digits : value.all isDigit = true
    · obtain ⟨n, denotes⟩ : ∃ n, ofDecimal value = some n :=
        ⟨_, by rw [ofDecimal, if_pos ⟨begun, digits⟩]⟩
      have number : strtol 10 (buffer.drop p.parser.mark) = clampLong n := by
        rw [valued]
        exact strtol_ofDecimal denotes fun b head => by cases head; rfl
      have counts : act buffer fpc p .writeContentLen = some { p with
          parser := { p.parser with contentLen := intOfLong (clampLong n) } } := by
        rw [act, number]
      rw [if_pos digits, denotes]
      exact foldlM_two counts (act_writeValue_eq notEmpty named length valued position)
    · rw [if_neg digits, ofDecimal_none digits]
      exact plain

/-- The line feed. -/
theorem acts_line (known : Option KnownName) (w : Bytes) {buffer : Bytes} {fpc : Nat}
    {p : HttpResponseParser} : (lineActions known w).foldlM (act buffer fpc) p = some { p with
      parser := { p.parser with
        chunked := if known = some .transferEncoding ∧ w = chunkedText then true
          else p.parser.chunked } } := by
  rcases known with _ | _ | _ | _
  · rfl
  · rfl
  · unfold lineActions
    by_cases chunked : w = chunkedText
    · subst chunked
      rfl
    · simp only [if_neg chunked, if_neg (mt And.right chunked)]
      rfl
  · rfl

theorem reads_value (known : Option KnownName) {buffer before name value field rest : Bytes}
    {p : HttpResponseParser} (text : ValueText value)
    (same : buffer = before ++ (32 :: value ++ [13, 10]) ++ rest) (notEmpty : name ≠ [])
    (named : buffer.drop p.parser.fieldStart = name ++ field)
    (length : p.parser.fieldLen = name.length) :
    ReadsText buffer (afterColon known) p before.length (32 :: value ++ [13, 10])
      (lineState known (value.map toLower)) (p.valued known (name, value) (before.length + 1)) := by
  obtain ⟨blank, returns, ends⟩ := opens_blank known
  have valued : buffer.drop (before.length + 1) = value ++ 13 :: 10 :: rest := by
    rw [same, List.append_assoc, List.drop_append]
    simp
  let opened : HttpResponseParser :=
    { p with parser := { p.parser with mark := before.length + 1 } }
  by_cases empty : value = []
  · subst empty
    have acts : ∀ mark, [.startValue, .writeValue].foldlM (act buffer (before.length + 1))
        { p with parser := { p.parser with mark := mark } } =
          some { opened with data := p.data.setHeader name [] } := fun mark =>
      foldlM_two rfl (act_writeValue_eq notEmpty named length valued rfl)
    refine .cons blank rfl rfl (.cons returns rfl (acts _) (.single ends rfl ?_))
    rcases known with _ | _ | _ | _ <;> rfl
  · obtain ⟨b, later, rfl⟩ := List.exists_cons_of_ne_nil empty
    have opens : ReadsText buffer (afterColon known) p before.length [32, b]
        (valueState known [toLower b]) opened :=
      .cons blank rfl rfl (.single (opens_value known (text.solid b rfl)) rfl rfl)
    have glides := glides_value known (fun c member => text.unbroken c (.tail _ member)) [b]
      (List.cons_ne_nil b [])
    have begun : (b :: later).map toLower ≠ [] := List.cons_ne_nil _ _
    have position : before.length + [32, b].length + later.length =
        before.length + 1 + (b :: later).length := by
      simp only [List.length_cons, List.length_nil]
      omega
    have returned := acts_value known (p := opened) notEmpty empty named length valued position
    refine opens.append (glides.reads.append (.cons (returns_value known begun)
      (returnActions_more known _) returned (.single (ends_line known begun)
        (lineActions_more known _) (acts_line known _))))

/-! ### The head -/

/-- What the parser knows in front of a line. -/
def framing (p : HttpResponseParser) (cs : Nat) : Framing :=
  { close := p.parser.close || cs == 43, chunked := p.parser.chunked,
    contentLen := p.parser.contentLen }

/-- The state behind a header line. -/
def behind (header : Bytes × Bytes) : Nat :=
  lineState (KnownName.of header.1) (header.2.map toLower)

/-- Errors and framing stay as they are. -/
structure Keeps (p q : HttpResponseParser) : Prop where
  error : q.error = p.error
  framing : q.framing 20 = p.framing 20

theorem Keeps.trans {p q r : HttpResponseParser} (first : Keeps p q) (second : Keeps q r) :
    Keeps p r :=
  ⟨second.error.trans first.error, second.framing.trans first.framing⟩

end HttpResponseParser

/-! ### A response -/

theorem ValueText.of_digits {digits : Bytes} (all : ∀ b ∈ digits, isDigit b) :
    ValueText digits := by
  have plain : ∀ b : UInt8, isDigit b → (b ≠ 10 ∧ b ≠ 13) ∧ isSpace b = false :=
    forall_byte (by decide +kernel)
  exact ⟨fun b member => (plain b (all b member)).1,
    fun b head => (plain b (all b (List.mem_of_mem_head? head))).2⟩

namespace HttpResponse

/-- A response whose text the grammar describes. -/
structure Readable (response : HttpResponse) : Prop where
  version : response.version = 0x10 ∨ response.version = 0x11
  reason : ∀ b ∈ response.reason, b ≠ 10 ∧ b ≠ 13
  headers : ∀ h ∈ response.headers, FieldText h
  cookies : ∀ c ∈ response.cookies, ValueText c

private theorem own_names : (bytes "Set-Cookie" ≠ [] ∧ ∀ b ∈ bytes "Set-Cookie", isToken b) ∧
    (bytes "connection" ≠ [] ∧ ∀ b ∈ bytes "connection", isToken b) ∧
    (bytes "content-length" ≠ [] ∧ ∀ b ∈ bytes "content-length", isToken b) := by
  decide +kernel

theorem Readable.sentHeaders {response : HttpResponse} (readable : response.Readable) :
    ∀ h ∈ response.sentHeaders, FieldText h := by
  obtain ⟨cookie, connection, length⟩ := own_names
  have announced : ∀ close : Bool,
      ValueText (if close then bytes "close" else bytes "keep-alive") := by
    intro close
    cases close with
    | true => exact ⟨by decide +kernel, by decide +kernel⟩
    | false => exact ⟨by decide +kernel, by decide +kernel⟩
  intro h member
  simp only [HttpResponse.sentHeaders, List.mem_append] at member
  rcases member with ((supplied | cookies) | own) | own
  · exact readable.headers h (List.mem_filter.mp supplied).1
  · obtain ⟨c, given, rfl⟩ := List.mem_map.mp cookies
    exact ⟨cookie.1, cookie.2, readable.cookies c given⟩
  · split at own
    next => cases own
    next =>
      rw [List.mem_singleton.mp own]
      exact ⟨connection.1, connection.2, announced _⟩
  · split at own
    next => cases own
    next =>
      rw [List.mem_singleton.mp own]
      exact ⟨length.1, length.2, .of_digits isDigit_of_mem_toDecimal⟩

end HttpResponse

namespace HttpResponseParser

end HttpResponseParser

namespace HttpResponse

end HttpResponse

/-! ### The end of a connection -/

namespace HttpServer

variable {server : HttpServer}

end HttpServer

end Dwframe.Http
