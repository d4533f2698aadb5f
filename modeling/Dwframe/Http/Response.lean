import Dwframe.Http.HeaderMap

/-!
# Printing a response

`HttpResponse::dump`, and whether the text tells a client where it ends. The header lines come
from three places: the header map, the cookies, and the lines that `dump` adds. What a servlet
puts into the first two is printed as it is, line breaks included.
-/
open Dwframe.Lib

namespace Dwframe.Http

/-- `HttpStatus`, by its number. -/
abbrev HttpStatus := UInt32

/-- `HTTP_STATUS_MAP`. -/
def httpStatusMap : List (HttpStatus × Bytes) :=
  [(100, bytes "Continue"), (101, bytes "Switching Protocols"), (102, bytes "Processing"),
    (200, bytes "OK"), (201, bytes "Created"), (202, bytes "Accepted"),
    (203, bytes "Non-Authoritative Information"), (204, bytes "No Content"),
    (205, bytes "Reset Content"), (206, bytes "Partial Content"), (207, bytes "Multi-Status"),
    (208, bytes "Already Reported"), (226, bytes "IM Used"), (300, bytes "Multiple Choices"),
    (301, bytes "Moved Permanently"), (302, bytes "Found"), (303, bytes "See Other"),
    (304, bytes "Not Modified"), (305, bytes "Use Proxy"), (307, bytes "Temporary Redirect"),
    (308, bytes "Permanent Redirect"), (400, bytes "Bad Request"), (401, bytes "Unauthorized"),
    (402, bytes "Payment Required"), (403, bytes "Forbidden"), (404, bytes "Not Found"),
    (405, bytes "Method Not Allowed"), (406, bytes "Not Acceptable"),
    (407, bytes "Proxy Authentication Required"), (408, bytes "Request Timeout"),
    (409, bytes "Conflict"), (410, bytes "Gone"), (411, bytes "Length Required"),
    (412, bytes "Precondition Failed"), (413, bytes "Payload Too Large"),
    (414, bytes "URI Too Long"), (415, bytes "Unsupported Media Type"),
    (416, bytes "Range Not Satisfiable"), (417, bytes "Expectation Failed"),
    (421, bytes "Misdirected Request"), (422, bytes "Unprocessable Entity"),
    (423, bytes "Locked"), (424, bytes "Failed Dependency"), (426, bytes "Upgrade Required"),
    (428, bytes "Precondition Required"), (429, bytes "Too Many Requests"),
    (431, bytes "Request Header Fields Too Large"),
    (451, bytes "Unavailable For Legal Reasons"), (500, bytes "Internal Server Error"),
    (501, bytes "Not Implemented"), (502, bytes "Bad Gateway"),
    (503, bytes "Service Unavailable"), (504, bytes "Gateway Timeout"),
    (505, bytes "HTTP Version Not Supported"), (506, bytes "Variant Also Negotiates"),
    (507, bytes "Insufficient Storage"), (508, bytes "Loop Detected"),
    (510, bytes "Not Extended"), (511, bytes "Network Authentication Required")]

def httpStatusToString (s : HttpStatus) : Bytes :=
  match httpStatusMap.find? fun entry => entry.1 == s with
  | some entry => entry.2
  | none => bytes "<unknown>"

structure HttpResponse where
  status : HttpStatus := 200
  version : UInt8 := 0x11
  close : Bool := true
  websocket : Bool := false
  body : Bytes := []
  reason : Bytes := []
  headers : List (Bytes × Bytes) := []
  cookies : List Bytes := []
  deriving DecidableEq, Repr

namespace HttpResponse

def setHeader (response : HttpResponse) (key val : Bytes) : HttpResponse :=
  { response with headers := Http.setHeader key val response.headers }

/-- `setCookie`; the expiry is not printed. -/
def setCookie (response : HttpResponse) (key val : Bytes) (path domain : Bytes := [])
    (secure : Bool := false) : HttpResponse :=
  { response with
    cookies := response.cookies ++ [key ++ bytes "=" ++ val ++
      (if domain = [] then [] else bytes ";domain=" ++ domain) ++
      (if path = [] then [] else bytes ";path=" ++ path) ++
      (if secure then bytes ";secure" else [])] }

/-! ### The text -/

/-- The status line. -/
def statusLine (response : HttpResponse) : Bytes :=
  versionText response.version ++ bytes " " ++ toDecimal response.status.toNat ++ bytes " " ++
    (if response.reason = [] then httpStatusToString response.status else response.reason)

/-- The lines of the header map. -/
def mapLines (response : HttpResponse) : List Bytes :=
  headerMapLines response.websocket response.headers

def cookieLines (response : HttpResponse) : List Bytes :=
  response.cookies.map fun i => bytes "Set-Cookie: " ++ i

/-- `dump`. -/
def dump (response : HttpResponse) : Bytes :=
  response.statusLine ++ crlf ++
  response.mapLines.flatMap (· ++ crlf) ++
  response.cookieLines.flatMap (· ++ crlf) ++
  (if response.websocket then [] else connectionLine response.close ++ crlf) ++
  (if response.body = [] then crlf
    else contentLengthLine response.body.length ++ crlf ++ crlf ++ response.body)

/-! ### Where the message ends -/

/-- A header line of this name, in any case. -/
def isField (name line : Bytes) : Bool :=
  line.contains 58 && (fieldName line).map toLower == name

def fields (name : Bytes) (lines : List Bytes) : List Bytes := lines.filter (isField name)

/-- What the lines of a head tell about the connection and about the size of the body. -/
structure Delimits (close : Bool) (size : Nat) (lines : List Bytes) : Prop where
  connection : ∃ line, fields (bytes "connection") lines = [line] ∧
    (fieldValue line).map toLower = if close then bytes "close" else bytes "keep-alive"
  length : fields (bytes "content-length") lines = [] ∨
    ∃ line, fields (bytes "content-length") lines = [line] ∧
      ofDecimal (fieldValue line) = some size
  required : size ≠ 0 ∨ close = false → fields (bytes "content-length") lines ≠ []

/-- The lines that the reason, the header map and the cookies bring into the head. -/
def suppliedLines (response : HttpResponse) : List Bytes :=
  (splitLines response.statusLine).tail ++
    (response.mapLines ++ response.cookieLines).flatMap splitLines

/-- When the head delimits, in terms of the lines that are supplied to it. -/
inductive Supplied (close : Bool) (size : Nat) (lines : List Bytes) : Prop where
  /-- An empty line ends the head early, and the lines in front of it delimit by themselves. -/
  | cut (broken : [] ∈ lines) (delimits : Delimits close size (lines.takeWhile (· ≠ [])))
  /-- There is a body, and the two lines of `dump` stand alone. -/
  | body (whole : [] ∉ lines) (connection : fields (bytes "connection") lines = [])
      (present : size ≠ 0) (length : fields (bytes "content-length") lines = [])
  /-- There is no body, and the connection is closed behind the head. -/
  | closing (whole : [] ∉ lines) (connection : fields (bytes "connection") lines = [])
      (none : size = 0) (closed : close = true)
      (length : fields (bytes "content-length") lines = [])
  /-- There is no body, and a length of 0 is supplied. -/
  | zero (whole : [] ∉ lines) (connection : fields (bytes "connection") lines = [])
      (none : size = 0) (line : Bytes) (length : fields (bytes "content-length") lines = [line])
      (denotes : ofDecimal (fieldValue line) = some 0)

/-- The lines of `dump` itself. -/
def ownLines (close : Bool) (size : Nat) : List Bytes :=
  connectionLine close :: if size = 0 then [] else [contentLengthLine size]

private theorem fields_append {name : Bytes} {a b : List Bytes} :
    fields name (a ++ b) = fields name a ++ fields name b := List.filter_append ..

/-- A byte that is none of the characters of a text. -/
private theorem not_mem_bytes {b : UInt8} {cs : List Char}
    (absent : (cs.all fun c => UInt8.ofNat c.toNat != b) = true) :
    b ∉ bytes (String.ofList cs) := by
  rw [bytes, String.toList_ofList, List.mem_map]
  rintro ⟨c, member, same⟩
  have differs := List.all_eq_true.mp absent c member
  simp [same] at differs

private theorem contentLengthLine_field (size : Nat) :
    isField (bytes "content-length") (contentLengthLine size) = true ∧
      isField (bytes "connection") (contentLengthLine size) = false ∧
      ofDecimal (fieldValue (contentLengthLine size)) = some size := by
  have line : contentLengthLine size = bytes "content-length" ++ 58 :: 32 :: toDecimal size := rfl
  have plain : 58 ∉ bytes "content-length" := not_mem_bytes rfl
  have colon : (contentLengthLine size).contains 58 = true := by simp [line]
  refine ⟨?_, ?_, ?_⟩
  · rw [isField, colon, line, fieldName_append plain]
    decide +kernel
  · rw [isField, colon, line, fieldName_append plain]
    decide +kernel
  · rw [line, fieldValue_append plain, trim_space]
    exact ofDecimal_trim (ofDecimal_toDecimal size)

private theorem fields_ownLines (close : Bool) (size : Nat) :
    fields (bytes "connection") (ownLines close size) = [connectionLine close] ∧
      fields (bytes "content-length") (ownLines close size) =
        if size = 0 then [] else [contentLengthLine size] := by
  have connection : isField (bytes "connection") (connectionLine close) = true ∧
      isField (bytes "content-length") (connectionLine close) = false := by
    cases close <;> decide +kernel
  obtain ⟨named, notConnection, -⟩ := contentLengthLine_field size
  unfold ownLines fields
  split
  · simp [connection]
  · simp [connection, named, notConnection]

private theorem connectionLine_agrees (close : Bool) :
    (fieldValue (connectionLine close)).map toLower =
      if close then bytes "close" else bytes "keep-alive" := by
  cases close <;> decide +kernel

private theorem splitLines_ownLines (close : Bool) (size : Nat) :
    (ownLines close size).flatMap splitLines = ownLines close size := by
  have connection : splitLines (connectionLine close) = [connectionLine close] := by
    cases close <;> decide +kernel
  have length : splitLines (contentLengthLine size) = [contentLengthLine size] := by
    apply splitLines_of_not_mem
    rw [contentLengthLine, List.mem_append, not_or]
    refine ⟨not_mem_bytes rfl, fun cr => ?_⟩
    exact absurd (isDigit_of_mem_toDecimal _ cr) (by decide)
  unfold ownLines
  split
  · simp [connection]
  · simp [connection, length]

/-- The head of the text: what is supplied, and then the lines of `dump`. -/
theorem headerLines_dump {response : HttpResponse} (plain : response.websocket = false) :
    headerLines response.dump =
      (response.suppliedLines ++ ownLines response.close response.body.length).takeWhile
        (· ≠ []) := by
  have text : response.dump = response.statusLine ++ crlf ++
      ((response.mapLines ++ response.cookieLines ++
        ownLines response.close response.body.length).flatMap (· ++ crlf) ++
        ([] ++ crlf ++ response.body)) := by
    unfold dump ownLines
    by_cases empty : response.body = []
    · simp [plain, empty, List.flatMap_append]
    · simp [plain, empty, List.flatMap_append]
  -- the lines of `dump` itself are whole; everything else may break into several
  have lines : splitLines response.dump = splitLines response.statusLine ++
      ((response.mapLines ++ response.cookieLines).flatMap splitLines ++
        (ownLines response.close response.body.length ++ [] :: splitLines response.body)) := by
    rw [text, splitLines_append, splitLines_flatMap, splitLines_append, List.flatMap_append,
      splitLines_ownLines, List.append_assoc]
    rfl
  rw [headerLines, lines, List.tail_append_of_ne_nil (splitLines_ne_nil _), suppliedLines,
    ← List.append_assoc, ← List.append_assoc, takeWhile_append_empty, List.append_assoc]

/-- With nothing empty in front of them, the lines of `dump` come last. -/
private theorem takeWhile_whole {lines : List Bytes} (whole : [] ∉ lines) (close : Bool)
    (size : Nat) :
    (lines ++ ownLines close size).takeWhile (· ≠ []) = lines ++ ownLines close size := by
  rw [List.takeWhile_eq_self_iff]
  intro line member
  rw [decide_eq_true_eq]
  rintro rfl
  rcases List.mem_append.mp member with supplied | own
  · exact whole supplied
  · revert own
    unfold ownLines
    split <;> cases close <;> simp [connectionLine, contentLengthLine, bytes]

private theorem takeWhile_cut {lines more : List Bytes} (broken : [] ∈ lines) :
    (lines ++ more).takeWhile (· ≠ []) = lines.takeWhile (· ≠ []) := by
  obtain ⟨before, after, rfl⟩ := List.append_of_mem broken
  rw [List.append_assoc, List.cons_append, takeWhile_append_empty, takeWhile_append_empty]

/-- The lines of `dump` behind supplied ones: theirs may be no `connection`, and a
`content-length` only where `dump` prints none. -/
private theorem delimits_append_iff {close : Bool} {size : Nat} {lines : List Bytes} :
    Delimits close size (lines ++ ownLines close size) ↔
      fields (bytes "connection") lines = [] ∧
      ((size ≠ 0 ∧ fields (bytes "content-length") lines = []) ∨
        (size = 0 ∧ close = true ∧ fields (bytes "content-length") lines = []) ∨
        (size = 0 ∧ ∃ line, fields (bytes "content-length") lines = [line] ∧
          ofDecimal (fieldValue line) = some 0)) := by
  obtain ⟨connection, length⟩ := fields_ownLines close size
  constructor
  · rintro ⟨⟨line, only, -⟩, lengths, required⟩
    rw [fields_append, connection, List.append_eq_singleton_iff] at only
    have none : fields (bytes "connection") lines = [] := by
      rcases only with ⟨none, -⟩ | ⟨-, empty⟩
      · exact none
      · cases empty
    refine ⟨none, ?_⟩
    rw [fields_append, length] at lengths required
    by_cases empty : size = 0
    · rw [if_pos empty, List.append_nil] at lengths required
      subst empty
      rcases lengths with absent | present
      · -- without a length the connection cannot be kept
        have closed : close = true := by
          by_contra kept
          exact required (.inr (by simpa using kept)) absent
        exact .inr (.inl ⟨rfl, closed, absent⟩)
      · exact .inr (.inr ⟨rfl, present⟩)
    · rw [if_neg empty] at lengths
      rcases lengths with absent | ⟨line, single, -⟩
      · simp at absent
      · rcases List.append_eq_singleton_iff.mp single with ⟨none, -⟩ | ⟨-, nothing⟩
        · exact .inl ⟨empty, none⟩
        · cases nothing
  · rintro ⟨none, lengths⟩
    refine ⟨⟨connectionLine close, ?_, connectionLine_agrees close⟩, ?_, ?_⟩
    · rw [fields_append, none, connection, List.nil_append]
    · rw [fields_append, length]
      rcases lengths with ⟨present, absent⟩ | ⟨rfl, -, absent⟩ | ⟨rfl, supplied⟩
      · rw [if_neg present, absent, List.nil_append]
        exact .inr ⟨_, rfl, (contentLengthLine_field size).2.2⟩
      · exact .inl (by rw [absent, if_pos rfl, List.append_nil])
      · rw [if_pos rfl, List.append_nil]
        exact .inr supplied
    · rw [fields_append, length]
      intro needed
      rcases lengths with ⟨present, absent⟩ | ⟨rfl, closed, -⟩ | ⟨rfl, line, single, -⟩
      · simp [present]
      · simp [closed] at needed
      · simp [single]

/-- The head delimits exactly when the supplied lines let it. -/
theorem dump_delimits_iff {response : HttpResponse} (plain : response.websocket = false) :
    Delimits response.close response.body.length (headerLines response.dump) ↔
      Supplied response.close response.body.length response.suppliedLines := by
  rw [headerLines_dump plain]
  by_cases broken : [] ∈ response.suppliedLines
  · rw [takeWhile_cut broken]
    constructor
    · exact .cut broken
    · intro supplied
      cases supplied with
      | cut _ delimits => exact delimits
      | body whole => exact absurd broken whole
      | closing whole => exact absurd broken whole
      | zero whole => exact absurd broken whole
  · rw [takeWhile_whole broken, delimits_append_iff]
    constructor
    · rintro ⟨connection, ⟨present, absent⟩ | ⟨none, closed, absent⟩ | ⟨none, line, single, zero⟩⟩
      · exact .body broken connection present absent
      · exact .closing broken connection none closed absent
      · exact .zero broken connection none line single zero
    · intro supplied
      cases supplied with
      | cut inside => exact absurd inside broken
      | body _ connection present absent => exact ⟨connection, .inl ⟨present, absent⟩⟩
      | closing _ connection none closed absent =>
        exact ⟨connection, .inr (.inl ⟨none, closed, absent⟩)⟩
      | zero _ connection none line single zero =>
        exact ⟨connection, .inr (.inr ⟨none, line, single, zero⟩)⟩

/-- A header of a servlet in front of a body. -/
theorem dump_delimits_iff_server :
    Delimits false 2 (headerLines
      (({ close := false, body := bytes "ok" } : HttpResponse).setHeader (bytes "Server")
        (bytes "dwframe/1.0.0")).dump) :=
  (@dump_delimits_iff (({ close := false, body := bytes "ok" } : HttpResponse).setHeader
    (bytes "Server") (bytes "dwframe/1.0.0")) rfl).mpr
    (.body (by decide +kernel) (by decide +kernel) (by decide) (by decide +kernel))

/-- A kept connection without a body has no length, and a length that a servlet sets is printed
next to the one of `dump`. -/
theorem length_missing_and_twice :
    ¬ Delimits false 0 (headerLines ({ close := false } : HttpResponse).dump) ∧
      ¬ Delimits true 2 (headerLines
        (({ body := bytes "ok" } : HttpResponse).setHeader (bytes "Content-Length")
          (bytes "5")).dump) := by
  constructor
  · intro delimits
    have length := delimits.required (.inr rfl)
    revert length
    decide +kernel
  · intro delimits
    have twice : fields (bytes "content-length") (headerLines
        (({ body := bytes "ok" } : HttpResponse).setHeader (bytes "Content-Length")
          (bytes "5")).dump) = [bytes "Content-Length: 5", bytes "content-length: 2"] := by
      decide +kernel
    rcases delimits.length with none | ⟨line, one, -⟩
    · rw [twice] at none
      cases none
    · rw [twice] at one
      cases one

/-! ### Without line breaks -/

/-- Nothing that is supplied breaks a line, and no key holds a colon. -/
structure Unbroken (response : HttpResponse) : Prop where
  reason : 13 ∉ response.reason
  keys : ∀ i ∈ response.headers, 13 ∉ i.1 ∧ 58 ∉ i.1
  values : ∀ i ∈ response.headers, 13 ∉ i.2
  cookies : ∀ i ∈ response.cookies, 13 ∉ i

/-- The values that the header map holds for `content-length`. -/
def suppliedLengths (response : HttpResponse) : List Bytes :=
  (response.headers.filter fun i => i.1.map toLower == bytes "content-length").map Prod.snd

private theorem not_mem_httpStatusToString (s : HttpStatus) : 13 ∉ httpStatusToString s := by
  have table : ∀ entry ∈ httpStatusMap, 13 ∉ entry.2 := by
    simp only [httpStatusMap, List.forall_mem_cons]
    repeat' apply And.intro
    all_goals first
      | exact not_mem_bytes rfl
      | exact fun _ member => nomatch member
  unfold httpStatusToString
  split
  next entry found => exact table entry (List.mem_of_find?_eq_some found)
  next => exact not_mem_bytes rfl

private theorem not_mem_toDecimal (n : Nat) : 13 ∉ toDecimal n := fun cr =>
  absurd (isDigit_of_mem_toDecimal _ cr) (by decide)

private theorem strcasecmpEq_congr {a b key : Bytes} (same : a.map toLower = b.map toLower) :
    strcasecmpEq a key = strcasecmpEq b key := by
  rw [Bool.eq_iff_iff, strcasecmpEq_iff, strcasecmpEq_iff, cString_congr same]

private theorem isField_entry {name key value : Bytes} (plain : 58 ∉ key) :
    isField name (key ++ bytes ": " ++ value) = (key.map toLower == name) := by
  have line : key ++ bytes ": " ++ value = key ++ 58 :: 32 :: value := by
    rw [List.append_assoc]
    rfl
  have colon : (key ++ 58 :: 32 :: value).contains 58 = true := by simp
  rw [line, isField, colon, fieldName_append plain, Bool.true_and]

section Unbroken

variable {response : HttpResponse}

private theorem suppliedLines_of_unbroken (unbroken : response.Unbroken) :
    response.suppliedLines = response.mapLines ++ response.cookieLines := by
  have status : splitLines response.statusLine = [response.statusLine] := by
    apply splitLines_of_not_mem
    have reason : 13 ∉ (if response.reason = [] then httpStatusToString response.status
        else response.reason) := by
      split
      · exact not_mem_httpStatusToString _
      · exact unbroken.reason
    have literals : 13 ∉ bytes "HTTP/" ∧ 13 ∉ bytes "." ∧ 13 ∉ bytes " " :=
      ⟨not_mem_bytes rfl, not_mem_bytes rfl, not_mem_bytes rfl⟩
    have version : 13 ∉ versionText response.version := by
      simp only [versionText, List.mem_append, not_or]
      exact ⟨⟨⟨literals.1, not_mem_toDecimal _⟩, literals.2.1⟩, not_mem_toDecimal _⟩
    simp only [statusLine, List.mem_append, not_or]
    exact ⟨⟨⟨⟨version, literals.2.2⟩, not_mem_toDecimal _⟩, literals.2.2⟩, reason⟩
  -- an entry and a cookie are one line each
  have pieces : ∀ line ∈ response.mapLines ++ response.cookieLines,
      splitLines line = [line] := by
    intro line member
    apply splitLines_of_not_mem
    rcases List.mem_append.mp member with header | cookie
    · obtain ⟨i, entry, rfl⟩ := List.mem_map.mp header
      have inside : i ∈ response.headers := (List.mem_filter.mp entry).1
      have colon : 13 ∉ bytes ": " := not_mem_bytes rfl
      simp only [List.mem_append, not_or]
      exact ⟨⟨(unbroken.keys i inside).1, colon⟩, unbroken.values i inside⟩
    · obtain ⟨i, inside, rfl⟩ := List.mem_map.mp cookie
      have named : 13 ∉ bytes "Set-Cookie: " := not_mem_bytes rfl
      exact fun cr => (List.mem_append.mp cr).elim named (unbroken.cookies i inside)
  rw [suppliedLines, status, List.tail_cons, List.nil_append, List.flatMap_congr pieces]
  simp

private theorem fields_cookieLines {name : Bytes} (other : name ≠ bytes "set-cookie") :
    fields name response.cookieLines = [] := by
  rw [fields, List.filter_eq_nil_iff]
  intro line member
  obtain ⟨i, -, rfl⟩ := List.mem_map.mp member
  have entry : bytes "Set-Cookie: " ++ i = bytes "Set-Cookie" ++ bytes ": " ++ i := rfl
  have plain : 58 ∉ bytes "Set-Cookie" := not_mem_bytes rfl
  rw [entry, isField_entry plain, beq_iff_eq]
  have lower : (bytes "Set-Cookie").map toLower = bytes "set-cookie" := by decide +kernel
  rw [lower]
  exact other.symm

/-- `connection` is not printed from the header map, and `content-length` is. -/
private theorem fields_mapLines (plain : response.websocket = false)
    (unbroken : response.Unbroken) :
    fields (bytes "connection") response.mapLines = [] ∧
      fields (bytes "content-length") response.mapLines =
        (response.headers.filter fun i => i.1.map toLower == bytes "content-length").map
          fun i => i.1 ++ bytes ": " ++ i.2 := by
  have lower : (bytes "connection").map toLower = bytes "connection" ∧
      (bytes "content-length").map toLower = bytes "content-length" := by decide +kernel
  have named : ∀ name, ∀ i ∈ response.headers,
      isField name (i.1 ++ bytes ": " ++ i.2) = (i.1.map toLower == name) :=
    fun name i inside => isField_entry (unbroken.keys i inside).2
  constructor
  · rw [fields, List.filter_eq_nil_iff]
    intro line member
    obtain ⟨i, entry, rfl⟩ := List.mem_map.mp member
    obtain ⟨inside, other⟩ := List.mem_filter.mp entry
    rw [named _ i inside, beq_iff_eq]
    -- `dump` has skipped an entry of that name
    intro connection
    rw [strcasecmpEq_congr (connection.trans lower.1.symm), plain] at other
    revert other
    decide +kernel
  · rw [fields, mapLines, headerMapLines, List.filter_map, List.filter_filter]
    congr 1
    apply List.filter_congr
    intro i inside
    rw [Function.comp_apply, named _ i inside]
    by_cases length : i.1.map toLower = bytes "content-length"
    · have other : strcasecmpEq i.1 (bytes "connection") = false := by
        rw [strcasecmpEq_congr (length.trans lower.2.symm)]
        decide +kernel
      simp [length, other]
    · simp [length]

/-- For supplied texts without line breaks: the header map holds no length, and the body or the end
of the connection ends the message; or it holds the length 0 and there is no body. -/
theorem dump_delimits_iff_of_unbroken (plain : response.websocket = false)
    (unbroken : response.Unbroken) :
    Delimits response.close response.body.length (headerLines response.dump) ↔
      (response.suppliedLengths = [] ∧ (response.body ≠ [] ∨ response.close = true)) ∨
      (response.body = [] ∧ ∃ value, response.suppliedLengths = [value] ∧
        ofDecimal (trim value) = some 0) := by
  have whole : [] ∉ response.mapLines ++ response.cookieLines := by
    simp [mapLines, headerMapLines, cookieLines, bytes]
  obtain ⟨connection, lengths⟩ := fields_mapLines plain unbroken
  have cookies := @fields_cookieLines response
  have values : ∀ i ∈ response.headers,
      fieldValue (i.1 ++ bytes ": " ++ i.2) = trim i.2 := by
    intro i inside
    rw [List.append_assoc]
    exact (fieldValue_append (unbroken.keys i inside).2).trans (trim_space _)
  rw [headerLines_dump plain, suppliedLines_of_unbroken unbroken, takeWhile_whole whole,
    delimits_append_iff, fields_append, fields_append, connection, lengths,
    cookies (by decide +kernel), cookies (by decide +kernel), suppliedLengths]
  simp only [List.append_nil, true_and, List.map_eq_nil_iff, List.map_eq_singleton_iff, ne_eq,
    List.length_eq_zero_iff]
  constructor
  · rintro (⟨present, absent⟩ | ⟨-, closed, absent⟩ | ⟨empty, _, ⟨i, only, rfl⟩, zero⟩)
    · exact .inl ⟨absent, .inl present⟩
    · exact .inl ⟨absent, .inr closed⟩
    · have inside : i ∈ response.headers :=
        (List.mem_filter.mp (only ▸ List.mem_singleton_self i)).1
      rw [values i inside] at zero
      exact .inr ⟨empty, i.2, ⟨i, only, rfl⟩, zero⟩
  · rintro (⟨absent, ends⟩ | ⟨empty, _, ⟨i, only, rfl⟩, zero⟩)
    · by_cases empty : response.body = []
      · exact .inr (.inl ⟨empty, ends.resolve_left (not_not.mpr empty), absent⟩)
      · exact .inl ⟨empty, absent⟩
    · have inside : i ∈ response.headers :=
        (List.mem_filter.mp (only ▸ List.mem_singleton_self i)).1
      rw [← values i inside] at zero
      exact .inr (.inr ⟨empty, _, ⟨i, only, rfl⟩, zero⟩)

end Unbroken

end HttpResponse

end Dwframe.Http
