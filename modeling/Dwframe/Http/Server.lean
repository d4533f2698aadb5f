import Dwframe.Http.Response

/-!
# Keeping a connection

`handleClient` answers one request after the other. A response announces in its `connection`
header whether the connection stays open: that is the close flag of the response, which the servlet
can change. Whether the loop goes on is decided by the close flag of the request.
-/
open Dwframe.Lib

namespace Dwframe.Http

/-! ### What a response announces -/

namespace HttpResponse

/-- The header entries that `dump` prints, in order. -/
def sentHeaders (response : HttpResponse) : List (Bytes × Bytes) :=
  (response.headers.filter fun i =>
    !(!response.websocket && strcasecmpEq i.1 (bytes "connection"))) ++
  response.cookies.map (fun i => (bytes "Set-Cookie", i)) ++
  (if response.websocket then []
    else [(bytes "connection", if response.close then bytes "close" else bytes "keep-alive")]) ++
  (if response.body = [] then []
    else [(bytes "content-length", toDecimal response.body.length)])

def connectionHeader (response : HttpResponse) : Option Bytes :=
  findHeader response.sentHeaders (bytes "connection")

/-- The `connection` header has this value, in any case. -/
def Announces (response : HttpResponse) (value : Bytes) : Prop :=
  ∃ sent, response.connectionHeader = some sent ∧ strcasecmpEq sent value = true

end HttpResponse

/-! ### The loop -/

structure HttpServer where
  m_isKeepalive : Bool
  name : Bytes

/-- A request that `recvRequest` returned, and what the servlet makes of it and of the new
response. -/
structure Exchange where
  request : SessionRequest
  handle : SessionRequest → HttpResponse → SessionRequest × HttpResponse

inductive ClientEvent where
  | received (request : SessionRequest)
  /-- `recvRequest` returned null. -/
  | failed
  | sent (response : HttpResponse)
  /-- `session->close()`. -/
  | closed
  deriving DecidableEq

/-- The server is reading a request. -/
def ClientEvent.isRead : ClientEvent → Bool
  | .received _ | .failed => true
  | .sent _ | .closed => false

namespace HttpServer

def newResponse (server : HttpServer) (req : SessionRequest) : HttpResponse :=
  ({ version := req.version, close := req.close || !server.m_isKeepalive } : HttpResponse).setHeader
    (bytes "Server") server.name

/-- The request and the response when the servlet returns. -/
def handled (server : HttpServer) (e : Exchange) : SessionRequest × HttpResponse :=
  e.handle e.request (server.newResponse e.request)

def stops (server : HttpServer) (e : Exchange) : Bool :=
  !server.m_isKeepalive || (server.handled e).1.close

/-- `handleClient`; the exchanges are those for which a request comes in. -/
def handleClient (server : HttpServer) : List Exchange → List ClientEvent
  | [] => [.failed, .closed]
  | e :: later =>
    .received e.request :: .sent (server.handled e).2 ::
      if server.stops e then [.closed] else handleClient server later

/-- What happens behind a response is what the response announced. -/
def Honest (events : List ClientEvent) : Prop :=
  ∀ before response after, events = before ++ .sent response :: after →
    ((∃ next, after.head? = some next ∧ next.isRead = true) ↔
      response.Announces (bytes "keep-alive")) ∧
    (after = [.closed] ↔ response.Announces (bytes "close"))

/-- The exchanges up to the first that ends the loop. -/
def answered (server : HttpServer) : List Exchange → List Exchange
  | [] => []
  | e :: later => e :: if server.stops e then [] else answered server later

/-- A response whose `connection` header says whether the loop stops: `dump` writes the close flag,
or for a websocket the header of the servlet. -/
inductive Agrees (stops : Bool) (response : HttpResponse) : Prop where
  | plain (plain : response.websocket = false) (same : response.close = stops)
  | websocket (websocket : response.websocket = true) (value : Bytes)
      (supplied : findHeader response.headers (bytes "connection") = some value)
      (same : strcasecmpEq value (if stops then bytes "close" else bytes "keep-alive") = true)

end HttpServer

/-! ### The header -/

namespace HttpResponse

variable {response : HttpResponse}

theorem findHeader_append (a b : List (Bytes × Bytes)) (key : Bytes) :
    findHeader (a ++ b) key = (findHeader a key).or (findHeader b key) := by
  rw [findHeader, List.find?_append, Option.map_or]
  rfl

theorem findHeader_none {entries : List (Bytes × Bytes)} {key : Bytes}
    (other : ∀ i ∈ entries, strcasecmpEq i.1 key = false) : findHeader entries key = none := by
  rw [findHeader, List.find?_eq_none.mpr fun i member => Bool.eq_false_iff.mp (other i member)]
  rfl

theorem findHeader_cookies (cookies : List Bytes) :
    findHeader (cookies.map fun i => (bytes "Set-Cookie", i)) (bytes "connection") = none := by
  have other : strcasecmpEq (bytes "Set-Cookie") (bytes "connection") = false := by decide
  apply findHeader_none
  intro i member
  obtain ⟨cookie, -, rfl⟩ := List.mem_map.mp member
  exact other

/-- A header of this name in the map is not printed: `dump` prints its own. -/
theorem connectionHeader_plain (plain : response.websocket = false) :
    response.connectionHeader =
      some (if response.close then bytes "close" else bytes "keep-alive") := by
  have skipped : findHeader (response.headers.filter fun i =>
      !(!response.websocket && strcasecmpEq i.1 (bytes "connection"))) (bytes "connection") =
      none := by
    apply findHeader_none
    intro i member
    simpa [plain] using (List.mem_filter.mp member).2
  rw [connectionHeader, sentHeaders, findHeader_append, findHeader_append, findHeader_append,
    skipped, findHeader_cookies, plain]
  rfl

/-- In a websocket response the header of the map is printed. -/
theorem connectionHeader_websocket (websocket : response.websocket = true) :
    response.connectionHeader = findHeader response.headers (bytes "connection") := by
  have other : strcasecmpEq (bytes "content-length") (bytes "connection") = false := by decide
  have length : findHeader (if response.body = [] then []
      else [(bytes "content-length", toDecimal response.body.length)]) (bytes "connection") =
      none := by
    apply findHeader_none
    intro i member
    split at member
    · cases member
    · rw [List.mem_singleton.mp member]
      exact other
  have all : (response.headers.filter fun i =>
      !(!response.websocket && strcasecmpEq i.1 (bytes "connection"))) = response.headers :=
    List.filter_eq_self.mpr fun i _ => by rw [websocket]; rfl
  rw [connectionHeader, sentHeaders, findHeader_append, findHeader_append, findHeader_append,
    findHeader_cookies, length, all, websocket, if_pos rfl]
  cases findHeader response.headers (bytes "connection") <;> rfl

/-- The value that goes with stopping, or with going on. -/
def announcement (stops : Bool) : Bytes := if stops then bytes "close" else bytes "keep-alive"

/-- No response announces both. -/
theorem announces_one {stops : Bool} (one : response.Announces (announcement stops)) :
    ¬response.Announces (announcement !stops) := by
  rintro ⟨sent, found, other⟩
  obtain ⟨sent', found', this⟩ := one
  cases found.symm.trans found'
  have same := (strcasecmpEq_iff.mp this).symm.trans (strcasecmpEq_iff.mp other)
  revert same
  cases stops <;> decide

end HttpResponse

namespace HttpServer

open HttpResponse

variable {server : HttpServer} {response : HttpResponse}

theorem agrees_iff {stops : Bool} :
    Agrees stops response ↔ response.Announces (announcement stops) := by
  constructor
  · rintro (⟨plain, rfl⟩ | ⟨websocket, value, supplied, same⟩)
    · exact ⟨_, connectionHeader_plain plain, strcasecmpEq_iff.mpr rfl⟩
    · exact ⟨value, (connectionHeader_websocket websocket).trans supplied, same⟩
  · rintro ⟨sent, found, same⟩
    cases websocket : response.websocket with
    | true =>
      exact .websocket websocket sent ((connectionHeader_websocket websocket).symm.trans found) same
    | false =>
      cases (connectionHeader_plain websocket).symm.trans found
      refine .plain websocket ?_
      revert same
      cases response.close <;> cases stops <;> decide

/-! ### The events -/

theorem honest_cons {event : ClientEvent} {events : List ClientEvent}
    (other : ∀ response, event ≠ .sent response) : Honest (event :: events) ↔ Honest events := by
  constructor
  · intro honest before response after split
    exact honest (event :: before) response after (by rw [split]; rfl)
  · intro honest before response after split
    cases before with
    | nil =>
      rw [List.nil_append, List.cons.injEq] at split
      exact absurd split.1 (other response)
    | cons first before =>
      rw [List.cons_append, List.cons.injEq] at split
      exact honest before response after split.2

theorem honest_sent {events : List ClientEvent} :
    Honest (.sent response :: events) ↔
      (((∃ next, events.head? = some next ∧ next.isRead = true) ↔
        response.Announces (announcement false)) ∧
      (events = [.closed] ↔ response.Announces (announcement true))) ∧ Honest events := by
  constructor
  · intro honest
    refine ⟨honest [] response events rfl, fun before response' after split => ?_⟩
    exact honest (.sent response :: before) response' after (by rw [split]; rfl)
  · rintro ⟨here, later⟩ before response' after split
    cases before with
    | nil =>
      rw [List.nil_append, List.cons.injEq, ClientEvent.sent.injEq] at split
      obtain ⟨rfl, rfl⟩ := split
      exact here
    | cons first before =>
      rw [List.cons_append, List.cons.injEq] at split
      exact later before response' after split.2

theorem honest_closed : Honest [.closed] := by
  intro before response after split
  cases before with
  | nil => cases split
  | cons first before => cases before <;> cases split

/-- The loop begins with a read. -/
theorem handleClient_head (exchanges : List Exchange) :
    ∃ next later, server.handleClient exchanges = next :: later ∧ next.isRead = true := by
  cases exchanges with
  | nil => exact ⟨_, _, rfl, rfl⟩
  | cons e later => exact ⟨_, _, rfl, rfl⟩

/-- One response, with what `handleClient` does behind it. -/
theorem honest_response (e : Exchange) (later : List Exchange) :
    (((∃ next, (if server.stops e then [.closed] else server.handleClient later).head? =
        some next ∧ next.isRead = true) ↔ response.Announces (announcement false)) ∧
      ((if server.stops e then [.closed] else server.handleClient later) = [.closed] ↔
        response.Announces (announcement true))) ↔
      Agrees (server.stops e) response := by
  rw [agrees_iff]
  obtain ⟨next, events, begins, is_read⟩ := @handleClient_head server later
  cases server.stops e with
  | true =>
    have no_read : ¬∃ next, ([.closed] : List ClientEvent).head? = some next ∧
        next.isRead = true := by
      rintro ⟨next, head, read⟩
      cases head
      cases read
    simp only [if_true, no_read, false_iff, true_iff]
    exact ⟨fun both => both.2, fun close => ⟨announces_one close, close⟩⟩
  | false =>
    have reads : ∃ next, (server.handleClient later).head? = some next ∧ next.isRead = true :=
      ⟨next, by rw [begins]; rfl, is_read⟩
    have not_closed : server.handleClient later ≠ [.closed] := by
      rw [begins]
      rintro closed
      cases closed
      cases is_read
    simp only [Bool.false_eq_true, if_false, reads, not_closed, false_iff, true_iff]
    exact ⟨fun both => both.1, fun keep => ⟨keep, announces_one keep⟩⟩

/-- Over the whole connection, the loop does what was announced if and only if every servlet that
ran returned a response which agrees with the decision. -/
theorem honest_handleClient_iff (exchanges : List Exchange) :
    Honest (server.handleClient exchanges) ↔
      ∀ e ∈ server.answered exchanges, Agrees (server.stops e) (server.handled e).2 := by
  induction exchanges with
  | nil =>
    rw [handleClient, honest_cons (by simp)]
    exact iff_of_true honest_closed (by simp [answered])
  | cons e later ih =>
    rw [handleClient, honest_cons (by simp), honest_sent, honest_response, answered,
      List.forall_mem_cons]
    apply and_congr_right
    intro _
    cases server.stops e with
    | true => exact iff_of_true honest_closed (by simp)
    | false => exact ih

/-- A servlet that leaves the request, the close flag and the websocket flag alone agrees. -/
theorem agrees_of_unchanged {e : Exchange} (request : (server.handled e).1 = e.request)
    (close : (server.handled e).2.close = (server.newResponse e.request).close)
    (websocket : (server.handled e).2.websocket = false) :
    Agrees (server.stops e) (server.handled e).2 := by
  apply Agrees.plain websocket
  rw [close, stops, request, Bool.or_comm]
  rfl

/-- A servlet that closes: the response says `close`, and the server reads on. -/
theorem announced_close_reads_on :
    ∃ (server : HttpServer) (e : Exchange),
      server.m_isKeepalive = true ∧ e.request.close = false ∧
      e.handle = (fun request response => (request, { response with close := true })) ∧
      server.handleClient [e] =
        [.received e.request, .sent (server.handled e).2, .failed, .closed] ∧
      (server.handled e).2.Announces (bytes "close") ∧
      ¬Honest (server.handleClient [e]) := by
  refine ⟨⟨true, bytes "dwframe"⟩, ⟨{ close := false },
    fun request response => (request, { response with close := true })⟩, rfl, rfl, rfl, rfl, ?_, ?_⟩
  · exact agrees_iff.mp (.plain rfl rfl : Agrees true _)
  · intro honest
    have both := honest [_] _ [.failed, .closed] rfl
    have closed := both.2.mpr (agrees_iff.mp (.plain rfl rfl : Agrees true _))
    cases closed

end HttpServer

end Dwframe.Http
