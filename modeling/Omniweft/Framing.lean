import Mathlib.Data.List.DropRight
import Omniweft.PolicyHost

/-!
# HTTP framing

`read_headers` receives until the blank line and parses what came before it; `read_body`
receives the rest of the announced body. How the network cuts the stream into receive
results is a parameter. Deadlines are left out: a stream ends with its end of input.
-/

namespace Omniweft.Framing

open Outcome PolicyHost

def maxHeaderBytes : Nat := 16384
def maxHeaderCount : Nat := 64
def maxBodyBytes : Nat := 1048576
def maxRequestLineBytes : Nat := 1024

def crlf : Text := [13, 10]

/-- The blank line that ends the headers. -/
def blankLine : Text := [13, 10, 13, 10]

/-- `network` says for each call of `recv` how many bytes beyond one are there. -/
structure Socket where
  rest : Text
  network : Nat → Nat
  calls : Nat

/-- `receive`: at least one byte, at most the capacity, or the end of input. -/
def receive (socket : Socket) (capacity : Nat) : Except Halt (Text × Socket) :=
  if socket.rest.isEmpty then .error .closed
  else
    let count := min (socket.network socket.calls + 1) capacity
    .ok (socket.rest.take count,
      { socket with rest := socket.rest.drop count, calls := socket.calls + 1 })

theorem receive_eq_ok {socket next : Socket} {capacity : Nat} {chunk : Text}
    (received : receive socket capacity = .ok (chunk, next)) :
    socket.rest = chunk ++ next.rest ∧ next.network = socket.network ∧
      chunk.length ≤ capacity ∧ (0 < capacity → 0 < chunk.length) := by
  unfold receive at received
  split at received
  · cases received
  · rename_i some_
    cases received
    have present : 0 < socket.rest.length := by
      simpa [List.length_pos_iff, List.isEmpty_iff] using some_
    refine ⟨(List.take_append_drop _ _).symm, rfl, ?_, ?_⟩
    · simp only [List.length_take]
      omega
    · intro positive
      simp only [List.length_take]
      omega

/-- `std::string::find`. -/
def find (pattern : Text) : Text → Option Nat
  | [] => if pattern.isEmpty then some 0 else none
  | byte :: rest =>
      if pattern.isPrefixOf (byte :: rest) then some 0 else (find pattern rest).map (· + 1)

/-- The character test of the inspected bytes, which follow `previous`. -/
def legible (previous : Option UInt8) : Text → Bool
  | [] => true
  | value :: rest =>
      (if value == 10 then previous == some 13
        else if value == 13 then rest.head?.all (· == 10)
        else decide (32 ≤ value) && decide (value ≤ 126)) &&
        legible (some value) rest

/-- The tests after each receive: the request line, and the bytes up to the blank line. -/
def inspect (bytes : Text) : Except Halt Unit := do
  rejectIf
    (match find crlf bytes with
      | none => decide (maxRequestLineBytes < bytes.length)
      | some lineEnd => decide (maxRequestLineBytes < lineEnd + 2))
    (rejection 413 "BUDGET_EXCEEDED" "")
  let inspected :=
    match find blankLine bytes with
    | none => bytes.length
    | some boundary => boundary + 4
  rejectIf (!legible none (bytes.take inspected)) (rejection 400 "INVALID_SCHEMA" "")

/-- The loop of `read_headers`: all bytes received when the blank line is there. -/
def receiveHead (headerOnly : Bool) (bytes : Text) (socket : Socket) :
    Except Halt (Text × Socket) :=
  if (find blankLine bytes).isSome then .ok (bytes, socket)
  else if maxHeaderBytes ≤ bytes.length then .error (rejection 413 "BUDGET_EXCEEDED" "")
  else
    match _received : receive socket (if headerOnly then 1 else 2048) with
    | .error halt => .error halt
    | .ok (chunk, next) =>
        match inspect (bytes ++ chunk) with
        | .error halt => .error halt
        | .ok () => receiveHead headerOnly (bytes ++ chunk) next
termination_by socket.rest.length
decreasing_by
  obtain ⟨whole, _, _, some_⟩ := receive_eq_ok _received
  have positive := some_ (by cases headerOnly <;> decide)
  rw [whole, List.length_append]
  omega

abbrev Headers := List (Text × Text)

structure Request where
  method : Text
  route : Text
  headers : Headers
  initialBody : Text
  contentLength : Nat
  deriving DecidableEq, Repr

def tokenCharacter (value : UInt8) : Bool :=
  alphanumeric value || (ascii "!#$%&'*+-.^_\x60|~").contains value

def lowercase (text : Text) : Text :=
  text.map fun value => if decide (65 ≤ value) && decide (value ≤ 90) then value + 32 else value

def trimSpaces (text : Text) : Text :=
  (text.dropWhile (· == 32)).rdropWhile (· == 32)

def forbidden (name : Text) : Bool :=
  name == ascii "transfer-encoding" || name == ascii "expect" ||
    name == ascii "content-encoding" || name == ascii "cookie"

def schema : Halt := rejection 400 "INVALID_SCHEMA" ""

/-- A header line, entered among those before it. -/
def headerLine (headers : Headers) (line : Text) : Except Halt Headers :=
  match line.findIdx? (· == 58) with
  | none => .error schema
  | some colon => do
      rejectIf (colon == 0 || !(line.take colon).all tokenCharacter) schema
      let name := lowercase (line.take colon)
      rejectIf (headers.lookup name).isSome schema
      rejectIf (forbidden name) schema
      pure (headers ++ [(name, trimSpaces (line.drop (colon + 1)))])

/-- The loop over the header lines. `rest` are the bytes from the position on and `left`
those of them before the end of the head, which has a line end in its last two bytes. -/
def headerLines (left : Nat) (rest : Text) (count : Nat) (headers : Headers) :
    Except Halt Headers :=
  if 2 < left then
    match find crlf rest with
    | none => .ok headers
    | some 0 => .ok headers
    | some (last + 1) => do
        rejectIf (decide (maxHeaderCount < count + 1)) (rejection 413 "BUDGET_EXCEEDED" "")
        let entered ← headerLine headers (rest.take (last + 1))
        headerLines (left - (last + 3)) (rest.drop (last + 3)) (count + 1) entered
  else .ok headers
termination_by left

def requestLine (first : Text) : Except Halt (Text × Text) :=
  match first.findIdx? (· == 32), first.reverse.findIdx? (· == 32) with
  | some firstSpace, some fromEnd => do
      let lastSpace := first.length - 1 - fromEnd
      rejectIf
        (firstSpace == 0 || lastSpace == firstSpace ||
          first.drop (lastSpace + 1) != ascii "HTTP/1.1")
        schema
      let method := first.take firstSpace
      let route := (first.drop (firstSpace + 1)).take (lastSpace - firstSpace - 1)
      rejectIf
        (route.head? != some 47 || route.contains 32 || !method.all tokenCharacter)
        schema
      pure (method, route)
  | _, _ => .error schema

def digit (value : UInt8) : Bool :=
  decide (48 ≤ value) && decide (value ≤ 57)

/-- `std::from_chars` of decimal digits, without its bound. -/
def number (digits : Text) : Nat :=
  digits.foldl (fun total value => 10 * total + (value.toNat - 48)) 0

def contentLength (method : Text) (headers : Headers) : Except Halt Nat :=
  match headers.lookup (ascii "content-length") with
  | none => do
      rejectIf (method == ascii "POST") schema
      pure 0
  | some value => do
      rejectIf (value.isEmpty || !value.all digit) schema
      rejectIf (decide (18446744073709551615 < number value)) schema
      rejectIf (decide (maxBodyBytes < number value)) (rejection 413 "BUDGET_EXCEEDED" "")
      pure (number value)

/-- What `read_headers` makes of the bytes with their head ending at `headEnd`. -/
def parseHead (bytes : Text) (headEnd : Nat) : Except Halt Request := do
  rejectIf (decide (maxHeaderBytes < headEnd)) (rejection 413 "BUDGET_EXCEEDED" "")
  let firstEnd := (find crlf bytes).getD 0
  let (method, route) ← requestLine (bytes.take firstEnd)
  let position := firstEnd + 2
  let headers ← headerLines (headEnd - position) (bytes.drop position) 0 []
  let length ← contentLength method headers
  rejectIf (method == ascii "GET" && length != 0) schema
  rejectIf
    (method == ascii "POST" &&
      headers.lookup (ascii "content-type") != some (ascii "application/json"))
    schema
  pure ⟨method, route, headers, (bytes.drop headEnd).take length, length⟩

def readHeaders (headerOnly : Bool) (socket : Socket) : Except Halt (Request × Socket) := do
  let (bytes, next) ← receiveHead headerOnly [] socket
  let request ← parseHead bytes ((find blankLine bytes).getD 0 + 4)
  pure (request, next)

/-- The loop of `read_body`. -/
def receiveBody (length : Nat) (bytes : Text) (socket : Socket) : Except Halt Text :=
  if bytes.length < length then
    match _received : receive socket (min 8192 (length - bytes.length)) with
    | .error halt => .error halt
    | .ok (chunk, next) => receiveBody length (bytes ++ chunk) next
  else .ok bytes
termination_by socket.rest.length
decreasing_by
  obtain ⟨whole, _, _, some_⟩ := receive_eq_ok _received
  have positive := some_ (by omega)
  rw [whole, List.length_append]
  omega

def readBody (request : Request) (socket : Socket) : Except Halt Text :=
  receiveBody request.contentLength request.initialBody socket

/-- A request with its body, as the routes see it. -/
structure Framed where
  method : Text
  route : Text
  headers : Headers
  contentLength : Nat
  body : Text
  deriving DecidableEq, Repr

/-- `read_headers` followed by `read_body`. -/
def exchange (headerOnly : Bool) (socket : Socket) : Except Halt Framed := do
  let (request, next) ← readHeaders headerOnly socket
  let body ← readBody request next
  pure ⟨request.method, request.route, request.headers, request.contentLength, body⟩

/-- The request a policy connection works on. -/
def Framed.request (framed : Framed) : PolicyHost.Request where
  authorization := framed.headers.lookup (ascii "authorization")
  host := framed.headers.lookup (ascii "host")
  origin := framed.headers.lookup (ascii "origin")
  protocol := framed.headers.lookup (ascii "x-omniweft-protocol")
  route := framed.route
  method := framed.method
  contentLength := framed.contentLength
  body := framed.body

end Omniweft.Framing
