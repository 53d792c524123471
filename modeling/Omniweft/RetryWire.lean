import Omniweft.HostJson
import Omniweft.PolicyHostRuns
import Omniweft.SdkRetries

/-!
# Clients, a wire and the host

Any number of retrying clients post transactions to the policy host. What was posted may
reach the host at any later time, any number of times, or never, and so may the host's
answer to it reach the client that waits for it. The answers to the requests that only
read are inputs here, whoever gives them.
-/

namespace Omniweft.Wire

open Outcome Commands Transactions Policy
open PolicyHost (Act Callback Config Halt Input Issue Moment Rejection Reply Request System)
open Python (Interpreter)
open Sdk (Arrival ConnectionInfo Errand Method Notice Party)

variable {α σ : Type}

/-- What `respond` sends for a rejection. -/
def rejectionJson (rejection : Rejection) : Json α :=
  .object
    [(ascii "error",
        .object
          [(ascii "code", .string rejection.code), (ascii "path", .string rejection.path)]),
      (ascii "protocol_version", .string (ascii "0.1")),
      (ascii "status", .string (ascii "rejected"))]

def sent (status : Nat) : Option Text → Arrival
  | some body => .response status body
  | none => .lost

/-- The answer to a transaction as it arrives. A host that closes the transport, or ends
in an exception, answers nothing. -/
def arrivalOf (library : JsonLibrary α) : Except Halt Reply → Arrival
  | .ok reply =>
      match reply.receipt with
      | some receipt =>
          sent 200
            (library.dump
              (Control.response reply.epoch reply.nextSequence "receipt"
                (Control.receiptJson receipt)))
      | none => .lost
  | .error (.rejected rejection) =>
      sent rejection.status (library.dump (rejectionJson rejection))
  | .error _ => .lost

/-- The POST that `_request` sends. -/
def requestOf (config : Config) (info : ConnectionInfo) (body : Text) : Request where
  authorization := some (ascii "Bearer " ++ info.token)
  host := some (ascii "127.0.0.1:" ++ decimal config.port)
  origin := none
  protocol := some (ascii "0.1")
  route := ascii "/v0/transactions"
  method := ascii "POST"
  contentLength := body.length
  body := body

/-- `posts` are the POSTs so far, by their numbers; `carried` says of each connection of
the host which of them it carries, if any; `answers` is what the host has answered to
them. -/
structure Net (α σ : Type) [Scalar α] where
  system : System σ
  parties : List (Party α)
  posts : List Request
  carried : List (Option Nat)
  answers : List (Nat × Except Halt Reply)

inductive Move (α : Type) [Scalar α] where
  | call (who : Nat) (method : Method α)
  | read (who : Nat) (arrival : Arrival)
  | deliver (post deadline : Nat) (moment : Moment)
  | host (input : Input)
  | receive (who position : Nat)
  | lose (who : Nat)

/-- What a step shows: a section of the host, or something that can be told of a client. -/
inductive Fact (α : Type) where
  | host (input : Input) (event : PolicyHost.Event α)
  | client (who : Nat) (notice : Notice)

def replyOf : Act α → Option (Except Halt Reply)
  | .attempted attempt => some attempt.reply
  | .answered reply => some reply
  | _ => none

section Steps

variable [Scalar α]

/-- The POST that a section of the host works on. -/
def ownerOf (net : Net α σ) (post : Option Nat) : Input → Option Nat
  | .accept _ _ _ => post
  | .reserve index => (net.carried[index]?).join
  | .consult index _ => (net.carried[index]?).join
  | .transact index _ => (net.carried[index]?).join
  | _ => none

def carriedAfter (net : Net α σ) (post : Option Nat) (next : System σ) :
    Input → List (Option Nat)
  | .accept _ _ _ =>
      if net.system.connections.length < next.connections.length then net.carried ++ [post]
      else net.carried
  | .close index => net.carried.eraseIdx index
  | _ => net.carried

/-- A section of the host; `post` is the POST that a new connection carries. -/
def hostStep (config : Config) (library : JsonLibrary α) (apply : Callback α σ)
    (net : Net α σ) (post : Option Nat) (input : Input) : Net α σ × List (Fact α) :=
  let done := PolicyHost.step config library apply net.system input
  let answers :=
    match ownerOf net post input, replyOf done.2 with
    | some post, some reply => net.answers ++ [(post, reply)]
    | _, _ => net.answers
  ({ net with
      system := done.1
      carried := carriedAfter net post done.1 input
      answers := answers },
    [.host input ⟨net.system.host.sessions, done.1.host.sessions, done.2⟩])

def clientStep (python : Interpreter α) (config : Config) (net : Net α σ) (who : Nat)
    (event : Sdk.Event α) : Net α σ × List (Fact α) :=
  match net.parties[who]? with
  | none => (net, [])
  | some party =>
      let turn := party.act python net.posts.length event
      ({ net with
          parties := net.parties.set who turn.party
          posts :=
            net.posts ++ turn.post.toList.map fun body =>
              requestOf config party.client.info body },
        turn.notices.map (.client who))

/-- The answer at a position, when it is one to the POST that the client waits for. -/
def answerFor (net : Net α σ) (who position : Nat) : Option (Except Halt Reply) :=
  match (net.parties[who]?).bind Party.errand, net.answers[position]? with
  | some (.submission _ post _ _), some (answered, reply) =>
      if answered = post then some reply else none
  | _, _ => none

def step (python : Interpreter α) (config : Config) (library : JsonLibrary α)
    (apply : Callback α σ) (net : Net α σ) : Move α → Net α σ × List (Fact α)
  | .call who method => clientStep python config net who (.called method)
  | .read who arrival => clientStep python config net who (.read arrival)
  | .deliver post deadline moment =>
      match net.posts[post]? with
      | none => (net, [])
      | some request =>
          hostStep config library apply net (some post) (.accept request deadline moment)
  | .host input => hostStep config library apply net none input
  | .receive who position =>
      match answerFor net who position with
      | none => (net, [])
      | some reply => clientStep python config net who (.finished (arrivalOf library reply))
  | .lose who => clientStep python config net who (.finished .lost)

/-- All that the moves of a run show. -/
def run (python : Interpreter α) (config : Config) (library : JsonLibrary α)
    (apply : Callback α σ) (net : Net α σ) : List (Move α) → List (Fact α)
  | [] => []
  | move :: rest =>
      let done := step python config library apply net move
      done.2 ++ run python config library apply done.1 rest

def start (config : Config) (ledger : Ledger) (state : σ) (issues : PerPrincipal Issue)
    (parties : List (Party α)) : Net α σ where
  system := PolicyHost.start config ledger state issues
  parties := parties
  posts := []
  carried := []
  answers := []

end Steps

/-! ## What a run shows -/

def Fact.section? : Fact α → Option (Input × PolicyHost.Event α)
  | .host input event => some (input, event)
  | .client _ _ => none

def Fact.notice? (who : Nat) : Fact α → Option Notice
  | .host _ _ => none
  | .client other notice => if other = who then some notice else none

/-- The sections of the host. -/
def sections (facts : List (Fact α)) : List (Input × PolicyHost.Event α) :=
  facts.filterMap Fact.section?

def hostLog (facts : List (Fact α)) : List (PolicyHost.Event α) :=
  (sections facts).map Prod.snd

/-- What can be told of one client. -/
def notices (who : Nat) (facts : List (Fact α)) : List Notice :=
  facts.filterMap (Fact.notice? who)

/-- The tokens and epochs that a move issues. -/
def issuesOf [Scalar α] : Move α → List (Principal × Issue)
  | .host input => PolicyHost.issuesOf input
  | _ => []

end Omniweft.Wire
