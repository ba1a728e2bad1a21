import VectorTable.Row.Decode

/-!
# VectorTable — sessions

An operation on the database is a value: what it sends next, and how it goes on with each answer,
which is a reply or a refusal. A session is finite, and nothing happens until it is run against a
database, which answers each request from its position in the session.

* `Session` — operations, with their log messages and the ids they generate;
* `Session.send` — a request whose refusal is logged and becomes an error;
* `Session.run` — what an operation sends, logs and returns.
-/

namespace VectorTable

/-- How much a log message matters. -/
inductive Level where
  | debug
  | info
  | error
deriving DecidableEq

/-- Which part of the library writes a log message. -/
inductive Speaker where
  | store
  | administration
deriving DecidableEq

/-- The name that the messages of a part start with. -/
def Speaker.name : Speaker → String
  | .store => "PgEmbeddingStore"
  | .administration => "PgEngine"

/-- A log message. -/
structure Event where
  speaker : Speaker
  level : Level
  message : String
deriving DecidableEq

/-- The message as it appears in the log. -/
def Event.text (e : Event) : String := s!"{e.speaker.name}: {e.message}"

/-- What a session sends. -/
inductive Request where
  | begin
  | commit
  /-- A statement that changes something. -/
  | execute (statement : Statement)
  /-- A statement that returns rows. -/
  | select (statement : Statement)
deriving DecidableEq

/-- The answer to a request: the rows it returns or the number of rows it affects. -/
structure Reply where
  rows : List Row
  affected : Nat
deriving DecidableEq

/-- What becomes of a refused request: messages for the log and the error. The argument is the
driver's own text. -/
abbrev Refusal := String → List Event × Error

/-- An operation on the database that returns a value of type `α`. -/
inductive Session (α : Type) : Type where
  | done (value : α)
  | fail (error : Error)
  | note (event : Event) (next : Session α)
  | generate (next : Uuid → Session α)
  /-- A request. A refusal comes with the driver's own text. -/
  | ask (request : Request) (next : Except String Reply → Session α)

namespace Session

variable {α β : Type}

/-- One operation after another. -/
def bind : Session α → (α → Session β) → Session β
  | .done value, f => f value
  | .fail error, _ => .fail error
  | .note event next, f => .note event (next.bind f)
  | .generate next, f => .generate fun id => (next id).bind f
  | .ask request next, f => .ask request fun answer => (next answer).bind f

instance : Monad Session where
  pure := .done
  bind := bind

instance : MonadLift (Except Error) Session where
  monadLift
    | .ok value => .done value
    | .error error => .fail error

/-- Writes a message to the log. -/
def log (speaker : Speaker) (level : Level) (message : String) : Session Unit :=
  .note ⟨speaker, level, message⟩ (.done ())

/-- A new id. -/
def freshId : Session Uuid := .generate .done

/-- Writes messages to the log and fails. -/
def abort (events : List Event) (error : Error) : Session α := events.foldr .note (.fail error)

/-- Sends a request and returns the reply. A refusal is logged and ends the session. -/
def send (request : Request) (refusal : Refusal) : Session Reply := .ask request fun
  | .ok reply => .done reply
  | .error source => abort (refusal source).1 (refusal source).2

end Session

/-! ## Running -/

/-- A database as a session sees it: its answer to each request by position, and the stream of
new ids. -/
structure Database where
  answer : Nat → Request → Except String Reply
  newId : Nat → Uuid

/-- What a session did. -/
structure Transcript (α : Type) where
  requests : List Request
  events : List Event
  /-- How many ids have been generated so far. -/
  generated : Nat
  result : Except Error α

namespace Session

variable {α : Type}

/-- Runs a session that has already sent `sent` requests, where `generated` ids have been taken
from the stream. -/
def run (db : Database) (sent generated : Nat) : Session α → Transcript α
  | .done value => ⟨[], [], generated, .ok value⟩
  | .fail error => ⟨[], [], generated, .error error⟩
  | .note event next =>
    let t := run db sent generated next
    { t with events := event :: t.events }
  | .generate next => run db sent (generated + 1) (next (db.newId generated))
  | .ask request next =>
    let t := run db (sent + 1) generated (next (db.answer sent request))
    { t with requests := request :: t.requests }

end Session

end VectorTable
