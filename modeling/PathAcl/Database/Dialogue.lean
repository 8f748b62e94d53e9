import PathAcl.Store.Error

/-! # Dialogues with a database
A dialogue is what one operation says to the database: a statement, what it says next for every
possible reply, and so on to its result. It is plain data, so what is sent for any replies
whatsoever can be read off it. A peer answers: from a script, as a closed pool, or never. -/

namespace PathAcl.Database

/-! ## Statements and replies -/

/-- A value bound to a place in a statement. -/
inductive Param
  | bigint (n : Int64)
  | text (s : String)
  | texts (ss : List String)
  | bigints (ns : List Int64)
  | ints (ns : List Int32)
  | instants (ts : List Instant)
  deriving DecidableEq

/-- A statement and the values bound to `$1`, `$2` and so on. -/
structure Statement where
  sql : String
  params : List Param
  deriving DecidableEq

/-- A value in a row that the database returns. -/
inductive Cell
  /-- A 64-bit integer. -/
  | int8 (n : Int64)
  /-- A 32-bit integer. -/
  | int4 (n : Int32)
  | text (s : String)
  | instant (t : Instant)
  | bool (b : Bool)
  | null
  deriving DecidableEq

/-- A returned row: its columns by name, in order. -/
abbrev Row : Type := List (String × Cell)

/-- What the database says to a statement. -/
inductive Reply
  /-- It was carried out: the rows it returns and the number of rows it changed. -/
  | answered (rows : List Row) (affected : Nat)
  /-- It was not; the text says why. -/
  | refused (cause : String)
  deriving DecidableEq

/-- A statement that was sent, and its reply if one was awaited. -/
structure Exchange where
  statement : Statement
  reply : Option Reply
  deriving DecidableEq

/-! ## Dialogues -/

/-- A **dialogue** that ends in an `α` or a failure. -/
inductive Dialogue (α : Type)
  | done (result : Except StoreError α)
  /-- Sends a statement and goes on with its reply. -/
  | ask (statement : Statement) (next : Reply → Dialogue α)
  /-- Sends a statement whose reply nobody awaits. -/
  | tell (statement : Statement) (next : Dialogue α)

namespace Dialogue

variable {α β : Type}

/-- Goes on with the result; a failure ends the dialogue. -/
def andThen : Dialogue α → (α → Dialogue β) → Dialogue β
  | done (.error e), _ => done (.error e)
  | done (.ok x), f => f x
  | ask s next, f => ask s fun r => (next r).andThen f
  | tell s next, f => tell s (next.andThen f)

instance : Monad Dialogue where
  pure x := done (.ok x)
  bind := andThen

/-- Ends in failure. -/
def fail (e : StoreError) : Dialogue α := done (.error e)

/-- A computation that sends nothing. -/
def ofExcept (r : Except StoreError α) : Dialogue α := done r

/-- Sends a statement for its rows and its count; a refusal is a failure worded by `failure`. -/
def request (statement : Statement) (failure : String → StoreError) :
    Dialogue (List Row × Nat) :=
  ask statement fun
    | .answered rows affected => done (.ok (rows, affected))
    | .refused cause => done (.error (failure cause))

/-- The statement that takes a transaction back. -/
def rollbackStatement : Statement := ⟨"ROLLBACK", []⟩

/-- The same dialogue, with the transaction taken back if it fails. -/
def orRollback : Dialogue α → Dialogue α
  | done (.ok x) => done (.ok x)
  | done (.error e) => tell rollbackStatement (done (.error e))
  | ask s next => ask s fun r => (next r).orRollback
  | tell s next => tell s next.orRollback

end Dialogue

/-! ## Peers -/

/-- The **peer** at the other end. It is silent from the first statement on or never: a database that
answers at first and falls silent in the middle of a transaction is none of these. -/
inductive Peer
  /-- Gives the replies in turn, and plain success when they run out. -/
  | script (replies : List Reply)
  /-- The connection pool is closed: no statement reaches a database. -/
  | closed
  /-- Statements are never answered. -/
  | silent
  deriving DecidableEq

/-- Why a closed pool refuses. -/
def closedCause : String := "attempted to acquire a connection on a closed pool"

/-- What became of a dialogue: its result, none if the peer never answered; the peer that is left;
and the statements that reached it. -/
structure Spoken (α : Type) where
  result : Option (Except StoreError α)
  peer : Peer
  sent : List Exchange

/-- Puts an exchange in front. -/
def Spoken.after {α : Type} (first : Exchange) (s : Spoken α) : Spoken α :=
  { s with sent := first :: s.sent }

/-- Holds a dialogue with a peer. -/
def Dialogue.hold {α : Type} : Dialogue α → Peer → Spoken α
  | done r, peer => ⟨some r, peer, []⟩
  -- a statement whose reply nobody awaits takes no reply from the script
  | tell s next, .script replies => (next.hold (.script replies)).after ⟨s, none⟩
  | tell _ next, peer => next.hold peer
  -- an exhausted script answers with plain success
  | ask s next, .script [] =>
    ((next (.answered [] 0)).hold (.script [])).after ⟨s, some (.answered [] 0)⟩
  | ask s next, .script (r :: replies) => ((next r).hold (.script replies)).after ⟨s, some r⟩
  | ask _ next, .closed => (next (.refused closedCause)).hold .closed
  -- whoever waits for a silent peer never goes on
  | ask _ _, .silent => ⟨none, .silent, []⟩

end PathAcl.Database
