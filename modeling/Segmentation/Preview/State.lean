import Segmentation.Sql.Query
import Segmentation.Table

/-!
# Preview states

What a preview session shows: nothing yet, a request that is being run, or what
the last request came to.
-/

namespace Segmentation.Preview

/-- Why an executor gave no rows. -/
inductive ExecutionError
  | network (message : String)
  | query (message : String)
  | rejected (message : String)
deriving DecidableEq

namespace ExecutionError

def message : ExecutionError → String
  | network message => "network error: " ++ message
  | query message => "query failed: " ++ message
  | rejected message => "execution rejected: " ++ message

end ExecutionError

/-- Why a request came to nothing. -/
inductive Error
  | noDataset
  | unknownDataset (name : String)
  /-- No answer within the given number of milliseconds. -/
  | timeout (after : Nat)
  | execution (error : ExecutionError)
  /-- The executor broke down. -/
  | aborted
deriving DecidableEq

namespace Error

def message : Error → String
  | noDataset => "no dataset selected"
  | unknownDataset name => "unknown dataset '" ++ name ++ "'"
  | timeout after => "preview timed out after " ++ toString after ++ "ms"
  | execution error => error.message
  | aborted => "preview task aborted unexpectedly"

end Error

/-- What an executor answers to a call. -/
inductive Reply
  | rows (rows : List Row)
  | failed (error : ExecutionError)
  | broken

inductive State
  | idle
  | loading (request : Nat) (query : Sql.Query)
  | loaded (request : Nat) (table : Table)
  /-- The query ran and matched no rows. -/
  | empty (request : Nat)
  | failed (request : Nat) (error : Error)
  | cancelled (request : Nat)

namespace State

/-- The request that a state belongs to. -/
def request? : State → Option Nat
  | idle => none
  | loading request _ => some request
  | loaded request _ => some request
  | empty request => some request
  | failed request _ => some request
  | cancelled request => some request

def isLoading : State → Bool
  | loading _ _ => true
  | _ => false

/-- The state to which rows lead; rows above the limit are left out. -/
def ofRows (request : Nat) (limit : UInt32) (rows : List Row) : State :=
  match rows.take limit.toNat with
  | [] => .empty request
  | row :: rest => .loaded request (Table.ofRows (row :: rest))

/-- The state to which a reply leads. -/
def ofReply (request : Nat) (query : Sql.Query) : Reply → State
  | .rows rows => ofRows request query.limit rows
  | .failed error => .failed request (.execution error)
  | .broken => .failed request .aborted

end State

end Segmentation.Preview
