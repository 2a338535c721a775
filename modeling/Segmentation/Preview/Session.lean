import Segmentation.Cache.QueryCache
import Segmentation.Preview.State

/-!
# Preview sessions

A session runs previews one after another.  A request is compiled, published as
loading and called on an executor; a watcher waits for the answer or for the
timeout and publishes what came of it.  A new request or a cancellation aborts
the call in flight, and a watcher publishes only while its own request is the
one that is loading.

Calls and watchers of many requests can be alive at once.  `Event` lists what can
happen to a session, by its caller, the executor, the watchers and the clock,
and `step` is what each of them does, so a run is a list of events in whatever
order they occur.  An event that cannot happen leaves the session as it is.
-/

namespace Segmentation.Preview

/-- What can happen to a session. -/
inductive Event
  | request (definition : Definition)
  | cancel
  | copy (definition : Definition)
  | materialize (definition : Definition)
  /-- The caller gives the session up. -/
  | close
  | start (request : Nat)
  | answer (request : Nat) (reply : Reply)
  | watch (request : Nat)
  | notice (request : Nat)
  | expire (request : Nat)
  | commit (request : Nat)
  /-- Time passes. -/
  | advance (milliseconds : Nat)

/-- How far a call has come. -/
inductive Phase
  /-- Not yet received by the executor. -/
  | queued
  | running
  | answered (reply : Reply)

inductive Watcher
  /-- Not yet waiting: its timeout has not begun. -/
  | spawned
  | waiting (deadline : Nat)
  /-- Knows what the request came to and has not yet published it. -/
  | holding (outcome : State)
  | done

/-- A call on the executor and the watcher of its answer. -/
structure Call where
  request : Nat
  query : Sql.Query
  phase : Phase := .queued
  aborted : Bool := false
  watcher : Watcher := .spawned

namespace Call

def isQueued (call : Call) : Bool :=
  match call.phase with
  | .queued => true
  | _ => false

def isRunning (call : Call) : Bool :=
  match call.phase with
  | .running => true
  | _ => false

def isAnswered (call : Call) : Bool :=
  match call.phase with
  | .answered _ => true
  | _ => false

/-- The executor receives the call, unless it was aborted before. -/
def start (call : Call) : Call :=
  if call.isQueued && !call.aborted then { call with phase := .running } else call

/-- A running call is answered; being aborted comes too late for one that no longer waits. -/
def answer (reply : Reply) (call : Call) : Call :=
  if call.isRunning then { call with phase := .answered reply } else call

def abort (call : Call) : Call :=
  { call with aborted := true }

/-- The watcher begins to wait. -/
def watch (now timeout : Nat) (call : Call) : Call :=
  match call.watcher with
  | .spawned => { call with watcher := .waiting (now + timeout) }
  | _ => call

/-- The watcher learns how the call ended; of an aborted call there is nothing to publish. -/
def notice (call : Call) : Call :=
  match call.watcher, call.phase with
  | .waiting _, .answered reply =>
    { call with watcher := .holding (.ofReply call.request call.query reply) }
  | .waiting _, _ => if call.aborted then { call with watcher := .done } else call
  | _, _ => call

/-- The watcher gives up on a call that has not ended by its deadline, and aborts it. -/
def expire (now timeout : Nat) (call : Call) : Call :=
  match call.watcher with
  | .waiting deadline =>
    if deadline ≤ now && !call.isAnswered then
      { call with
        aborted := true
        watcher := .holding (.failed call.request (.timeout timeout)) }
    else call
  | _ => call

/-- What can happen to a call at an instant whatever the executor does: a call that
waits to be received, and a watcher that has something to do. -/
def ready? (now : Nat) (call : Call) : Option Event :=
  if call.isQueued && !call.aborted then some (.start call.request)
  else match call.watcher with
    | .spawned => some (.watch call.request)
    | .waiting deadline =>
      if call.isAnswered || call.aborted then some (.notice call.request)
      else if deadline ≤ now then some (.expire call.request)
      else none
    | .holding _ => some (.commit call.request)
    | .done => none

/-- When the watcher will give up. -/
def deadline? (call : Call) : Option Nat :=
  match call.watcher with
  | .waiting deadline => if call.isAnswered || call.aborted then none else some deadline
  | _ => none

/-- What the watcher is about to publish. -/
def held? (call : Call) : Option State :=
  match call.watcher with
  | .holding outcome => some outcome
  | _ => none

def finish (call : Call) : Call :=
  match call.watcher with
  | .holding _ => { call with watcher := .done }
  | _ => call

end Call

/-- Finds a dataset by its name. -/
abbrev Catalog := String → Option Dataset

/-- The catalog of a list of datasets, in which the first one of a name is found. -/
def Catalog.ofList (datasets : List Dataset) : Catalog :=
  fun name => datasets.find? fun dataset => dataset.name == name

structure Session where
  catalog : Catalog
  settings : Settings
  cache : QueryCache := {}
  /-- The number of requests made. -/
  issued : Nat := 0
  state : State := .idle
  /-- The number of states published. -/
  published : Nat := 0
  lastQuery : Option Sql.Query := none
  /-- The request whose call is aborted by the next request. -/
  inFlight : Option Nat := none
  /-- All calls, in the order of their requests. -/
  calls : List Call := []
  /-- The time in milliseconds. -/
  now : Nat := 0

namespace Session

def publish (session : Session) (state : State) : Session :=
  { session with state, published := session.published + 1 }

/-- Changes the call of a request. -/
def onCall (session : Session) (request : Nat) (change : Call → Call) : Session :=
  { session with
    calls := session.calls.map fun call => if call.request = request then change call else call }

/-- Aborts the call in flight. -/
def abortInFlight (session : Session) : Session :=
  match session.inFlight with
  | none => session
  | some request => { session.onCall request Call.abort with inFlight := none }

/-- Aborts the call in flight and marks its request as cancelled. -/
def supersede (session : Session) : Session :=
  let session := session.abortInFlight
  match session.state with
  | .loading request _ => session.publish (.cancelled request)
  | _ => session

/-- The query of a definition for the dataset it selects. -/
def prepare (session : Session) (definition : Definition) (cap : Sql.RowCap) :
    Except Error Sql.Query × Session :=
  match definition.dataset with
  | none => (.error .noDataset, session)
  | some name =>
    match session.catalog name with
    | none => (.error (.unknownDataset name), session)
    | some dataset =>
      let (query, cache) := session.cache.fetch dataset definition session.settings cap
      (.ok query, { session with cache })

/-- The query that a request for a definition would run. -/
def copyQuery (session : Session) (definition : Definition) : Except Error Sql.Query × Session :=
  session.prepare definition .preview

/-- The query that gives the whole segment. -/
def materializeQuery (session : Session) (definition : Definition) :
    Except Error Sql.Query × Session :=
  session.prepare definition (.materialize session.settings.effectiveMaterializeLimit)

/-- Starts a preview in place of the one that is loading. -/
def request (session : Session) (definition : Definition) : Session :=
  let number := session.issued + 1
  let session := { session with issued := number }.supersede
  match session.prepare definition .preview with
  | (.error error, session) => session.publish (.failed number error)
  | (.ok query, session) =>
    { session.publish (.loading number query) with
      lastQuery := some query
      inFlight := some number
      calls := session.calls ++ [{ request := number, query }] }

/-- Publishes what the watcher of a request holds, if that request is still loading. -/
def commit (session : Session) (request : Nat) : Session :=
  match (session.calls.find? fun call => call.request == request).bind Call.held? with
  | none => session
  | some outcome =>
    let session := session.onCall request Call.finish
    match session.state with
    | .loading current _ => if current = request then session.publish outcome else session
    | _ => session

/-- The calls that the executor has received. -/
def received (session : Session) : List Sql.Query :=
  (session.calls.filter fun call => !call.isQueued).map Call.query

/-- The number of calls that were answered. -/
def finished (session : Session) : Nat :=
  (session.calls.filter Call.isAnswered).length

/-- The first thing that can happen at the present instant whatever the executor does. -/
def ready? (session : Session) : Option Event :=
  session.calls.findSome? (Call.ready? session.now)

/-- The session after an event. -/
def step (session : Session) : Event → Session
  | .request definition => session.request definition
  | .cancel => session.supersede
  | .copy definition => (session.copyQuery definition).2
  | .materialize definition => (session.materializeQuery definition).2
  | .close => session.abortInFlight
  | .start request => session.onCall request Call.start
  | .answer request reply => session.onCall request (Call.answer reply)
  | .watch request => session.onCall request (Call.watch session.now session.settings.timeout)
  | .notice request => session.onCall request Call.notice
  | .expire request => session.onCall request (Call.expire session.now session.settings.timeout)
  | .commit request => session.commit request
  | .advance milliseconds => { session with now := session.now + milliseconds }

def run (session : Session) (events : List Event) : Session :=
  events.foldl step session

end Session

/-- A receiver of published states, by the number of states it has seen. -/
structure Receiver where
  seen : Nat

namespace Receiver

/-- A receiver that has seen the current state. -/
def subscribe (session : Session) : Receiver :=
  ⟨session.published⟩

/-- Whether a state was published since the receiver last looked; it has then seen it. -/
def look (receiver : Receiver) (session : Session) : Bool × Receiver :=
  (receiver.seen != session.published, ⟨session.published⟩)

end Receiver

end Segmentation.Preview
