import Segmentation.Preview.Session

/-!
# Rehearsals

A rehearsal runs a session against an executor that follows a script, in virtual
time.  Everything that can happen at an instant happens before time moves on,
and time moves from one instant at which something is due to the next.
-/

namespace Segmentation.Preview

/-- How the executor treats one call. -/
structure Cue where
  /-- The time until the answer, in milliseconds. -/
  delay : Nat := 0
  /-- The definition that the executor requests before it answers. -/
  reenter : Option Nat := none
  reply : Reply := .rows []

/-- A call that the executor will answer at an instant. -/
structure Alarm where
  request : Nat
  due : Nat
  cue : Cue

structure Rehearsal where
  session : Session
  /-- How the next calls are treated; calls after the last cue are answered at once by no rows. -/
  script : List Cue
  definitions : List Definition
  alarms : List Alarm := []

namespace Rehearsal

def step (rehearsal : Rehearsal) (event : Event) : Rehearsal :=
  { rehearsal with session := rehearsal.session.step event }

/-- The executor answers a call, after a request of its own if the cue has one. -/
def finish (rehearsal : Rehearsal) (request : Nat) (cue : Cue) : Rehearsal :=
  let rehearsal :=
    match cue.reenter.bind fun index => rehearsal.definitions[index]? with
    | none => rehearsal
    | some definition => rehearsal.step (.request definition)
  rehearsal.step (.answer request cue.reply)

/-- The executor receives a call. -/
def receive (rehearsal : Rehearsal) (request : Nat) : Rehearsal :=
  let cue := rehearsal.script.headD {}
  let rehearsal := { rehearsal with script := rehearsal.script.tail }.step (.start request)
  if cue.delay = 0 then rehearsal.finish request cue
  else { rehearsal with
    alarms := rehearsal.alarms ++ [⟨request, rehearsal.session.now + cue.delay, cue⟩] }

/-- An alarm of a call that is still to be answered. -/
def isLive (session : Session) (alarm : Alarm) : Bool :=
  session.calls.any fun call => call.request == alarm.request && call.isRunning && !call.aborted

/-- The first thing that can happen at the present instant. -/
def next? (rehearsal : Rehearsal) : Option Rehearsal :=
  let session := rehearsal.session
  match session.ready? with
  | some (.start request) => some (rehearsal.receive request)
  | some event => some (rehearsal.step event)
  | none =>
    match rehearsal.alarms.find? fun alarm => alarm.due ≤ session.now && isLive session alarm with
    | some alarm => some (rehearsal.finish alarm.request alarm.cue)
    | none => none

/-- More than all that can happen: a call goes through a handful of events, and only a
cue of the script can make a further one. -/
def bound (rehearsal : Rehearsal) : Nat :=
  6 * (rehearsal.session.calls.length + rehearsal.script.length + 1)

def settleUpTo : Nat → Rehearsal → Rehearsal
  | 0, rehearsal => rehearsal
  | count + 1, rehearsal =>
    match rehearsal.next? with
    | none => rehearsal
    | some rehearsal => settleUpTo count rehearsal

/-- Lets everything happen that can happen without time passing. -/
def settle (rehearsal : Rehearsal) : Rehearsal :=
  settleUpTo rehearsal.bound rehearsal

/-- The next instant at which something is due. -/
def nextInstant? (rehearsal : Rehearsal) : Option Nat :=
  let session := rehearsal.session
  let answers := (rehearsal.alarms.filter (isLive session)).map Alarm.due
  let deadlines := session.calls.filterMap Call.deadline?
  (answers ++ deadlines).min?

def moveTo (rehearsal : Rehearsal) (instant : Nat) : Rehearsal :=
  (rehearsal.step (.advance (instant - rehearsal.session.now))).settle

def advanceUpTo : Nat → Nat → Rehearsal → Rehearsal
  | 0, _, rehearsal => rehearsal
  | count + 1, target, rehearsal =>
    match rehearsal.nextInstant? with
    | none => rehearsal
    | some instant =>
      if instant ≤ target then advanceUpTo count target (rehearsal.moveTo instant)
      else rehearsal

/-- Lets time pass, with all that happens on the way. -/
def sleep (rehearsal : Rehearsal) (milliseconds : Nat) : Rehearsal :=
  let target := rehearsal.session.now + milliseconds
  let rehearsal := rehearsal.settle
  (advanceUpTo rehearsal.bound target rehearsal).moveTo target

def waitUpTo : Nat → Rehearsal → Rehearsal
  | 0, rehearsal => rehearsal
  | count + 1, rehearsal =>
    if rehearsal.session.state.isLoading then
      match rehearsal.nextInstant? with
      | none => rehearsal
      | some instant => waitUpTo count (rehearsal.moveTo instant)
    else rehearsal

/-- Lets time pass until no request is loading. -/
def wait (rehearsal : Rehearsal) : Rehearsal :=
  if rehearsal.session.state.isLoading then
    let rehearsal := rehearsal.settle
    waitUpTo rehearsal.bound rehearsal
  else rehearsal

/-- Gives the session up and lets time pass. -/
def close (rehearsal : Rehearsal) (milliseconds : Nat) : Rehearsal :=
  (rehearsal.step .close).sleep milliseconds

end Rehearsal

end Segmentation.Preview
