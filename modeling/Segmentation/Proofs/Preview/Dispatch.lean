import Segmentation.Proofs.Preview.LastRequest

/-!
# Dispatches

A request whose definition has a query dispatches it: the query becomes the last one and
is called on the executor.  The calls of a session are the dispatches of its run, in
order, and one event moves each of them on by one step of its watcher at most.
-/

namespace Segmentation.Preview

/-- A query that a request calls on the executor, and when. -/
structure Dispatch where
  request : Nat
  query : Sql.Query
  time : Nat

/-- The call of a dispatch before anything has happened to it. -/
def Dispatch.call (dispatch : Dispatch) : Call :=
  { request := dispatch.request, query := dispatch.query }

/-! ### What one event does to a call -/

/-- How far the watcher of a call gets in one step, by a clock and a timeout. -/
inductive Watcher.Moves (call : Call) (now timeout : Nat) : Watcher → Watcher → Prop
  | rests (watcher : Watcher) : Moves call now timeout watcher watcher
  | waits : Moves call now timeout .spawned (.waiting (now + timeout))
  | learns {deadline : Nat} {reply : Reply} (h : call.phase = .answered reply) :
      Moves call now timeout (.waiting deadline)
        (.holding (.ofReply call.request call.query reply))
  | leaves {deadline : Nat} (h : call.aborted) :
      Moves call now timeout (.waiting deadline) .done
  | givesUp {deadline : Nat} (h : deadline ≤ now) :
      Moves call now timeout (.waiting deadline)
        (.holding (.failed call.request (.timeout timeout)))
  | finishes {outcome : State} : Moves call now timeout (.holding outcome) .done

/-- A call after one event is the same call, its watcher has moved on, and it waits to be
received only if it did before. -/
structure Call.Moves (now timeout : Nat) (call after : Call) : Prop where
  request : after.request = call.request
  query : after.query = call.query
  queued : after.isQueued && !after.aborted → call.isQueued && !call.aborted
  watcher : Watcher.Moves call now timeout call.watcher after.watcher

namespace Call

variable {now timeout : Nat}

theorem moves_self (call : Call) : Moves now timeout call call := by
  exact ⟨rfl, rfl, id, .rests _⟩

theorem moves_start (call : Call) : Moves now timeout call call.start := by
  rw [start]
  split
  · exact ⟨rfl, rfl, fun hqueued => absurd hqueued Bool.false_ne_true, .rests _⟩
  · exact call.moves_self

theorem moves_answer (reply : Reply) (call : Call) :
    Moves now timeout call (call.answer reply) := by
  rw [answer]
  split
  · exact ⟨rfl, rfl, fun hqueued => absurd hqueued Bool.false_ne_true, .rests _⟩
  · exact call.moves_self

theorem not_queued_of_aborted {call : Call} (h : call.aborted) :
    ¬ (call.isQueued && !call.aborted) := by
  rw [h, Bool.not_true, Bool.and_false]
  exact Bool.false_ne_true

theorem moves_abort (call : Call) : Moves now timeout call call.abort := by
  exact ⟨rfl, rfl, fun hqueued => absurd hqueued (not_queued_of_aborted rfl), .rests _⟩

theorem moves_watch (call : Call) : Moves now timeout call (call.watch now timeout) := by
  rw [watch]
  split
  · next hwatcher =>
      refine ⟨rfl, rfl, id, ?_⟩
      rw [hwatcher]
      exact .waits
  · exact call.moves_self

theorem moves_notice (call : Call) : Moves now timeout call call.notice := by
  rw [notice]
  split
  · next hwatcher hphase =>
      refine ⟨rfl, rfl, id, ?_⟩
      rw [hwatcher]
      exact .learns hphase
  · next hwatcher _ =>
      split
      · next haborted =>
          refine ⟨rfl, rfl, id, ?_⟩
          rw [hwatcher]
          exact .leaves haborted
      · exact call.moves_self
  · exact call.moves_self

theorem moves_expire (call : Call) : Moves now timeout call (call.expire now timeout) := by
  rw [expire]
  split
  · next hwatcher =>
      split
      · next hdue =>
          simp only [Bool.and_eq_true, decide_eq_true_eq] at hdue
          refine ⟨rfl, rfl, fun hqueued => absurd hqueued (not_queued_of_aborted rfl), ?_⟩
          rw [hwatcher]
          exact .givesUp hdue.1
      · exact call.moves_self
  · exact call.moves_self

theorem moves_finish (call : Call) : Moves now timeout call call.finish := by
  rw [finish]
  split
  · next hwatcher =>
      refine ⟨rfl, rfl, id, ?_⟩
      rw [hwatcher]
      exact .finishes
  · exact call.moves_self

end Call

namespace Session

variable {session : Session} {event : Event}

/-! ### What one event does to the calls -/

/-- The dispatch that an event makes. -/
def dispatch? (session : Session) : Event → Option Dispatch
  | .request definition =>
    match (session.copyQuery definition).1 with
    | .ok query => some ⟨session.issued + 1, query, session.now⟩
    | .error _ => none
  | _ => none

/-- The calls after an event: those before it, each moved on, and that of its dispatch. -/
def Advances (session : Session) (event : Event) (change : Call → Call) : Prop :=
  (∀ call, Call.Moves session.now session.settings.timeout call (change call)) ∧
    (session.step event).calls =
      session.calls.map change ++ (session.dispatch? event).toList.map Dispatch.call

theorem advances_of_eq (hcalls : (session.step event).calls = session.calls)
    (hdispatch : session.dispatch? event = none) : session.Advances event id := by
  refine ⟨Call.moves_self, ?_⟩
  rw [hcalls, hdispatch, List.map_id]
  exact (List.append_nil _).symm

theorem advances_of_onCall (number : Nat) {change : Call → Call}
    (hchange : ∀ call, Call.Moves session.now session.settings.timeout call (change call))
    (hcalls : (session.step event).calls = (session.onCall number change).calls)
    (hdispatch : session.dispatch? event = none) :
    session.Advances event fun call => if call.request = number then change call else call := by
  refine ⟨?_, ?_⟩
  · intro call
    by_cases hnumber : call.request = number
    · simpa only [if_pos hnumber] using hchange call
    · simpa only [if_neg hnumber] using call.moves_self
  · rw [hcalls, hdispatch]
    exact (List.append_nil _).symm

theorem moves_abandoned {now timeout : Nat} (call : Call) :
    Call.Moves now timeout call
      (if session.inFlight = some call.request then call.abort else call) := by
  split
  · exact call.moves_abort
  · exact call.moves_self

theorem advances_of_abandoned
    (hcalls : (session.step event).calls =
      session.abandoned ++ (session.dispatch? event).toList.map Dispatch.call) :
    session.Advances event fun call =>
      if session.inFlight = some call.request then call.abort else call := by
  exact ⟨moves_abandoned, hcalls⟩

theorem exists_advances (session : Session) (event : Event) :
    ∃ change, session.Advances event change := by
  cases event with
  | request definition =>
      refine ⟨_, advances_of_abandoned ?_⟩
      rw [step, request_eq, dispatch?]
      cases (session.copyQuery definition).1 with
      | error error => exact (List.append_nil _).symm
      | ok query => rfl
  | cancel =>
      refine ⟨_, advances_of_abandoned ?_⟩
      rw [step, supersede_eq]
      exact (List.append_nil _).symm
  | close =>
      refine ⟨_, advances_of_abandoned ?_⟩
      rw [step, abortInFlight_eq]
      exact (List.append_nil _).symm
  | copy definition =>
      refine ⟨_, advances_of_eq ?_ rfl⟩
      rw [step, copyQuery, prepare_snd]
  | materialize definition =>
      refine ⟨_, advances_of_eq ?_ rfl⟩
      rw [step, materializeQuery, prepare_snd]
  | start number => exact ⟨_, advances_of_onCall number Call.moves_start rfl rfl⟩
  | answer number reply => exact ⟨_, advances_of_onCall number (Call.moves_answer reply) rfl rfl⟩
  | watch number => exact ⟨_, advances_of_onCall number Call.moves_watch rfl rfl⟩
  | notice number => exact ⟨_, advances_of_onCall number Call.moves_notice rfl rfl⟩
  | expire number => exact ⟨_, advances_of_onCall number Call.moves_expire rfl rfl⟩
  | commit number =>
      obtain ⟨_, _, _, _, _, _, _, hcommit⟩ | hcommit | hcommit := commit_cases session number
      · refine ⟨_, advances_of_onCall number Call.moves_finish ?_ rfl⟩
        rw [step, hcommit]
        rfl
      · refine ⟨_, advances_of_onCall number Call.moves_finish ?_ rfl⟩
        rw [step, hcommit]
      · refine ⟨_, advances_of_eq ?_ rfl⟩
        rw [step, hcommit]
  | advance milliseconds => exact ⟨_, advances_of_eq rfl rfl⟩

/-- A call after an event was there before it, or is that of its dispatch. -/
theorem mem_calls_step {after : Call} (h : after ∈ (session.step event).calls) :
    (∃ call ∈ session.calls, Call.Moves session.now session.settings.timeout call after) ∨
      ∃ dispatch ∈ session.dispatch? event, after = dispatch.call := by
  obtain ⟨change, hmoves, hcalls⟩ := session.exists_advances event
  rw [hcalls] at h
  obtain hearlier | hnew := List.mem_append.1 h
  · obtain ⟨call, hcall, rfl⟩ := List.mem_map.1 hearlier
    exact .inl ⟨call, hcall, hmoves call⟩
  · obtain ⟨dispatch, hdispatch, rfl⟩ := List.mem_map.1 hnew
    exact .inr ⟨dispatch, Option.mem_toList.1 hdispatch, rfl⟩

/-! ### The dispatches of a run -/

/-- The dispatches of a run, in order. -/
def dispatches (session : Session) : List Event → List Dispatch
  | [] => []
  | event :: events => (session.dispatch? event).toList ++ dispatches (session.step event) events

theorem dispatches_append (session : Session) (before after : List Event) :
    session.dispatches (before ++ after) =
      session.dispatches before ++ (session.run before).dispatches after := by
  induction before generalizing session with
  | nil => rfl
  | cons event before ih =>
      rw [List.cons_append, dispatches, dispatches, ih, List.append_assoc]
      rfl

theorem dispatches_concat (session : Session) (events : List Event) (event : Event) :
    session.dispatches (events ++ [event]) =
      session.dispatches events ++ ((session.run events).dispatch? event).toList := by
  rw [dispatches_append, dispatches, dispatches, List.append_nil]

/-- The executor is called once for each dispatch, and for nothing else. -/
theorem calls_run (session : Session) (events : List Event) :
    (session.run events).calls.map (fun call => (call.request, call.query)) =
      session.calls.map (fun call => (call.request, call.query)) ++
        (session.dispatches events).map fun dispatch => (dispatch.request, dispatch.query) := by
  induction events generalizing session with
  | nil => exact (List.append_nil _).symm
  | cons event events ih =>
      obtain ⟨change, hmoves, hcalls⟩ := session.exists_advances event
      have hsame : (fun call => (call.request, call.query)) ∘ change =
          fun call => (call.request, call.query) := by
        funext call
        exact Prod.ext (hmoves call).request (hmoves call).query
      change ((session.step event).run events).calls.map _ = _
      rw [ih, hcalls, dispatches, List.map_append, List.map_append, List.map_map, hsame,
        List.map_map, List.append_assoc]
      rfl

/-- The requests of the dispatches are among those that were made, in the same order. -/
theorem sublist_returned (session : Session) (events : List Event) :
    ((session.dispatches events).map Dispatch.request).Sublist (session.returned events) := by
  induction events generalizing session with
  | nil => exact .slnil
  | cons event events ih =>
      rw [dispatches, List.map_append]
      cases event with
      | request definition =>
          rw [returned, issued_request, dispatch?]
          cases (session.copyQuery definition).1 with
          | error error => exact (ih _).cons _
          | ok query => exact (ih _).cons_cons _
      | _ => exact ih _

theorem ascending_dispatches (catalog : Catalog) (settings : Settings) (events : List Event) :
    (((opened catalog settings).dispatches events).map Dispatch.request).Pairwise (· < ·) := by
  exact (accounted_run catalog settings events).ascending.sublist (sublist_returned _ events)

/-- A request dispatches once. -/
theorem nodup_dispatches (catalog : Catalog) (settings : Settings) (events : List Event) :
    (((opened catalog settings).dispatches events).map Dispatch.request).Nodup := by
  exact (ascending_dispatches catalog settings events).imp Nat.ne_of_lt

theorem nodup_calls_run (catalog : Catalog) (settings : Settings) (events : List Event) :
    (((opened catalog settings).run events).calls.map Call.request).Nodup := by
  have hcalls := congrArg (List.map Prod.fst) (calls_run (opened catalog settings) events)
  rw [List.map_append, List.map_map, List.map_map, List.map_map] at hcalls
  have hrequests : ((opened catalog settings).run events).calls.map Call.request =
      ((opened catalog settings).dispatches events).map Dispatch.request := hcalls
  rw [hrequests]
  exact nodup_dispatches catalog settings events

end Session

end Segmentation.Preview
