import Segmentation.Proofs.Preview.Dispatch
import Mathlib.Algebra.GroupWithZero.Nat
import Mathlib.Algebra.Order.BigOperators.Group.List
import Mathlib.Algebra.Order.Group.Nat
import Mathlib.Data.List.Nodup

/-!
# Sessions come to rest

A session is at rest when nothing can happen at the present instant unless its caller, an
answer or the clock makes it happen.  Each event that is due takes a call one step further on
a way of at most four steps, so every session comes to rest without time passing.
-/

namespace Segmentation.Preview

/-- Whether an event happens of itself, when its call is ready for it. -/
def Event.isOwn : Event → Bool
  | .start _ | .watch _ | .notice _ | .expire _ | .commit _ => true
  | _ => false

namespace Call

/-- The events that a call is ready for. -/
inductive Due (call : Call) (now : Nat) : Event → Prop
  | start (hqueued : call.isQueued && !call.aborted) : Due call now (.start call.request)
  | watch (hwatcher : call.watcher = .spawned) : Due call now (.watch call.request)
  | notice {deadline : Nat} (hwatcher : call.watcher = .waiting deadline)
      (hended : call.isAnswered || call.aborted) : Due call now (.notice call.request)
  | expire {deadline : Nat} (hwatcher : call.watcher = .waiting deadline)
      (hwaits : ¬ (call.isAnswered || call.aborted)) (hdue : deadline ≤ now) :
      Due call now (.expire call.request)
  | commit {outcome : State} (hwatcher : call.watcher = .holding outcome) :
      Due call now (.commit call.request)

theorem due_of_ready? {call : Call} {now : Nat} {event : Event} (h : call.ready? now = some event) :
    call.Due now event := by
  rw [ready?] at h
  split at h
  · next hqueued =>
      obtain rfl := Option.some.inj h
      exact .start hqueued
  · cases hwatcher : call.watcher with
    | spawned =>
        rw [hwatcher] at h
        obtain rfl := Option.some.inj h
        exact .watch hwatcher
    | waiting deadline =>
        rw [hwatcher] at h
        simp only at h
        split at h
        · next hended =>
            obtain rfl := Option.some.inj h
            exact .notice hwatcher hended
        · next hwaits =>
            split at h
            · next hdue =>
                obtain rfl := Option.some.inj h
                exact .expire hwatcher hwaits hdue
            · contradiction
    | holding outcome =>
        rw [hwatcher] at h
        obtain rfl := Option.some.inj h
        exact .commit hwatcher
    | done =>
        rw [hwatcher] at h
        contradiction

theorem ready?_ne_none_of_spawned {call : Call} {now : Nat} (h : call.watcher = .spawned) :
    call.ready? now ≠ none := by
  rw [ready?, h]
  split <;> nofun

theorem Due.isOwn {call : Call} {now : Nat} {event : Event} (h : call.Due now event) :
    event.isOwn := by
  cases h <;> rfl

end Call

/-! ### The way of a call -/

/-- How many steps a watcher can still make. -/
def Watcher.steps : Watcher → Nat
  | spawned => 3
  | waiting _ => 2
  | holding _ => 1
  | done => 0

theorem Watcher.Moves.steps_lt {call : Call} {now timeout : Nat} {before after : Watcher}
    (h : Watcher.Moves call now timeout before after) (hmoved : after ≠ before) :
    after.steps < before.steps := by
  cases h with
  | rests watcher => contradiction
  | _ => simp [steps]

namespace Call

/-- How often a call can still be received. -/
def receipts (call : Call) : Nat :=
  if call.isQueued && !call.aborted then 1 else 0

/-- How many events can still happen to a call of themselves. -/
def remaining (call : Call) : Nat :=
  call.receipts + call.watcher.steps

variable {call after : Call} {now timeout : Nat}

theorem Moves.receipts_le (h : call.Moves now timeout after) : after.receipts ≤ call.receipts := by
  by_cases hqueued : after.isQueued && !after.aborted
  · rw [receipts, receipts, if_pos hqueued, if_pos (h.queued hqueued)]
  · rw [receipts, if_neg hqueued]
    exact Nat.zero_le _

theorem Moves.remaining_lt (h : call.Moves now timeout after)
    (hmoved : after.watcher ≠ call.watcher) : after.remaining < call.remaining := by
  exact Nat.add_lt_add_of_le_of_lt h.receipts_le (h.watcher.steps_lt hmoved)

theorem Moves.remaining_le (h : call.Moves now timeout after) :
    after.remaining ≤ call.remaining := by
  by_cases hmoved : after.watcher = call.watcher
  · rw [remaining, remaining, hmoved]
    exact Nat.add_le_add_right h.receipts_le _
  · exact Nat.le_of_lt (h.remaining_lt hmoved)

theorem remaining_start_lt (h : call.isQueued && !call.aborted) :
    call.start.remaining < call.remaining := by
  rw [start, if_pos h, remaining, remaining, receipts, receipts, if_pos h]
  exact Nat.add_lt_add_right Nat.zero_lt_one _

end Call

namespace Session

variable {session : Session} {event : Event}

/-- How many events can still happen of themselves. -/
def remaining (session : Session) : Nat :=
  (session.calls.map Call.remaining).sum

theorem remaining_onCall_lt {call : Call} (hcall : call ∈ session.calls) {change : Call → Call}
    (hmoves : ∀ call, Call.Moves session.now session.settings.timeout call (change call))
    (hlt : (change call).remaining < call.remaining) :
    (session.onCall call.request change).remaining < session.remaining := by
  rw [remaining, remaining, onCall, List.map_map]
  apply List.sum_lt_sum
  · intro other hother
    rw [Function.comp_apply]
    split
    · exact (hmoves other).remaining_le
    · rfl
  · refine ⟨call, hcall, ?_⟩
    rwa [Function.comp_apply, if_pos rfl]

/-- A call is found by the number of its request. -/
theorem find?_request (hnodup : (session.calls.map Call.request).Nodup) {call : Call}
    (hcall : call ∈ session.calls) :
    (session.calls.find? fun other => other.request == call.request) = some call := by
  cases hfind : session.calls.find? fun other => other.request == call.request with
  | none => simpa using List.find?_eq_none.1 hfind call hcall
  | some found =>
      have hrequest : found.request = call.request := by
        simpa using List.find?_some hfind
      rw [List.inj_on_of_nodup_map hnodup (List.mem_of_find?_eq_some hfind) hcall hrequest]

theorem calls_commit {number : Nat} {outcome : State}
    (hheld : (session.calls.find? fun call => call.request == number).bind Call.held? =
      some outcome) :
    (session.commit number).calls = (session.onCall number Call.finish).calls := by
  rw [commit, hheld]
  cases hstate : (session.onCall number Call.finish).state with
  | loading current query =>
      simp only [hstate]
      split <;> rfl
  | _ => simp only [hstate]

theorem remaining_onCall_lt_of_moved {call : Call} (hcall : call ∈ session.calls)
    {change : Call → Call}
    (hmoves : ∀ call, Call.Moves session.now session.settings.timeout call (change call))
    (hmoved : (change call).watcher ≠ call.watcher) :
    (session.onCall call.request change).remaining < session.remaining := by
  exact remaining_onCall_lt hcall hmoves ((hmoves call).remaining_lt hmoved)

/-- An event that is due takes its call a step further. -/
theorem remaining_step_lt (hnodup : (session.calls.map Call.request).Nodup) {call : Call}
    (hcall : call ∈ session.calls) (hdue : call.Due session.now event) :
    (session.step event).remaining < session.remaining := by
  cases hdue with
  | start hqueued =>
      exact remaining_onCall_lt hcall Call.moves_start (Call.remaining_start_lt hqueued)
  | watch hwatcher =>
      apply remaining_onCall_lt_of_moved hcall Call.moves_watch
      simp [Call.watch, hwatcher]
  | notice hwatcher hended =>
      apply remaining_onCall_lt_of_moved hcall Call.moves_notice
      cases hphase : call.phase with
      | answered reply => simp [Call.notice, hwatcher, hphase]
      | _ =>
          have haborted : call.aborted = true := by
            simpa [Call.isAnswered, hphase] using hended
          simp [Call.notice, hwatcher, hphase, haborted]
  | expire hwatcher hwaits hdue =>
      apply remaining_onCall_lt_of_moved hcall Call.moves_expire
      simp only [Bool.or_eq_true, not_or, Bool.not_eq_true] at hwaits
      simp [Call.expire, hwatcher, hdue, hwaits.1]
  | @commit outcome hwatcher =>
      -- A commit finds its call by number, so the numbers of the calls must differ.
      have hheld : (session.calls.find? fun other => other.request == call.request).bind
          Call.held? = some outcome := by
        rw [find?_request hnodup hcall, Option.bind_some, Call.held?, hwatcher]
      rw [remaining, step, calls_commit hheld]
      apply remaining_onCall_lt_of_moved hcall Call.moves_finish
      simp [Call.finish, hwatcher]

/-! ### Rest -/

/-- Nothing can happen at the present instant unless the caller, an answer or the clock makes it
happen. -/
def atRest (session : Session) : Bool :=
  session.ready?.isNone

theorem ready?_eq_none_of_atRest (h : session.atRest) {call : Call} (hcall : call ∈ session.calls) :
    call.ready? session.now = none := by
  exact List.findSome?_eq_none_iff.1 (Option.isNone_iff_eq_none.1 h) call hcall

/-- Every run comes to rest by itself. -/
theorem exists_atRest (catalog : Catalog) (settings : Settings) (events : List Event) :
    ∃ more : List Event, more.all Event.isOwn ∧
      ((opened catalog settings).run (events ++ more)).atRest := by
  induction hremaining : ((opened catalog settings).run events).remaining using
    Nat.strong_induction_on generalizing events with
  | _ remaining ih =>
      cases hready : ((opened catalog settings).run events).ready? with
      | none =>
          refine ⟨[], rfl, ?_⟩
          rw [List.append_nil, atRest, hready]
          rfl
      | some event =>
          obtain ⟨call, hcall, hevent⟩ := List.exists_of_findSome?_eq_some hready
          have hdue := Call.due_of_ready? hevent
          have hlt := remaining_step_lt (nodup_calls_run catalog settings events) hcall hdue
          rw [← run_concat, hremaining] at hlt
          obtain ⟨more, hmore, hrest⟩ := ih _ hlt _ rfl
          refine ⟨event :: more, ?_, ?_⟩
          · rw [List.all_cons, hdue.isOwn, hmore]
            rfl
          · rwa [List.append_cons]

end Session

end Segmentation.Preview
