import Segmentation.Proofs.Preview.Session

/-!
# The last request wins

A run lists what the caller, the executor, the watchers and the clock do, in any
order, and calls of many requests may be alive in it at once.  The origin of a
state is told by the events of the run alone: by the moment at which its request
was prepared, answered or timed out.  The main statement is that a state belongs to
the request made last, and that what it shows has its origin in that request.
-/

namespace Segmentation.Preview

namespace Session

/-- The numbers that the requests of a run return, in order. -/
def returned (session : Session) : List Event → List Nat
  | [] => []
  | .request definition :: events =>
    (session.request definition).issued :: returned (session.request definition) events
  | event :: events => returned (session.step event) events

theorem returned_append (session : Session) (before after : List Event) :
    session.returned (before ++ after) =
      session.returned before ++ (session.run before).returned after := by
  induction before generalizing session with
  | nil => rfl
  | cons event before ih =>
      cases event <;> simp [returned, ih, run, step]

end Session

/-! ### Moments of a run -/

/-- An event occurred in a run, at a moment at which something held of the past. -/
def Occurred (events : List Event) (event : Event) (held : List Event → Prop) : Prop :=
  ∃ past future, events = past ++ event :: future ∧ held past

theorem Occurred.append {events : List Event} {event : Event} {held : List Event → Prop}
    (h : Occurred events event held) (later : List Event) :
    Occurred (events ++ later) event held := by
  obtain ⟨past, future, rfl, hheld⟩ := h
  refine ⟨past, future ++ later, ?_, hheld⟩
  rw [List.append_assoc, List.cons_append]

theorem Occurred.now {events : List Event} {held : List Event → Prop} (event : Event)
    (h : held events) : Occurred (events ++ [event]) event held := by
  exact ⟨events, [], rfl, h⟩

section Origin

variable (initial : Session) (events : List Event) (number : Nat)

/-- The request of a number was prepared with this result. -/
def Prepared (result : Except Error Sql.Query) : Prop :=
  ∃ definition, Occurred events (.request definition) fun past =>
    ((initial.run past).request definition).issued = number ∧
    ((initial.run past).copyQuery definition).1 = result

/-- The executor, running the query of a request, replied to that request. -/
def Replied (query : Sql.Query) (reply : Reply) : Prop :=
  Occurred events (.answer number reply) fun past =>
    ∃ call ∈ (initial.run past).calls,
      call.request = number ∧ call.query = query ∧ call.isRunning = true

/-- The watcher of a request began to wait at this time. -/
def Watched (since : Nat) : Prop :=
  Occurred events (.watch number) fun past => (initial.run past).now = since

/-- The watcher of a request gave up after it had waited for the whole timeout. -/
def TimedOut : Prop :=
  Occurred events (.expire number) fun past =>
    ∃ since, Watched initial past number since ∧
      since + initial.settings.timeout ≤ (initial.run past).now

/-- How a run leads to what is shown of a request. -/
inductive Origin : State → Prop
  | prepared {query : Sql.Query} (h : Prepared initial events number (.ok query)) :
      Origin (.loading number query)
  | refused {error : Error} (h : Prepared initial events number (.error error)) :
      Origin (.failed number error)
  | replied {query : Sql.Query} {reply : Reply} (h : Prepared initial events number (.ok query))
      (hreply : Replied initial events number query reply) :
      Origin (.ofReply number query reply)
  | timedOut {query : Sql.Query} (h : Prepared initial events number (.ok query))
      (htimeout : TimedOut initial events number) :
      Origin (.failed number (.timeout initial.settings.timeout))

end Origin

variable {initial : Session} {events : List Event} {number : Nat}

theorem Prepared.append {result : Except Error Sql.Query}
    (h : Prepared initial events number result) (later : List Event) :
    Prepared initial (events ++ later) number result := by
  obtain ⟨definition, hoccurred⟩ := h
  exact ⟨definition, hoccurred.append later⟩

theorem Origin.append {state : State} (h : Origin initial events number state)
    (later : List Event) : Origin initial (events ++ later) number state := by
  cases h with
  | prepared h => exact .prepared (h.append later)
  | refused h => exact .refused (h.append later)
  | replied h hreply => exact .replied (h.append later) (Occurred.append hreply later)
  | timedOut h htimeout => exact .timedOut (h.append later) (Occurred.append htimeout later)

theorem State.request?_ofReply (number : Nat) (query : Sql.Query) (reply : Reply) :
    (State.ofReply number query reply).request? = some number := by
  cases reply with
  | rows rows =>
      simp only [State.ofReply, State.ofRows]
      split <;> rfl
  | failed error => rfl
  | broken => rfl

theorem Origin.request? {state : State} (h : Origin initial events number state) :
    state.request? = some number := by
  cases h with
  | prepared h => rfl
  | refused h => rfl
  | replied h hreply => exact State.request?_ofReply number _ _
  | timedOut h htimeout => rfl

/-! ### What calls know -/

/-- A call knows of its own request only. -/
structure Call.Accounted (initial : Session) (events : List Event) (call : Call) : Prop where
  prepared : Prepared initial events call.request (.ok call.query)
  answered : ∀ reply, call.phase = .answered reply →
    Replied initial events call.request call.query reply
  waiting : ∀ deadline, call.watcher = .waiting deadline →
    ∃ since, Watched initial events call.request since ∧ deadline = since + initial.settings.timeout
  holding : ∀ outcome, call.watcher = .holding outcome →
    Origin initial events call.request outcome

namespace Call.Accounted

variable {call : Call}

theorem append (h : call.Accounted initial events) (later : List Event) :
    call.Accounted initial (events ++ later) := by
  refine ⟨h.prepared.append later, ?_, ?_, ?_⟩
  · intro reply hphase
    exact Occurred.append (h.answered reply hphase) later
  · intro deadline hwatcher
    obtain ⟨since, hwatched, hdeadline⟩ := h.waiting deadline hwatcher
    exact ⟨since, Occurred.append hwatched later, hdeadline⟩
  · intro outcome hwatcher
    exact (h.holding outcome hwatcher).append later

theorem abort (h : call.Accounted initial events) : call.abort.Accounted initial events := by
  exact ⟨h.prepared, h.answered, h.waiting, h.holding⟩

theorem finish (h : call.Accounted initial events) : call.finish.Accounted initial events := by
  rw [Call.finish]
  split
  · exact ⟨h.prepared, h.answered, nofun, nofun⟩
  · exact h

theorem start (h : call.Accounted initial events) : call.start.Accounted initial events := by
  rw [Call.start]
  split
  · exact ⟨h.prepared, nofun, h.waiting, h.holding⟩
  · exact h

theorem notice (h : call.Accounted initial events) : call.notice.Accounted initial events := by
  rw [Call.notice]
  split
  · rename_i deadline reply hwatcher hphase
    refine ⟨h.prepared, h.answered, nofun, ?_⟩
    intro outcome houtcome
    obtain rfl := Watcher.holding.inj houtcome
    exact .replied h.prepared (h.answered reply hphase)
  · split
    · exact ⟨h.prepared, h.answered, nofun, nofun⟩
    · exact h
  · exact h

/-- An answer is the reply to the call's own request. -/
theorem answer (h : call.Accounted initial events) (hcall : call ∈ (initial.run events).calls)
    (reply : Reply) :
    (call.answer reply).Accounted initial (events ++ [.answer call.request reply]) := by
  have hlater := h.append [.answer call.request reply]
  rw [Call.answer]
  split
  · rename_i hrunning
    refine ⟨hlater.prepared, ?_, hlater.waiting, hlater.holding⟩
    intro answer hanswer
    obtain rfl := Phase.answered.inj hanswer
    exact Occurred.now _ ⟨call, hcall, rfl, rfl, hrunning⟩
  · exact hlater

theorem watch (h : call.Accounted initial events) :
    (call.watch (initial.run events).now initial.settings.timeout).Accounted initial
      (events ++ [.watch call.request]) := by
  have hlater := h.append [.watch call.request]
  rw [Call.watch]
  split
  · refine ⟨hlater.prepared, hlater.answered, ?_, nofun⟩
    intro deadline hdeadline
    obtain rfl := Watcher.waiting.inj hdeadline
    exact ⟨_, Occurred.now _ rfl, rfl⟩
  · exact hlater

/-- A watcher gives up only after the whole timeout of the call's own request. -/
theorem expire (h : call.Accounted initial events) :
    (call.expire (initial.run events).now initial.settings.timeout).Accounted initial
      (events ++ [.expire call.request]) := by
  have hlater := h.append [.expire call.request]
  rw [Call.expire]
  split
  · rename_i deadline hwatcher
    split
    · rename_i hdue
      have hnow : deadline ≤ (initial.run events).now := by
        simp only [Bool.and_eq_true, decide_eq_true_eq] at hdue
        exact hdue.1
      obtain ⟨since, hwatched, rfl⟩ := h.waiting deadline hwatcher
      refine ⟨hlater.prepared, hlater.answered, nofun, ?_⟩
      intro outcome houtcome
      obtain rfl := Watcher.holding.inj houtcome
      exact .timedOut hlater.prepared (Occurred.now _ ⟨since, hwatched, hnow⟩)
    · exact hlater
  · exact hlater

end Call.Accounted

/-! ### What sessions know -/

namespace Session

/-- What a session returned, holds and shows is accounted for by the events of its run. -/
structure Accounted (session initial : Session) (events : List Event) : Prop where
  settings : session.settings = initial.settings
  ascending : (initial.returned events).Pairwise (· < ·)
  bounded : ∀ number ∈ initial.returned events, number ≤ session.issued
  last : session.state.request? = (initial.returned events).getLast?
  calls : ∀ call ∈ session.calls, call.Accounted initial events
  shown : ∀ number, session.state.request? = some number →
    session.state = .cancelled number ∨ Origin initial events number session.state

theorem returned_concat (session : Session) (events : List Event) (event : Event) :
    session.returned (events ++ [event]) =
      session.returned events ++ (session.run events).returned [event] := by
  exact returned_append session events [event]

theorem returned_eq_nil_iff (session : Session) (events : List Event) :
    session.returned events = [] ↔ ∀ definition, .request definition ∉ events := by
  induction events generalizing session with
  | nil => simp [returned]
  | cons event events ih =>
      cases event with
      | request definition =>
          simp only [returned, reduceCtorEq, false_iff]
          intro hnone
          exact hnone definition List.mem_cons_self
      | _ => simpa [returned] using ih _

namespace Accounted

variable {session : Session} {event : Event}

/-- A step without a new number needs an account only of its state and its calls. -/
theorem step_of_returned_nil (h : session.Accounted initial events)
    (hreturned : (initial.run events).returned [event] = [])
    {after : Session} (hsettings : after.settings = session.settings)
    (hissued : after.issued = session.issued)
    (hrequest : after.state.request? = session.state.request?)
    (hcalls : ∀ call ∈ after.calls, call.Accounted initial (events ++ [event]))
    (hshown : after.state = session.state ∨
      ∀ number, after.state.request? = some number →
        after.state = .cancelled number ∨ Origin initial (events ++ [event]) number after.state) :
    after.Accounted initial (events ++ [event]) := by
  have hsame : initial.returned (events ++ [event]) = initial.returned events := by
    rw [returned_concat, hreturned, List.append_nil]
  refine ⟨?_, ?_, ?_, ?_, hcalls, ?_⟩
  · rw [hsettings, h.settings]
  · rw [hsame]
    exact h.ascending
  · rw [hsame, hissued]
    exact h.bounded
  · rw [hsame, hrequest]
    exact h.last
  · intro number hnumber
    obtain hstate | hshown := hshown
    · rw [hstate] at hnumber ⊢
      exact (h.shown number hnumber).imp_right fun horigin => horigin.append [event]
    · exact hshown number hnumber

theorem onCall (h : session.Accounted initial events)
    (hreturned : (initial.run events).returned [event] = []) {number : Nat}
    {change : Call → Call}
    (hchange : ∀ call ∈ session.calls, call.request = number →
      (change call).Accounted initial (events ++ [event])) :
    (session.onCall number change).Accounted initial (events ++ [event]) := by
  refine h.step_of_returned_nil hreturned rfl rfl rfl ?_ (.inl rfl)
  intro call hcall
  obtain hsame | ⟨earlier, hearlier, hnumber, rfl⟩ := mem_calls_onCall hcall
  · exact (h.calls call hsame).append [event]
  · exact hchange earlier hearlier hnumber

theorem abandoned (h : session.Accounted initial events) (call : Call)
    (hcall : call ∈ session.abandoned) : call.Accounted initial events := by
  obtain hsame | ⟨earlier, hearlier, rfl⟩ := mem_abandoned hcall
  · exact h.calls call hsame
  · exact (h.calls earlier hearlier).abort

theorem abortInFlight (h : session.Accounted initial events)
    (hreturned : (initial.run events).returned [event] = []) :
    session.abortInFlight.Accounted initial (events ++ [event]) := by
  rw [abortInFlight_eq]
  refine h.step_of_returned_nil hreturned rfl rfl rfl ?_ (.inl rfl)
  intro call hcall
  exact (h.abandoned call hcall).append [event]

theorem supersede (h : session.Accounted initial events)
    (hreturned : (initial.run events).returned [event] = []) :
    session.supersede.Accounted initial (events ++ [event]) := by
  rw [supersede_eq]
  refine h.step_of_returned_nil hreturned rfl rfl (State.request?_superseded _) ?_ ?_
  · intro call hcall
    exact (h.abandoned call hcall).append [event]
  · cases hstate : session.state with
    | loading request query =>
        right
        intro number hnumber
        left
        rw [← Option.some.inj hnumber]
        rfl
    | _ =>
        left
        rfl

theorem prepare (h : session.Accounted initial events)
    (hreturned : (initial.run events).returned [event] = []) (definition : Definition)
    (cap : Sql.RowCap) :
    (session.prepare definition cap).2.Accounted initial (events ++ [event]) := by
  rw [prepare_snd]
  refine h.step_of_returned_nil hreturned rfl rfl rfl ?_ (.inl rfl)
  intro call hcall
  exact (h.calls call hcall).append [event]

/-- A commit shows what the watcher of the loading request holds. -/
theorem commit (h : session.Accounted initial events)
    (hreturned : (initial.run events).returned [event] = []) (number : Nat) :
    (session.commit number).Accounted initial (events ++ [event]) := by
  have hfinish : (session.onCall number Call.finish).Accounted initial (events ++ [event]) := by
    apply h.onCall hreturned
    intro call hcall _
    exact (h.calls call hcall).finish.append [event]
  obtain ⟨call, hcall, outcome, query, rfl, hwatcher, hstate, hcommit⟩ | hcommit | hcommit :=
    commit_cases session number
  · have horigin : Origin initial (events ++ [event]) call.request outcome :=
      ((h.calls call hcall).holding outcome hwatcher).append [event]
    rw [hcommit]
    refine h.step_of_returned_nil hreturned rfl rfl ?_ hfinish.calls ?_
    · rw [hstate]
      exact horigin.request?
    · right
      intro number hnumber
      right
      obtain rfl : call.request = number :=
        Option.some.inj (horigin.request?.symm.trans hnumber)
      exact horigin
  · rw [hcommit]
    exact hfinish
  · rw [hcommit]
    refine h.step_of_returned_nil hreturned rfl rfl rfl ?_ (.inl rfl)
    intro call hcall
    exact (h.calls call hcall).append [event]

/-- A request shows what its own preparation came to. -/
theorem request (h : (initial.run events).Accounted initial events) (definition : Definition) :
    ((initial.run events).request definition).Accounted initial
      (events ++ [.request definition]) := by
  have hissued : ((initial.run events).request definition).issued =
      (initial.run events).issued + 1 := issued_request _ definition
  have hreturned : initial.returned (events ++ [.request definition]) =
      initial.returned events ++ [(initial.run events).issued + 1] := by
    rw [returned_concat, returned, returned, hissued]
  have hprepared : Prepared initial (events ++ [.request definition])
      ((initial.run events).issued + 1) ((initial.run events).copyQuery definition).1 :=
    ⟨definition, Occurred.now _ ⟨hissued, rfl⟩⟩
  have habandoned : ∀ call ∈ (initial.run events).abandoned,
      call.Accounted initial (events ++ [.request definition]) := by
    intro call hcall
    exact (h.abandoned call hcall).append _
  have hascending : (initial.returned (events ++ [.request definition])).Pairwise (· < ·) := by
    rw [hreturned, List.pairwise_append]
    refine ⟨h.ascending, List.pairwise_singleton _ _, ?_⟩
    intro earlier hearlier number hnumber
    obtain rfl := List.mem_singleton.1 hnumber
    exact Nat.lt_succ_of_le (h.bounded earlier hearlier)
  have hbounded : ∀ number ∈ initial.returned (events ++ [.request definition]),
      number ≤ (initial.run events).issued + 1 := by
    intro number hnumber
    rw [hreturned] at hnumber
    obtain hearlier | hnow := List.mem_append.1 hnumber
    · exact Nat.le_succ_of_le (h.bounded number hearlier)
    · exact Nat.le_of_eq (List.mem_singleton.1 hnow)
  have hlast : (initial.returned (events ++ [.request definition])).getLast? =
      some ((initial.run events).issued + 1) := by
    rw [hreturned, List.getLast?_concat]
  rw [request_eq]
  cases hresult : ((initial.run events).copyQuery definition).1 with
  | error error =>
      rw [hresult] at hprepared
      refine ⟨h.settings, hascending, hbounded, hlast.symm, habandoned, ?_⟩
      intro number hnumber
      right
      obtain rfl := Option.some.inj hnumber
      exact .refused hprepared
  | ok query =>
      rw [hresult] at hprepared
      refine ⟨h.settings, hascending, hbounded, hlast.symm, ?_, ?_⟩
      · intro call hcall
        obtain hcall | hcall := List.mem_append.1 hcall
        · exact habandoned call hcall
        · obtain rfl := List.mem_singleton.1 hcall
          exact ⟨hprepared, nofun, nofun, nofun⟩
      · intro number hnumber
        right
        obtain rfl := Option.some.inj hnumber
        exact .prepared hprepared

/-- Every event keeps the account of a run. -/
theorem step (h : (initial.run events).Accounted initial events) (event : Event) :
    ((initial.run events).step event).Accounted initial (events ++ [event]) := by
  cases event with
  | request definition => exact h.request definition
  | cancel => exact h.supersede rfl
  | copy definition => exact h.prepare rfl definition _
  | materialize definition => exact h.prepare rfl definition _
  | close => exact h.abortInFlight rfl
  | start number =>
      apply h.onCall rfl
      intro call hcall _
      exact (h.calls call hcall).start.append _
  | answer number reply =>
      apply h.onCall rfl
      rintro call hcall rfl
      exact (h.calls call hcall).answer hcall reply
  | watch number =>
      apply h.onCall rfl
      rintro call hcall rfl
      rw [h.settings]
      exact (h.calls call hcall).watch
  | notice number =>
      apply h.onCall rfl
      intro call hcall _
      exact (h.calls call hcall).notice.append _
  | expire number =>
      apply h.onCall rfl
      rintro call hcall rfl
      rw [h.settings]
      exact (h.calls call hcall).expire
  | commit number => exact h.commit rfl number
  | advance milliseconds =>
      refine h.step_of_returned_nil rfl rfl rfl rfl ?_ (.inl rfl)
      intro call hcall
      exact (h.calls call hcall).append _

theorem run (h : (initial.run events).Accounted initial events) (later : List Event) :
    (initial.run (events ++ later)).Accounted initial (events ++ later) := by
  induction later generalizing events with
  | nil =>
      rw [List.append_nil]
      exact h
  | cons event later ih =>
      have hstep : (initial.run (events ++ [event])).Accounted initial (events ++ [event]) := by
        rw [run_concat]
        exact h.step event
      rw [List.append_cons]
      exact ih hstep

theorem opened (catalog : Catalog) (settings : Settings) :
    ((Session.opened catalog settings).run []).Accounted (Session.opened catalog settings) [] := by
  refine ⟨rfl, List.Pairwise.nil, nofun, rfl, nofun, ?_⟩
  intro number hnumber
  contradiction

end Accounted

theorem accounted_run (catalog : Catalog) (settings : Settings) (events : List Event) :
    ((opened catalog settings).run events).Accounted (opened catalog settings) events := by
  exact (Accounted.opened catalog settings).run events

/-- Requests return ascending numbers, the state is that of the number returned last (idle
when there is none), and unless it is cancelled it originates in the request of its number. -/
theorem run_shows_last_request (catalog : Catalog) (settings : Settings) (events : List Event) :
    ((opened catalog settings).returned events).Pairwise (· < ·) ∧
    ((opened catalog settings).run events).state.request? =
      ((opened catalog settings).returned events).getLast? ∧
    (((opened catalog settings).run events).state = .idle ↔
      ∀ definition, .request definition ∉ events) ∧
    ∀ number, ((opened catalog settings).run events).state.request? = some number →
      ((opened catalog settings).run events).state = .cancelled number ∨
      Origin (opened catalog settings) events number
        ((opened catalog settings).run events).state := by
  have haccounted := (Accounted.opened catalog settings).run events
  rw [List.nil_append] at haccounted
  refine ⟨haccounted.ascending, haccounted.last, ?_, haccounted.shown⟩
  rw [← State.request?_eq_none_iff, haccounted.last, List.getLast?_eq_none_iff]
  exact returned_eq_nil_iff _ events

end Session

end Segmentation.Preview
