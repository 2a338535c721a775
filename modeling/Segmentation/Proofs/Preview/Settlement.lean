import Segmentation.Proofs.Preview.Dispatch
import Mathlib.Data.List.Chain

/-!
# Requests settle once

A request is loading until it settles: until it is loaded, empty, failed or cancelled.
What is published in a run is a chain of such steps, in which numbers only rise, so a
request that has stopped loading never loads again.  The main statement is that a settled
state stays as it is until the next request, whatever replies, timeouts and cancellations
come late.
-/

namespace Segmentation.Preview

namespace State

/-- The states in which a request has come to something. -/
inductive Settled (number : Nat) : State → Prop
  | loaded (table : Table) : Settled number (.loaded number table)
  | empty : Settled number (.empty number)
  | failed (error : Error) : Settled number (.failed number error)
  | cancelled : Settled number (.cancelled number)

/-- The states in which a request begins. -/
inductive Begun (number : Nat) : State → Prop
  | loading (query : Sql.Query) : Begun number (.loading number query)
  | failed (error : Error) : Begun number (.failed number error)

/-- The number of the request that a state belongs to, and zero if there is none. -/
def number (state : State) : Nat :=
  state.request?.getD 0

/-- One state comes right after another: a request that is loading settles, and the next
request begins when none is loading. -/
inductive Follows : State → State → Prop
  | settles {number : Nat} {query : Sql.Query} {state : State} (h : state.Settled number) :
      Follows (.loading number query) state
  | begins {earlier state : State} (hidle : earlier.isLoading = false)
      (h : state.Begun (earlier.number + 1)) : Follows earlier state

def loads (number : Nat) : State → Bool
  | loading request _ => request == number
  | _ => false

variable {number : Nat} {query : Sql.Query} {state : State}

theorem Settled.number_eq (h : state.Settled number) : state.number = number := by
  cases h <;> rfl

theorem Settled.isLoading_eq_false (h : state.Settled number) : state.isLoading = false := by
  cases h <;> rfl

theorem Begun.number_eq (h : state.Begun number) : state.number = number := by
  cases h <;> rfl

theorem settled_ofReply (number : Nat) (query : Sql.Query) (reply : Reply) :
    (ofReply number query reply).Settled number := by
  cases reply with
  | rows rows =>
      rw [ofReply, ofRows]
      split
      · exact .empty
      · exact .loaded _
  | failed error => exact .failed _
  | broken => exact .failed _

theorem superseded_eq_cancelled (h : state.isLoading) :
    state.superseded = .cancelled state.number := by
  cases state with
  | loading number query => rfl
  | _ => contradiction

theorem number_eq_of_loads (h : state.loads number) : state.isLoading ∧ state.number = number := by
  cases state with
  | loading request query => exact ⟨rfl, beq_iff_eq.1 h⟩
  | _ => contradiction

theorem Follows.of_settled {later : State} (h : state.isLoading)
    (hsettled : later.Settled state.number) : Follows state later := by
  cases state with
  | loading number query => exact .settles hsettled
  | _ => contradiction

theorem Follows.number_le {earlier later : State} (h : Follows earlier later) :
    earlier.number ≤ later.number := by
  cases h with
  | settles h => exact Nat.le_of_eq h.number_eq.symm
  | begins hidle h =>
      rw [h.number_eq]
      exact Nat.le_succ _

theorem Follows.number_lt {earlier later : State} (h : Follows earlier later)
    (hloading : later.isLoading) : earlier.number < later.number := by
  cases h with
  | settles h =>
      rw [h.isLoading_eq_false] at hloading
      contradiction
  | begins hidle h =>
      rw [h.number_eq]
      exact Nat.lt_succ_self _

/-- In a chain every loading state belongs to a later request than the states before it. -/
theorem number_lt_of_mem {earlier later : State} {states : List State}
    (h : (earlier :: states).IsChain Follows) (hmem : later ∈ states)
    (hloading : later.isLoading) : earlier.number < later.number := by
  induction states generalizing earlier with
  | nil => contradiction
  | cons next states ih =>
      obtain ⟨hfollows, hrest⟩ := List.isChain_cons_cons.1 h
      obtain rfl | hmem := List.mem_cons.1 hmem
      · exact hfollows.number_lt hloading
      · exact Nat.lt_of_le_of_lt hfollows.number_le (ih hrest hmem)

/-- A request that is loading at the end of a chain has not come to anything before. -/
theorem not_settled_of_loading {first : State} {states : List State}
    (h : (first :: states).IsChain Follows)
    (hlast : states.getLastD first = .loading number query) :
    ∀ state ∈ first :: states, ¬ state.Settled number := by
  intro state hstate hsettled
  induction states generalizing first with
  | nil =>
      obtain rfl := List.mem_singleton.1 hstate
      obtain rfl : state = .loading number query := hlast
      have hidle := hsettled.isLoading_eq_false
      contradiction
  | cons next states ih =>
      rw [List.getLastD_cons] at hlast
      obtain rfl | hmem := List.mem_cons.1 hstate
      · have hloading : .loading number query ∈ next :: states := by
          rw [← hlast]
          exact List.getLastD_mem_cons
        have hlt := number_lt_of_mem h hloading rfl
        rw [hsettled.number_eq] at hlt
        exact Nat.lt_irrefl _ hlt
      · exact ih (List.isChain_cons_cons.1 h).2 hlast hmem

end State

/-- How often a request stops loading in a list of successive states. -/
def departures (number : Nat) : List State → Nat
  | [] => 0
  | [_] => 0
  | earlier :: later :: states =>
    (if earlier.loads number && !later.loads number then 1 else 0) +
      departures number (later :: states)

theorem departures_eq_zero {number : Nat} {states : List State}
    (h : ∀ state ∈ states, state.loads number = false) : departures number states = 0 := by
  induction states with
  | nil => rfl
  | cons earlier states ih =>
      cases states with
      | nil => rfl
      | cons later states =>
          rw [departures, h earlier List.mem_cons_self, Bool.false_and, if_neg Bool.false_ne_true,
            ih fun state hstate => h state (List.mem_cons_of_mem _ hstate)]

/-- A request that has stopped loading is behind in a chain and never loads again. -/
theorem departures_le_one {states : List State} (h : states.IsChain State.Follows)
    (number : Nat) : departures number states ≤ 1 := by
  induction states with
  | nil => exact Nat.zero_le 1
  | cons earlier states ih =>
      cases states with
      | nil => exact Nat.zero_le 1
      | cons later states =>
          rw [departures]
          by_cases hloads : earlier.loads number
          · have hnever : ∀ state ∈ later :: states, state.loads number = false := by
              intro state hstate
              rw [Bool.eq_false_iff]
              intro hagain
              obtain ⟨hloading, hnumber⟩ := State.number_eq_of_loads hagain
              have hlt := State.number_lt_of_mem h hstate hloading
              rw [hnumber, (State.number_eq_of_loads hloads).2] at hlt
              exact Nat.lt_irrefl _ hlt
            rw [departures_eq_zero hnever, Nat.add_zero]
            split <;> decide
          · rw [if_neg (by simp [hloads]), Nat.zero_add]
            exact ih (List.isChain_cons_cons.1 h).2

/-- A watcher holds how its request ends. -/
theorem Watcher.Moves.settled {call : Call} {now timeout : Nat} {before after : Watcher}
    {outcome : State} (h : Watcher.Moves call now timeout before after)
    (hbefore : before = .holding outcome → outcome.Settled call.request)
    (hafter : after = .holding outcome) : outcome.Settled call.request := by
  cases h with
  | rests watcher => exact hbefore hafter
  | learns hphase =>
      obtain rfl := Watcher.holding.inj hafter
      exact State.settled_ofReply _ _ _
  | givesUp hdue =>
      obtain rfl := Watcher.holding.inj hafter
      exact .failed _
  | _ => contradiction

namespace Session

variable {session initial : Session} {event : Event} {events : List Event}

/-! ### What one event publishes -/

/-- The state that was published on the way from one moment to another, if there was one. -/
def sent (before after : Session) : List State :=
  if after.published = before.published then [] else [after.state]

/-- The states that an event publishes.  A request publishes first what becomes of the one
before it. -/
def publications (session : Session) : Event → List State
  | .request definition =>
    session.sent session.supersede ++ session.supersede.sent (session.request definition)
  | event => session.sent (session.step event)

/-- An event publishes these states, the last of which is the one it leads to. -/
structure Publishes (session : Session) (event : Event) (states : List State) : Prop where
  publications : session.publications event = states
  published : (session.step event).published = session.published + states.length
  state : (session.step event).state = states.getLastD session.state

theorem sent_of_eq {before after : Session} (h : after.published = before.published) :
    before.sent after = [] := by
  rw [sent, if_pos h]

theorem sent_of_succ {before after : Session} (h : after.published = before.published + 1) :
    before.sent after = [after.state] := by
  rw [sent, if_neg (by omega)]

theorem sent_supersede (session : Session) :
    session.sent session.supersede =
      if session.state.isLoading then [.cancelled session.state.number] else [] := by
  have hpublished := congrArg Session.published (supersede_eq session)
  split
  · next hloading =>
      rw [if_pos hloading] at hpublished
      rw [sent_of_succ hpublished, supersede_eq, State.superseded_eq_cancelled hloading]
  · next hidle =>
      rw [if_neg hidle] at hpublished
      exact sent_of_eq hpublished

theorem published_request (session : Session) (definition : Definition) :
    (session.request definition).published = session.supersede.published + 1 := by
  rw [request_eq]
  split <;> rfl

theorem begun_request (session : Session) (definition : Definition) :
    (session.request definition).state.Begun (session.issued + 1) := by
  rw [request_eq]
  split
  · exact .failed _
  · exact .loading _

/-- A request cancels the one that is loading, and then shows how it begins. -/
theorem publishes_request (session : Session) (definition : Definition) :
    session.Publishes (.request definition)
      ((if session.state.isLoading then [.cancelled session.state.number] else []) ++
        [(session.request definition).state]) := by
  refine ⟨?_, ?_, ?_⟩
  · rw [publications, sent_supersede, sent_of_succ (published_request session definition)]
  · rw [step, published_request, supersede_eq, List.length_append]
    split <;> rfl
  · rw [step, List.getLastD_concat]

theorem publishes_nothing (hevent : ∀ definition, event ≠ .request definition)
    (hpublished : (session.step event).published = session.published)
    (hstate : (session.step event).state = session.state) : session.Publishes event [] := by
  refine ⟨?_, hpublished, hstate⟩
  rw [publications]
  · exact sent_of_eq hpublished
  · exact hevent

theorem publishes_one (hevent : ∀ definition, event ≠ .request definition) {state : State}
    (hpublished : (session.step event).published = session.published + 1)
    (hstate : (session.step event).state = state) : session.Publishes event [state] := by
  refine ⟨?_, hpublished, hstate⟩
  rw [publications]
  · rw [sent_of_succ hpublished, hstate]
  · exact hevent

/-- Any other event publishes nothing, or the end of the request that is loading: that it is
cancelled, or what its watcher holds. -/
theorem publishes_cases (session : Session)
    (hevent : ∀ definition, event ≠ .request definition) :
    session.Publishes event [] ∨
    ∃ number query outcome, session.state = .loading number query ∧
      session.Publishes event [outcome] ∧
      (event = .cancel ∧ outcome = .cancelled number ∨
        event = .commit number ∧
          ∃ call ∈ session.calls, call.request = number ∧ call.watcher = .holding outcome) := by
  cases event with
  | request definition => exact absurd rfl (hevent definition)
  | cancel =>
      have hsupersede : session.step .cancel = _ := supersede_eq session
      cases hstate : session.state with
      | loading number query =>
          right
          refine ⟨number, query, _, rfl, publishes_one hevent ?_ ?_, .inl ⟨rfl, rfl⟩⟩
          · rw [hsupersede, hstate]
            rfl
          · rw [hsupersede, hstate]
            rfl
      | _ =>
          left
          apply publishes_nothing hevent <;> rw [hsupersede, hstate] <;> rfl
  | commit number =>
      obtain ⟨call, hcall, outcome, query, hnumber, hheld, hstate, hcommit⟩ | hcommit | hcommit :=
        commit_cases session number
      · right
        refine ⟨number, query, outcome, hstate, publishes_one hevent ?_ ?_,
          .inr ⟨rfl, call, hcall, hnumber, hheld⟩⟩ <;> rw [step, hcommit] <;> rfl
      · left
        apply publishes_nothing hevent <;> rw [step, hcommit] <;> rfl
      · left
        apply publishes_nothing hevent <;> rw [step, hcommit]
  | copy definition =>
      left
      apply publishes_nothing hevent <;> rw [step, copyQuery, prepare_snd]
  | materialize definition =>
      left
      apply publishes_nothing hevent <;> rw [step, materializeQuery, prepare_snd]
  | close =>
      left
      apply publishes_nothing hevent <;> rw [step, abortInFlight_eq]
  | _ => exact .inl (publishes_nothing hevent rfl rfl)

theorem exists_publishes (session : Session) (event : Event) :
    session.Publishes event (session.publications event) := by
  have hpublishes : ∀ {states}, session.Publishes event states →
      session.Publishes event (session.publications event) := by
    intro states h
    rw [h.publications]
    exact h
  by_cases hevent : ∃ definition, event = .request definition
  · obtain ⟨definition, rfl⟩ := hevent
    exact hpublishes (session.publishes_request definition)
  · obtain h | ⟨_, _, _, _, h, _⟩ := session.publishes_cases (not_exists.1 hevent)
    · exact hpublishes h
    · exact hpublishes h

/-! ### What sessions show in order -/

/-- The state belongs to the request made last, and watchers hold ends of their requests. -/
structure Orderly (session : Session) : Prop where
  number : session.state.number = session.issued
  holding : ∀ call ∈ session.calls, ∀ outcome,
    call.watcher = .holding outcome → outcome.Settled call.request

theorem orderly_opened (catalog : Catalog) (settings : Settings) :
    (opened catalog settings).Orderly := by
  exact ⟨rfl, fun _ hcall => absurd hcall List.not_mem_nil⟩

/-- An event other than a request publishes nothing, or how the loading request ends. -/
theorem Orderly.publishes_cases (h : session.Orderly)
    (hevent : ∀ definition, event ≠ .request definition) :
    session.Publishes event [] ∨
    ∃ number query outcome, session.state = .loading number query ∧
      session.Publishes event [outcome] ∧ outcome.Settled number := by
  obtain hnone | ⟨number, query, outcome, hstate, hone, hsource⟩ :=
    Session.publishes_cases session hevent
  · exact .inl hnone
  · refine .inr ⟨number, query, outcome, hstate, hone, ?_⟩
    obtain ⟨_, rfl⟩ | ⟨_, call, hcall, rfl, hheld⟩ := hsource
    · exact .cancelled
    · exact h.holding call hcall outcome hheld

theorem Orderly.publishes_nil (h : session.Orderly)
    (hevent : ∀ definition, event ≠ .request definition)
    (hloading : (session.step event).state.isLoading) : session.Publishes event [] := by
  obtain hnone | ⟨_, _, outcome, _, hone, hsettled⟩ := h.publishes_cases hevent
  · exact hnone
  · have hafter : (session.step event).state = outcome := hone.state
    rw [hafter, hsettled.isLoading_eq_false] at hloading
    contradiction

theorem Orderly.loading_of_step (h : session.Orderly)
    (hevent : ∀ definition, event ≠ .request definition) {number : Nat} {query : Sql.Query}
    (hstate : (session.step event).state = .loading number query) :
    session.state = .loading number query := by
  rw [← hstate]
  refine (h.publishes_nil hevent ?_).state.symm
  rw [hstate]
  rfl

theorem Orderly.step (h : session.Orderly) (event : Event) : (session.step event).Orderly := by
  have hholding : ∀ call ∈ (session.step event).calls, ∀ outcome,
      call.watcher = .holding outcome → outcome.Settled call.request := by
    intro after hafter outcome houtcome
    obtain ⟨call, hcall, hmoves⟩ | ⟨dispatch, _, rfl⟩ := mem_calls_step hafter
    · rw [hmoves.request]
      exact hmoves.watcher.settled (h.holding call hcall outcome) houtcome
    · contradiction
  refine ⟨?_, hholding⟩
  by_cases hevent : ∃ definition, event = .request definition
  · obtain ⟨definition, rfl⟩ := hevent
    rw [Session.step, issued_request]
    exact (session.begun_request definition).number_eq
  · have hissued := congrArg Session.issued (session.step_frame (not_exists.1 hevent))
    rw [hissued, ← h.number]
    obtain hnone | ⟨number, query, outcome, hstate, hone, hsettled⟩ :=
      h.publishes_cases (not_exists.1 hevent)
    · rw [hnone.state]
      rfl
    · rw [hone.state, hstate]
      exact hsettled.number_eq

theorem Orderly.run (h : session.Orderly) (events : List Event) :
    (session.run events).Orderly := by
  induction events generalizing session with
  | nil => exact h
  | cons event events ih => exact ih (h.step event)

/-- What an event publishes follows the state before it. -/
theorem Orderly.isChain_publications (h : session.Orderly) (event : Event) :
    (session.state :: session.publications event).IsChain State.Follows := by
  by_cases hevent : ∃ definition, event = .request definition
  · obtain ⟨definition, rfl⟩ := hevent
    have hbegun := session.begun_request definition
    rw [← h.number] at hbegun
    rw [(session.publishes_request definition).publications]
    split
    · next hloading =>
        refine .cons_cons (.of_settled hloading .cancelled) (.cons_cons ?_ (.singleton _))
        exact .begins rfl hbegun
    · next hidle =>
        exact .cons_cons (.begins (Bool.eq_false_iff.2 hidle) hbegun) (.singleton _)
  · obtain hnone | ⟨number, query, outcome, hstate, hone, hsettled⟩ :=
      h.publishes_cases (not_exists.1 hevent)
    · rw [hnone.publications]
      exact .singleton _
    · rw [hone.publications, hstate]
      exact .cons_cons (.settles hsettled) (.singleton _)

/-! ### What a run shows -/

/-- The states that a run publishes, in order. -/
def shown (session : Session) : List Event → List State
  | [] => []
  | event :: events => session.publications event ++ shown (session.step event) events

theorem published_run (session : Session) (events : List Event) :
    (session.run events).published = session.published + (session.shown events).length := by
  induction events generalizing session with
  | nil => rfl
  | cons event events ih =>
      change ((session.step event).run events).published = _
      rw [ih, (session.exists_publishes event).published, shown, List.length_append, Nat.add_assoc]

theorem state_run (session : Session) (events : List Event) :
    (session.run events).state = (session.shown events).getLastD session.state := by
  induction events generalizing session with
  | nil => rfl
  | cons event events ih =>
      change ((session.step event).run events).state = _
      rw [ih, (session.exists_publishes event).state, shown]
      simp only [List.getLastD_eq_getLast?, List.getLast?_append, Option.getD_or]

/-- A chain goes on from its last state. -/
theorem isChain_append_of_getLastD {first : State} {before after : List State}
    (hbefore : (first :: before).IsChain State.Follows)
    (hafter : (before.getLastD first :: after).IsChain State.Follows) :
    (first :: (before ++ after)).IsChain State.Follows := by
  induction before generalizing first with
  | nil => exact hafter
  | cons next before ih =>
      obtain ⟨hfollows, hrest⟩ := List.isChain_cons_cons.1 hbefore
      rw [List.getLastD_cons] at hafter
      exact .cons_cons hfollows (ih hrest hafter)

/-- What a run shows is a chain of requests that begin and settle. -/
theorem Orderly.isChain_shown (h : session.Orderly) (events : List Event) :
    (session.state :: session.shown events).IsChain State.Follows := by
  induction events generalizing session with
  | nil => exact .singleton _
  | cons event events ih =>
      apply isChain_append_of_getLastD (h.isChain_publications event)
      rw [← (session.exists_publishes event).state]
      exact ih (h.step event)

/-- Nothing is shown between a state that is not loading and the next request. -/
theorem shown_eq_nil (hidle : session.state.isLoading = false)
    (hevents : ∀ definition, .request definition ∉ events) :
    session.shown events = [] := by
  induction events generalizing session with
  | nil => rfl
  | cons event events ih =>
      have hevent : ∀ definition, event ≠ .request definition := by
        rintro definition rfl
        exact hevents definition List.mem_cons_self
      have hrest : ∀ definition, .request definition ∉ events := by
        intro definition hmem
        exact hevents definition (List.mem_cons_of_mem _ hmem)
      obtain hnone | ⟨number, query, _, hstate, _⟩ := session.publishes_cases hevent
      · rw [shown, hnone.publications, List.nil_append]
        apply ih _ hrest
        rw [hnone.state]
        exact hidle
      · rw [hstate] at hidle
        contradiction

/-- Each request settles once: it is shown as loading until it ends, it ends at most once,
and its end is shown until the next request. -/
structure SettlesOnce (initial : Session) (events : List Event) : Prop where
  /-- No state that was published is left out. -/
  complete : (initial.run events).published =
    initial.published + (initial.shown events).length
  last : (initial.run events).state = (initial.shown events).getLastD initial.state
  chain : (initial.state :: initial.shown events).IsChain State.Follows
  once : ∀ number, departures number (initial.state :: initial.shown events) ≤ 1
  final : ∀ past future number, events = past ++ future →
    (initial.run past).state.Settled number →
    (∀ definition, .request definition ∉ future) →
    (initial.run past).shown future = [] ∧ (initial.run events).state = (initial.run past).state
  replaced : ∀ past future definition, events = past ++ .request definition :: future →
    ∃ next, next.Begun ((initial.run past).state.number + 1) ∧
      (initial.run past).Publishes (.request definition)
        ((if (initial.run past).state.isLoading
          then [.cancelled (initial.run past).state.number] else []) ++ [next])

theorem settlesOnce_run (catalog : Catalog) (settings : Settings) (events : List Event) :
    (opened catalog settings).SettlesOnce events := by
  have horderly := orderly_opened catalog settings
  refine ⟨published_run _ _, state_run _ _, horderly.isChain_shown events,
    departures_le_one (horderly.isChain_shown events), ?_, ?_⟩
  · rintro past future number rfl hsettled hfuture
    have hnil := shown_eq_nil hsettled.isLoading_eq_false hfuture
    refine ⟨hnil, ?_⟩
    rw [run_append, state_run _ future, hnil]
    rfl
  · rintro past future definition rfl
    have hpast := horderly.run past
    refine ⟨_, ?_, publishes_request _ definition⟩
    rw [hpast.number]
    exact begun_request _ definition

end Session

end Segmentation.Preview
