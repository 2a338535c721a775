import Segmentation.Proofs.Preview.Settlement

/-!
# The last query

A session keeps the query of its last dispatch.  This is the query of the request made last
as long as that request has one, and then also the query that is loading.  A request that
cannot be prepared leaves the query of an earlier one in place.
-/

namespace Segmentation.Preview

namespace Session

variable {session initial : Session} {event : Event} {events : List Event}

/-! ### What is kept -/

theorem lastQuery_step (session : Session) (event : Event) :
    (session.step event).lastQuery =
      ((session.dispatch? event).map Dispatch.query).or session.lastQuery := by
  by_cases hevent : ∃ definition, event = .request definition
  · obtain ⟨definition, rfl⟩ := hevent
    rw [step, request_eq, dispatch?]
    cases (session.copyQuery definition).1 with
    | error error => rfl
    | ok query => rfl
  · have hnone : session.dispatch? event = none := by
      cases event with
      | request definition => exact absurd ⟨definition, rfl⟩ hevent
      | _ => rfl
    rw [hnone, session.step_frame (not_exists.1 hevent)]
    rfl

/-- A run keeps the query of its last dispatch. -/
theorem lastQuery_run (session : Session) (events : List Event) :
    (session.run events).lastQuery =
      ((session.dispatches events).getLast?.map Dispatch.query).or session.lastQuery := by
  induction events generalizing session with
  | nil => rfl
  | cons event events ih =>
      have hrest := ih (session.step event)
      rw [lastQuery_step] at hrest
      change ((session.step event).run events).lastQuery = _
      rw [hrest, dispatches, List.getLast?_append, Option.map_or, Option.or_assoc]
      cases session.dispatch? event <;> rfl

/-- The query of a request that is loading is the one kept. -/
theorem lastQuery_of_loading (hinitial : initial.state.isLoading = false)
    (horderly : initial.Orderly) {number : Nat} {query : Sql.Query}
    (h : (initial.run events).state = .loading number query) :
    (initial.run events).lastQuery = some query := by
  induction events using List.reverseRecOn generalizing number query with
  | nil =>
      change initial.state = _ at h
      rw [h] at hinitial
      contradiction
  | append_singleton events event ih =>
      rw [run_concat] at h ⊢
      by_cases hevent : ∃ definition, event = .request definition
      · obtain ⟨definition, rfl⟩ := hevent
        rw [step, request_eq] at h ⊢
        cases hresult : ((initial.run events).copyQuery definition).1 with
        | error error =>
            rw [hresult] at h
            contradiction
        | ok query =>
            rw [hresult] at h
            rw [← (State.loading.inj h).2]
      · have hbefore := (horderly.run events).loading_of_step (not_exists.1 hevent) h
        rw [step_frame _ (not_exists.1 hevent)]
        exact ih hbefore

/-! ### The request made last -/

/-- The request made last dispatched this query. -/
def LatestDispatches (initial : Session) (events : List Event) (query : Sql.Query) : Prop :=
  ∃ dispatch ∈ initial.dispatches events,
    (initial.returned events).getLast? = some dispatch.request ∧ dispatch.query = query

section

variable {catalog : Catalog} {settings : Settings} {dispatch : Dispatch} {query : Sql.Query}

theorem le_of_mem_returned {number latest : Nat}
    (hlatest : ((opened catalog settings).returned events).getLast? = some latest)
    (hnumber : number ∈ (opened catalog settings).returned events) : number ≤ latest := by
  have hascending := (accounted_run catalog settings events).ascending
  obtain ⟨earlier, hreturned⟩ := List.getLast?_eq_some_iff.1 hlatest
  rw [hreturned] at hascending hnumber
  obtain hearlier | hnow := List.mem_append.1 hnumber
  · exact Nat.le_of_lt ((List.pairwise_append.1 hascending).2.2 _ hearlier _ List.mem_cons_self)
  · exact Nat.le_of_eq (List.mem_singleton.1 hnow)

/-- A dispatch of the request made last is the last dispatch. -/
theorem getLast?_dispatches (hdispatch : dispatch ∈ (opened catalog settings).dispatches events)
    (hlatest : ((opened catalog settings).returned events).getLast? = some dispatch.request) :
    ((opened catalog settings).dispatches events).getLast? = some dispatch := by
  have hascending := ascending_dispatches catalog settings events
  have hsubset := (sublist_returned (opened catalog settings) events).subset
  obtain hnil | ⟨init, last, hdispatches⟩ :=
    ((opened catalog settings).dispatches events).eq_nil_or_concat'
  · rw [hnil] at hdispatch
    contradiction
  · rw [hdispatches] at hdispatch hascending hsubset ⊢
    have hlast : last.request ≤ dispatch.request := by
      apply le_of_mem_returned hlatest
      exact hsubset (List.mem_map_of_mem (List.mem_append_right _ List.mem_cons_self))
    obtain hinit | hsame := List.mem_append.1 hdispatch
    · rw [List.map_append] at hascending
      have hlt := (List.pairwise_append.1 hascending).2.2 _ (List.mem_map_of_mem hinit) _
        (List.mem_map_of_mem List.mem_cons_self)
      exact absurd hlast (Nat.not_le_of_lt hlt)
    · rw [List.getLast?_concat, List.mem_singleton.1 hsame]

/-- The last query of a run is that of its last dispatch, so it is the one that is loading, and
that of the request made last if this request dispatched one.  For a request that did not, it is
what an earlier one left. -/
structure LastQueryFollows (initial : Session) (events : List Event) : Prop where
  last : (initial.run events).lastQuery =
    (initial.dispatches events).getLast?.map Dispatch.query
  loading : ∀ number query, (initial.run events).state = .loading number query →
    (initial.run events).lastQuery = some query
  latest : ∀ query, initial.LatestDispatches events query →
    (initial.run events).lastQuery = some query
  agrees : (∀ query, (initial.run events).lastQuery = some query ↔
      initial.LatestDispatches events query) ↔
    initial.dispatches events = [] ∨ ∃ query, initial.LatestDispatches events query

theorem lastQueryFollows_run (catalog : Catalog) (settings : Settings) (events : List Event) :
    (opened catalog settings).LastQueryFollows events := by
  have hlast : ((opened catalog settings).run events).lastQuery =
      ((opened catalog settings).dispatches events).getLast?.map Dispatch.query := by
    rw [lastQuery_run]
    exact Option.or_none
  have hlatest : ∀ query, (opened catalog settings).LatestDispatches events query →
      ((opened catalog settings).run events).lastQuery = some query := by
    rintro query ⟨dispatch, hdispatch, hnumber, rfl⟩
    rw [hlast, getLast?_dispatches hdispatch hnumber]
    rfl
  refine ⟨hlast, ?_, hlatest, ?_, ?_⟩
  · intro number query hstate
    exact lastQuery_of_loading rfl (orderly_opened catalog settings) hstate
  · intro hagrees
    cases hquery : ((opened catalog settings).run events).lastQuery with
    | none =>
        left
        rw [hlast, Option.map_eq_none_iff, List.getLast?_eq_none_iff] at hquery
        exact hquery
    | some query => exact .inr ⟨query, (hagrees query).1 hquery⟩
  · rintro (hnil | ⟨query, hquery⟩) other
    · refine ⟨?_, hlatest other⟩
      intro hother
      rw [hlast, hnil] at hother
      contradiction
    · refine ⟨?_, hlatest other⟩
      intro hother
      rw [hlatest query hquery] at hother
      rwa [← Option.some.inj hother]

/-- A request without a dataset leaves the query of the request before it. -/
theorem lastQuery_of_no_dataset :
    let catalog := Catalog.ofList [{ name := "customers" }]
    let initial := opened catalog {}
    let hanoi : Definition := { name := "Hanoi", dataset := some "customers" }
    let events : List Event := [.request hanoi, .request { name := "Hanoi" }]
    ¬ ∀ query, (initial.run events).lastQuery = some query ↔
      initial.LatestDispatches events query := by
  intro catalog initial hanoi events hagrees
  have hrequests : (initial.dispatches events).map Dispatch.request = [1] := by
    decide +kernel
  have hreturned : initial.returned events = [1, 2] := by
    decide +kernel
  obtain ⟨query, hquery⟩ : ∃ query, (initial.run events).lastQuery = some query := ⟨_, rfl⟩
  obtain ⟨dispatch, hdispatch, hnumber, _⟩ := (hagrees query).1 hquery
  have hrequest := List.mem_map_of_mem (f := Dispatch.request) hdispatch
  rw [hrequests, List.mem_singleton] at hrequest
  rw [hreturned, hrequest] at hnumber
  contradiction

end

end Session

end Segmentation.Preview
