import Segmentation.Preview.Session

/-!
# Transitions of preview sessions

Which fields of a session an operation changes, and what it changes them to.
Main statements: a request leads to the state and the calls that its preparation
decides, and a commit publishes an outcome that a watcher of its own request holds.
-/

namespace Segmentation.Preview

/-- What becomes of a state when its request is superseded. -/
def State.superseded : State → State
  | .loading request _ => .cancelled request
  | state => state

@[simp]
theorem State.request?_superseded (state : State) :
    state.superseded.request? = state.request? := by
  cases state <;> rfl

theorem State.request?_eq_none_iff (state : State) :
    state.request? = none ↔ state = .idle := by
  cases state <;> simp [State.request?]

/-- The time that passes at an event. -/
def Event.elapsed : Event → Nat
  | .advance milliseconds => milliseconds
  | _ => 0

namespace Session

variable {session : Session} {definition : Definition}

/-- A session at its beginning. -/
def opened (catalog : Catalog) (settings : Settings) : Session :=
  { catalog, settings }

@[simp]
theorem run_append (session : Session) (before after : List Event) :
    session.run (before ++ after) = (session.run before).run after := by
  exact List.foldl_append

theorem run_concat (session : Session) (events : List Event) (event : Event) :
    session.run (events ++ [event]) = (session.run events).step event := by
  rw [run_append]
  rfl

theorem mem_calls_onCall {request : Nat} {change : Call → Call} {call : Call}
    (h : call ∈ (session.onCall request change).calls) :
    call ∈ session.calls ∨
      ∃ earlier ∈ session.calls, earlier.request = request ∧ call = change earlier := by
  obtain ⟨earlier, hearlier, rfl⟩ := List.mem_map.1 h
  by_cases hrequest : earlier.request = request
  · right
    exact ⟨earlier, hearlier, hrequest, if_pos hrequest⟩
  · left
    rw [if_neg hrequest]
    exact hearlier

/-! ### Supersession -/

/-- The calls after the one in flight is aborted. -/
def abandoned (session : Session) : List Call :=
  session.calls.map fun call =>
    if session.inFlight = some call.request then call.abort else call

theorem mem_abandoned {call : Call} (h : call ∈ session.abandoned) :
    call ∈ session.calls ∨ ∃ earlier ∈ session.calls, call = earlier.abort := by
  obtain ⟨earlier, hearlier, rfl⟩ := List.mem_map.1 h
  by_cases hrequest : session.inFlight = some earlier.request
  · right
    exact ⟨earlier, hearlier, if_pos hrequest⟩
  · left
    rw [if_neg hrequest]
    exact hearlier

theorem abortInFlight_eq (session : Session) :
    session.abortInFlight = { session with inFlight := none, calls := session.abandoned } := by
  obtain ⟨catalog, settings, cache, issued, state, published, lastQuery, inFlight, calls, now⟩ :=
    session
  cases inFlight with
  | none => simp [abortInFlight, abandoned]
  | some request => simp [abortInFlight, abandoned, onCall, eq_comm]

/-- Supersession aborts the call in flight, and publishes only in a loading state. -/
theorem supersede_eq (session : Session) :
    session.supersede =
      { session with
        state := session.state.superseded
        published := session.published + if session.state.isLoading then 1 else 0
        inFlight := none
        calls := session.abandoned } := by
  obtain ⟨catalog, settings, cache, issued, state, published, lastQuery, inFlight, calls, now⟩ :=
    session
  simp only [supersede, abortInFlight_eq]
  cases state <;> rfl

/-! ### Preparation -/

/-- Preparation changes at most the cache. -/
theorem prepare_snd (session : Session) (definition : Definition) (cap : Sql.RowCap) :
    (session.prepare definition cap).2 =
      { session with cache := (session.prepare definition cap).2.cache } := by
  rw [prepare]
  cases definition.dataset with
  | none => rfl
  | some name =>
      cases hdataset : session.catalog name with
      | none => simp only [hdataset]
      | some dataset => simp only [hdataset]

/-- A request publishes its query as loading and calls it, or publishes why it has none. -/
theorem request_eq (session : Session) (definition : Definition) :
    session.request definition =
      match (session.copyQuery definition).1 with
      | .error error =>
        { session with
          cache := (session.copyQuery definition).2.cache
          issued := session.issued + 1
          state := .failed (session.issued + 1) error
          published := session.supersede.published + 1
          inFlight := none
          calls := session.abandoned }
      | .ok query =>
        { session with
          cache := (session.copyQuery definition).2.cache
          issued := session.issued + 1
          state := .loading (session.issued + 1) query
          published := session.supersede.published + 1
          lastQuery := some query
          inFlight := some (session.issued + 1)
          calls := session.abandoned ++ [{ request := session.issued + 1, query }] } := by
  simp only [request, copyQuery, prepare, supersede_eq]
  cases definition.dataset with
  | none => rfl
  | some name =>
      cases hdataset : session.catalog name with
      | none =>
          simp only [hdataset]
          rfl
      | some dataset =>
          simp only [hdataset]
          rfl

theorem issued_request (session : Session) (definition : Definition) :
    (session.request definition).issued = session.issued + 1 := by
  rw [request_eq]
  split <;> rfl

/-! ### Commits -/

/-- A commit publishes what the watcher of its request holds, or publishes nothing. -/
theorem commit_cases (session : Session) (request : Nat) :
    (∃ call ∈ session.calls, ∃ outcome query,
      call.request = request ∧ call.watcher = .holding outcome ∧
      session.state = .loading request query ∧
      session.commit request = (session.onCall request Call.finish).publish outcome) ∨
    session.commit request = session.onCall request Call.finish ∨
    session.commit request = session := by
  rw [commit]
  cases hheld : (session.calls.find? fun call => call.request == request).bind Call.held? with
  | none =>
      right; right
      rfl
  | some outcome =>
      obtain ⟨call, hfind, hcall⟩ := Option.bind_eq_some_iff.1 hheld
      have hrequest : call.request = request := by
        simpa using List.find?_some hfind
      have hwatcher : call.watcher = .holding outcome := by
        rw [Call.held?] at hcall
        split at hcall
        · rename_i held hheld
          rw [hheld, Option.some.inj hcall]
        · contradiction
      cases hstate : session.state with
      | loading current query =>
          by_cases hcurrent : current = request
          · left
            subst hcurrent
            refine ⟨call, List.mem_of_find?_eq_some hfind, outcome, query,
              hrequest, hwatcher, rfl, ?_⟩
            simp [onCall, hstate]
          · right; left
            simp [onCall, hstate, hcurrent]
      | _ =>
          right; left
          simp [onCall, hstate]

/-! ### Frames -/

/-- Only requests give numbers and dispatch queries, and only the clock moves time. -/
theorem step_frame (session : Session) {event : Event}
    (hevent : ∀ definition, event ≠ .request definition) :
    session.step event =
      { session.step event with
        catalog := session.catalog
        settings := session.settings
        issued := session.issued
        lastQuery := session.lastQuery
        now := session.now + event.elapsed } := by
  cases event with
  | request definition => exact absurd rfl (hevent definition)
  | cancel =>
      rw [step, supersede_eq]
      rfl
  | copy definition =>
      rw [step, copyQuery, prepare_snd]
      rfl
  | materialize definition =>
      rw [step, materializeQuery, prepare_snd]
      rfl
  | close =>
      rw [step, abortInFlight_eq]
      rfl
  | commit number =>
      obtain ⟨_, _, _, _, _, _, _, hcommit⟩ | hcommit | hcommit := commit_cases session number <;>
        rw [step, hcommit] <;> rfl
  | _ => rfl

theorem settings_step (session : Session) (event : Event) :
    (session.step event).settings = session.settings := by
  by_cases hevent : ∃ definition, event = .request definition
  · obtain ⟨definition, rfl⟩ := hevent
    rw [step, request_eq]
    split <;> rfl
  · rw [session.step_frame (not_exists.1 hevent)]

theorem catalog_step (session : Session) (event : Event) :
    (session.step event).catalog = session.catalog := by
  by_cases hevent : ∃ definition, event = .request definition
  · obtain ⟨definition, rfl⟩ := hevent
    rw [step, request_eq]
    split <;> rfl
  · rw [session.step_frame (not_exists.1 hevent)]

theorem catalog_run (session : Session) (events : List Event) :
    (session.run events).catalog = session.catalog := by
  induction events generalizing session with
  | nil => rfl
  | cons event events ih =>
      calc ((session.step event).run events).catalog
          = (session.step event).catalog := ih _
        _ = session.catalog := session.catalog_step event

theorem now_step (session : Session) (event : Event) :
    (session.step event).now = session.now + event.elapsed := by
  by_cases hevent : ∃ definition, event = .request definition
  · obtain ⟨definition, rfl⟩ := hevent
    rw [step, request_eq]
    split <;> rfl
  · rw [session.step_frame (not_exists.1 hevent)]

end Session

end Segmentation.Preview
