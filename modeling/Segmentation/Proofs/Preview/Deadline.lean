import Segmentation.Proofs.Preview.Expectation

/-!
# Requests end by their deadlines

A watcher gives up when the timeout has passed since it began to wait.  In a run in which
time passes only when nothing else can happen, it begins to wait at the instant of the
dispatch, so that a request is loading for no longer than the timeout, whatever the executor
does.  In any run, a request that fails for its timeout is the one that is loading and was
dispatched no less than the timeout before.
-/

namespace Segmentation.Preview

/-! ### Watchers and the clock -/

namespace Watcher.Moves

variable {call : Call} {now timeout : Nat} {before after : Watcher}

theorem of_spawned (h : Moves call now timeout before after) (hafter : after = .spawned) :
    before = .spawned := by
  cases h with
  | rests watcher => exact hafter
  | _ => contradiction

/-- A watcher that waits was waiting before, or has just begun. -/
theorem of_waiting (h : Moves call now timeout before after) {deadline : Nat}
    (hafter : after = .waiting deadline) :
    before = .waiting deadline ∨ before = .spawned ∧ deadline = now + timeout := by
  cases h with
  | rests watcher => exact .inl hafter
  | waits => exact .inr ⟨rfl, (Watcher.waiting.inj hafter).symm⟩
  | _ => contradiction

/-- A watcher that holds a timeout held it before, or has just given up. -/
theorem of_timeout (h : Moves call now timeout before after) {number milliseconds : Nat}
    (hafter : after = .holding (.failed number (.timeout milliseconds))) :
    before = .holding (.failed number (.timeout milliseconds)) ∨
      milliseconds = timeout ∧ ∃ deadline, before = .waiting deadline ∧ deadline ≤ now := by
  cases h with
  | rests watcher => exact .inl hafter
  | @learns _ reply hphase =>
      have hreply := Watcher.holding.inj hafter
      cases reply with
      | rows rows =>
          rw [State.ofReply, State.ofRows] at hreply
          split at hreply <;> contradiction
      | failed error => simp [State.ofReply] at hreply
      | broken => simp [State.ofReply] at hreply
  | givesUp hdue =>
      have hfailed := Watcher.holding.inj hafter
      injection hfailed with hnumber herror
      exact .inr ⟨(Error.timeout.inj herror).symm, _, rfl, hdue⟩
  | _ => contradiction

end Watcher.Moves

/-! ### Calls and the clock -/

/-- What the clock says of the call of a dispatch: its watcher began to wait at the dispatch
or later, and gives up after the whole timeout. -/
structure Dispatch.Governs (dispatch : Dispatch) (timeout now : Nat) (call : Call) : Prop where
  request : call.request = dispatch.request
  time : dispatch.time ≤ now
  waiting : ∀ deadline, call.watcher = .waiting deadline → dispatch.time + timeout ≤ deadline
  timedOut : ∀ number milliseconds,
    call.watcher = .holding (.failed number (.timeout milliseconds)) →
    milliseconds = timeout ∧ dispatch.time + timeout ≤ now

/-- The watcher of a call began to wait at the instant of the dispatch. -/
structure Dispatch.Hastens (dispatch : Dispatch) (timeout now : Nat) (call : Call) : Prop where
  spawned : call.watcher = .spawned → dispatch.time = now
  waiting : ∀ deadline, call.watcher = .waiting deadline → deadline ≤ dispatch.time + timeout

namespace Dispatch

variable {dispatch : Dispatch} {timeout now later : Nat} {call after : Call}

theorem governs_call (dispatch : Dispatch) (timeout : Nat) :
    dispatch.Governs timeout dispatch.time dispatch.call := by
  exact ⟨rfl, Nat.le_refl _, nofun, nofun⟩

theorem hastens_call (dispatch : Dispatch) (timeout : Nat) :
    dispatch.Hastens timeout dispatch.time dispatch.call := by
  exact ⟨fun _ => rfl, nofun⟩

theorem Governs.moves (h : dispatch.Governs timeout now call)
    (hmoves : Call.Moves now timeout call after) : dispatch.Governs timeout now after := by
  refine ⟨hmoves.request.trans h.request, h.time, ?_, ?_⟩
  · intro deadline hafter
    obtain hbefore | ⟨_, rfl⟩ := hmoves.watcher.of_waiting hafter
    · exact h.waiting deadline hbefore
    · exact Nat.add_le_add_right h.time timeout
  · intro number milliseconds hafter
    obtain hbefore | ⟨rfl, deadline, hbefore, hdue⟩ := hmoves.watcher.of_timeout hafter
    · exact h.timedOut number milliseconds hbefore
    · exact ⟨rfl, Nat.le_trans (h.waiting deadline hbefore) hdue⟩

theorem Governs.mono (h : dispatch.Governs timeout now call) (hnow : now ≤ later) :
    dispatch.Governs timeout later call := by
  refine ⟨h.request, Nat.le_trans h.time hnow, h.waiting, ?_⟩
  intro number milliseconds hcall
  exact (h.timedOut number milliseconds hcall).imp_right fun hdue => Nat.le_trans hdue hnow

theorem Hastens.moves (h : dispatch.Hastens timeout now call)
    (hmoves : Call.Moves now timeout call after) : dispatch.Hastens timeout now after := by
  refine ⟨?_, ?_⟩
  · intro hafter
    exact h.spawned (hmoves.watcher.of_spawned hafter)
  · intro deadline hafter
    obtain hbefore | ⟨hbefore, rfl⟩ := hmoves.watcher.of_waiting hafter
    · exact h.waiting deadline hbefore
    · rw [h.spawned hbefore]

theorem Hastens.of_not_spawned (h : dispatch.Hastens timeout now call)
    (hspawned : call.watcher ≠ .spawned) : dispatch.Hastens timeout later call := by
  exact ⟨fun hcall => absurd hcall hspawned, h.waiting⟩

end Dispatch

namespace Session

variable {session initial : Session} {event : Event} {events : List Event}

theorem now_le_step (session : Session) (event : Event) :
    session.now ≤ (session.step event).now := by
  rw [now_step]
  exact Nat.le_add_right _ _

/-- A dispatch is made at the instant of its event, and takes no time. -/
theorem time_of_dispatch? {dispatch : Dispatch} (h : dispatch ∈ session.dispatch? event) :
    dispatch.time = (session.step event).now := by
  rw [now_step]
  cases event with
  | request definition =>
      rw [dispatch?] at h
      split at h
      · rw [← Option.some.inj h]
        rfl
      · contradiction
  | _ => contradiction

theorem settings_run (session : Session) (events : List Event) :
    (session.run events).settings = session.settings := by
  induction events generalizing session with
  | nil => rfl
  | cons event events ih => exact (ih _).trans (session.settings_step event)

/-! ### Runs in which time waits -/

/-- Every event of a run is allowed at its moment. -/
def throughout (allowed : Session → Event → Bool) (session : Session) : List Event → Bool
  | [] => true
  | event :: events => allowed session event && throughout allowed (session.step event) events

/-- Time passes at rest only. -/
def passesAtRest (session : Session) : Event → Bool
  | .advance _ => session.atRest
  | _ => true

/-- Time passes no further than to the next deadline. -/
def passesToDeadline (session : Session) : Event → Bool
  | .advance milliseconds => session.calls.all fun call =>
    call.deadline?.all fun deadline => decide (session.now + milliseconds ≤ deadline)
  | _ => true

theorem throughout_concat {allowed : Session → Event → Bool} :
    session.throughout allowed (events ++ [event]) =
      (session.throughout allowed events && allowed (session.run events) event) := by
  induction events generalizing session with
  | nil => exact Bool.and_true _
  | cons first events ih =>
      rw [List.cons_append, throughout, throughout, ih, Bool.and_assoc]
      rfl

/-- While time passes, no watcher is late to wait. -/
theorem hastens_step {timeout : Nat} {dispatch : Dispatch} {call after : Call}
    (hpasses : session.passesAtRest event) (hcall : call ∈ session.calls)
    (hmoves : Call.Moves session.now timeout call after)
    (h : dispatch.Hastens timeout session.now call) :
    dispatch.Hastens timeout (session.step event).now after := by
  cases event with
  | advance milliseconds =>
      apply (h.moves hmoves).of_not_spawned
      intro hspawned
      exact Call.ready?_ne_none_of_spawned (hmoves.watcher.of_spawned hspawned)
        (ready?_eq_none_of_atRest hpasses hcall)
  | _ =>
      rw [now_step]
      exact h.moves hmoves

/-- Every call of a run is governed by a dispatch of the run, which hastens it if time passes
at rest only. -/
theorem exists_dispatch (hcalls : initial.calls = []) (events : List Event) :
    ∀ call ∈ (initial.run events).calls, ∃ dispatch ∈ initial.dispatches events,
      dispatch.Governs initial.settings.timeout (initial.run events).now call ∧
      (initial.throughout passesAtRest events →
        dispatch.Hastens initial.settings.timeout (initial.run events).now call) := by
  induction events using List.reverseRecOn with
  | nil =>
      intro call hcall
      change call ∈ initial.calls at hcall
      rw [hcalls] at hcall
      contradiction
  | append_singleton events event ih =>
      rw [run_concat, dispatches_concat, throughout_concat, Bool.and_eq_true]
      intro after hafter
      obtain ⟨call, hcall, hmoves⟩ | ⟨dispatch, hdispatch, rfl⟩ := mem_calls_step hafter
      · obtain ⟨dispatch, hdispatch, hgoverns, hhastens⟩ := ih call hcall
        rw [settings_run] at hmoves
        refine ⟨dispatch, List.mem_append_left _ hdispatch,
          (hgoverns.moves hmoves).mono (now_le_step _ event), ?_⟩
        rintro ⟨hpatient, hpasses⟩
        exact hastens_step hpasses hcall hmoves (hhastens hpatient)
      · refine ⟨dispatch, List.mem_append_right _ (Option.mem_toList.2 hdispatch), ?_⟩
        rw [← time_of_dispatch? hdispatch]
        exact ⟨dispatch.governs_call _, fun _ => dispatch.hastens_call _⟩

/-! ### Loading requests -/

section

variable {catalog : Catalog} {settings : Settings} {dispatch : Dispatch} {query : Sql.Query}

theorem request_le_issued (hdispatch : dispatch ∈ (opened catalog settings).dispatches events) :
    dispatch.request ≤ ((opened catalog settings).run events).issued := by
  exact (accounted_run catalog settings events).bounded _
    ((sublist_returned _ events).subset (List.mem_map_of_mem hdispatch))

/-- At rest, a request that is loading is waited for until its deadline. -/
theorem exists_deadline_of_loading (hlive : .close ∉ events)
    (hpatient : (opened catalog settings).throughout passesAtRest events)
    (hdispatch : dispatch ∈ (opened catalog settings).dispatches events)
    (hstate : ((opened catalog settings).run events).state = .loading dispatch.request query)
    (hrest : ((opened catalog settings).run events).atRest) :
    ∃ call ∈ ((opened catalog settings).run events).calls, ∃ deadline,
      call.deadline? = some deadline ∧
      ((opened catalog settings).run events).now < deadline ∧
      deadline ≤ dispatch.time + settings.timeout := by
  have hexpecting : (opened catalog settings).Expecting := nofun
  obtain ⟨call, hcall, hrequest, hpending⟩ :=
    hexpecting.run (orderly_opened catalog settings) hlive _ _ hstate
  obtain ⟨deadline, hwatcher, hdeadline, hlt⟩ :=
    hpending.exists_deadline? (ready?_eq_none_of_atRest hrest hcall)
  obtain ⟨other, hother, hgoverns, hhastens⟩ := exists_dispatch rfl events call hcall
  obtain rfl := List.inj_on_of_nodup_map (nodup_dispatches catalog settings events) hdispatch hother
    (hrequest.symm.trans hgoverns.request)
  exact ⟨call, hcall, deadline, hdeadline, hlt, (hhastens hpatient).waiting deadline hwatcher⟩

/-- If a request was dispatched before an event and is loading after it, then it was loading
before it. -/
theorem loading_of_step (hdispatch : dispatch ∈ (opened catalog settings).dispatches events)
    (hstate : (((opened catalog settings).run events).step event).state =
      .loading dispatch.request query) :
    ((opened catalog settings).run events).state = .loading dispatch.request query := by
  apply ((orderly_opened catalog settings).run events).loading_of_step ?_ hstate
  rintro definition rfl
  have hbegun := begun_request ((opened catalog settings).run events) definition
  rw [show (request _ definition).state = _ from hstate] at hbegun
  have hnumber : dispatch.request = _ := hbegun.number_eq
  have hle := request_le_issued hdispatch
  omega

/-- If time passes no further than to the next deadline, then no request is loading after its
own. -/
theorem now_le_of_loading (hlive : .close ∉ events)
    (hpatient : (opened catalog settings).throughout passesAtRest events)
    (hprompt : (opened catalog settings).throughout passesToDeadline events)
    (hdispatch : dispatch ∈ (opened catalog settings).dispatches events)
    (hstate : ((opened catalog settings).run events).state = .loading dispatch.request query) :
    ((opened catalog settings).run events).now ≤ dispatch.time + settings.timeout := by
  induction events using List.reverseRecOn with
  | nil => contradiction
  | append_singleton events event ih =>
      rw [throughout_concat, Bool.and_eq_true] at hpatient hprompt
      rw [dispatches_concat] at hdispatch
      rw [run_concat] at hstate ⊢
      have hpast : .close ∉ events := fun hmem => hlive (List.mem_append_left _ hmem)
      obtain hearlier | hnew := List.mem_append.1 hdispatch
      · have hbefore := loading_of_step hearlier hstate
        cases event with
        | advance milliseconds =>
            -- The request is waited for, and time does not pass its deadline.
            obtain ⟨call, hcall, deadline, hdeadline, _, hle⟩ :=
              exists_deadline_of_loading hpast hpatient.1 hearlier hbefore hpatient.2
            have hheeds := List.all_eq_true.1 hprompt.2 call hcall
            rw [hdeadline, Option.all_some, decide_eq_true_eq] at hheeds
            exact Nat.le_trans hheeds hle
        | _ =>
            rw [now_step]
            exact ih hpast hpatient.1 hprompt.1 hearlier hbefore
      · rw [← time_of_dispatch? (Option.mem_toList.1 hnew)]
        exact Nat.le_add_right _ _

/-! ### Timeouts that are shown -/

theorem prepare_fst_ne_timeout (session : Session) (definition : Definition) (cap : Sql.RowCap)
    (milliseconds : Nat) : (session.prepare definition cap).1 ≠ .error (.timeout milliseconds) := by
  rw [prepare]
  cases definition.dataset with
  | none => simp
  | some name =>
      cases hdataset : session.catalog name with
      | none => simp [hdataset]
      | some dataset => simp [hdataset]

theorem state_request_ne_timeout (session : Session) (definition : Definition)
    (number milliseconds : Nat) :
    (session.request definition).state ≠ .failed number (.timeout milliseconds) := by
  rw [request_eq]
  cases hresult : (session.copyQuery definition).1 with
  | ok query => nofun
  | error error =>
      intro hstate
      obtain rfl := (State.failed.inj hstate).2
      exact session.prepare_fst_ne_timeout definition _ _ hresult

/-- A timeout that is published is what the watcher of the loading request holds. -/
theorem exists_call_of_timeout {number milliseconds : Nat} (horderly : session.Orderly)
    (h : .failed number (.timeout milliseconds) ∈ session.publications event) :
    (∃ query, session.state = .loading number query) ∧
    ∃ call ∈ session.calls, call.request = number ∧
      call.watcher = .holding (.failed number (.timeout milliseconds)) := by
  by_cases hevent : ∃ definition, event = .request definition
  · obtain ⟨definition, rfl⟩ := hevent
    rw [(session.publishes_request definition).publications] at h
    obtain hfirst | hlast := List.mem_append.1 h
    · split at hfirst
      · cases List.mem_singleton.1 hfirst
      · contradiction
    · exact absurd (List.mem_singleton.1 hlast).symm (session.state_request_ne_timeout _ _ _)
  · obtain hnone | ⟨loading, query, outcome, hstate, hone, hsource⟩ :=
      session.publishes_cases (not_exists.1 hevent)
    · rw [hnone.publications] at h
      contradiction
    · rw [hone.publications, List.mem_singleton] at h
      subst h
      obtain ⟨_, hcancelled⟩ | ⟨_, call, hcall, rfl, hheld⟩ := hsource
      · contradiction
      · obtain rfl : number = call.request := (horderly.holding call hcall _ hheld).number_eq
        exact ⟨⟨query, hstate⟩, call, hcall, rfl, hheld⟩

/-- A run keeps to the timeout of its session. -/
structure TimeBounded (initial : Session) (events : List Event) : Prop where
  /-- All that is due at an instant can happen in it. -/
  rests : ∃ more : List Event, more.all Event.isOwn ∧ (initial.run (events ++ more)).atRest
  /-- As long as the session is not given up and time passes at rest only, a request that is
  loading at rest has not reached its deadline.  If moreover time passes no further than to
  the next deadline, a request that is loading at any moment has not passed its own. -/
  ended : .close ∉ events → initial.throughout passesAtRest events →
    ∀ dispatch ∈ initial.dispatches events, ∀ query,
      (initial.run events).state = .loading dispatch.request query →
      ((initial.run events).atRest →
        (initial.run events).now < dispatch.time + initial.settings.timeout) ∧
      (initial.throughout passesToDeadline events →
        (initial.run events).now ≤ dispatch.time + initial.settings.timeout)
  /-- A timeout that is shown has passed since the dispatch of its request, which is still the
  last one and loading, and has not come to anything before. -/
  entered : ∀ past event future number milliseconds, events = past ++ event :: future →
    .failed number (.timeout milliseconds) ∈ (initial.run past).publications event →
    milliseconds = initial.settings.timeout ∧
    (∃ dispatch ∈ initial.dispatches past, dispatch.request = number ∧
      dispatch.time + initial.settings.timeout ≤ (initial.run past).now) ∧
    (∃ query, (initial.run past).state = .loading number query) ∧
    (initial.run past).issued = number ∧
    ∀ state ∈ initial.shown past, ¬ state.Settled number

theorem timeBounded_run (catalog : Catalog) (settings : Settings) (events : List Event) :
    (opened catalog settings).TimeBounded events := by
  refine ⟨exists_atRest catalog settings events, ?_, ?_⟩
  · intro hlive hpatient dispatch hdispatch query hstate
    refine ⟨?_, ?_⟩
    · intro hrest
      obtain ⟨_, _, deadline, _, hlt, hle⟩ :=
        exists_deadline_of_loading hlive hpatient hdispatch hstate hrest
      exact Nat.lt_of_lt_of_le hlt hle
    · intro hprompt
      exact now_le_of_loading hlive hpatient hprompt hdispatch hstate
  · rintro past event future number milliseconds rfl hshown
    have horderly := (orderly_opened catalog settings).run past
    obtain ⟨⟨query, hstate⟩, call, hcall, hnumber, hheld⟩ :=
      exists_call_of_timeout horderly hshown
    obtain ⟨dispatch, hdispatch, hgoverns, _⟩ := exists_dispatch rfl past call hcall
    obtain ⟨hmilliseconds, hdue⟩ := hgoverns.timedOut _ _ hheld
    refine ⟨hmilliseconds, ⟨dispatch, hdispatch, ?_, hdue⟩, ⟨query, hstate⟩, ?_, ?_⟩
    · rw [← hgoverns.request, hnumber]
    · rw [← horderly.number, hstate]
      rfl
    · have hlast : _ = State.loading number query := (state_run _ past).symm.trans hstate
      intro state hmem
      exact State.not_settled_of_loading ((orderly_opened catalog settings).isChain_shown past)
        hlast state (List.mem_cons_of_mem _ hmem)

/-- A request that is never answered, in a run in which time passes at rest and to its deadline. -/
theorem timeBounded_unanswered :
    let catalog := Catalog.ofList [{ name := "customers" }]
    let initial := opened catalog { timeout := 20 }
    let hanoi : Definition :=
      { name := "Hanoi"
        dataset := some "customers"
        conditions := [.on "city" .equals "Hanoi" ""] }
    let past : List Event := [.request hanoi, .start 1, .watch 1, .advance 20, .expire 1]
    let events := past ++ [.commit 1]
    .close ∉ events ∧ initial.throughout passesAtRest events ∧
      initial.throughout passesToDeadline events ∧
      (initial.dispatches events).map Dispatch.request = [1] ∧
      (initial.run past).publications (.commit 1) = [.failed 1 (.timeout 20)] ∧
      initial.TimeBounded events := by
  intro catalog initial hanoi past events
  have hlive : .close ∉ events := by
    simp [events, past]
  have hpatient : initial.throughout passesAtRest events := by
    decide +kernel
  have hprompt : initial.throughout passesToDeadline events := by
    decide +kernel
  exact ⟨hlive, hpatient, hprompt, by decide +kernel, rfl, timeBounded_run _ _ events⟩

end

end Session

end Segmentation.Preview
