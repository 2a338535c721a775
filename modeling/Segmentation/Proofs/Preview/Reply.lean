import Segmentation.Proofs.Preview.Expectation
import Segmentation.Proofs.Preview.Unobserved
import Segmentation.Proofs.Table

/-!
# What becomes of replies

The executor replies to a call at most once, and the reply stays with the call.  A number is
given to one request only, so the reply to a request, its timeout and its cancellation are all
that can end it.  The main statement is that a table shows the first rows of the reply to its
own request, a hundred of them at most, under the keys of just these rows, and that a preview
is shown to be empty for an empty list of rows and for nothing else.
-/

namespace Segmentation.Preview

/-! ### Replies stay -/

/-- A call after an event is the same call and is as far with the executor. -/
structure Call.Stays (call after : Call) : Prop where
  request : after.request = call.request
  query : after.query = call.query
  phase : after.phase = call.phase

namespace Call

variable {call : Call} {now timeout : Nat}

theorem stays_self (call : Call) : call.Stays call := by
  exact ⟨rfl, rfl, rfl⟩

theorem stays_abort (call : Call) : call.Stays call.abort := by
  exact ⟨rfl, rfl, rfl⟩

/-- An answered call is not received again. -/
theorem stays_start (h : call.isAnswered) : call.Stays call.start := by
  rw [start]
  split
  · next hqueued =>
      rw [isAnswered] at h
      rw [isQueued] at hqueued
      grind
  · exact call.stays_self

/-- An answered call is not answered again. -/
theorem stays_answer (h : call.isAnswered) (reply : Reply) : call.Stays (call.answer reply) := by
  rw [answer]
  split
  · next hrunning =>
      rw [isAnswered] at h
      rw [isRunning] at hrunning
      grind
  · exact call.stays_self

theorem stays_watch (call : Call) : call.Stays (call.watch now timeout) := by
  rw [watch]
  split <;> exact ⟨rfl, rfl, rfl⟩

theorem stays_notice (call : Call) : call.Stays call.notice := by
  rw [notice]
  split
  · exact ⟨rfl, rfl, rfl⟩
  · split <;> exact ⟨rfl, rfl, rfl⟩
  · exact call.stays_self

theorem stays_expire (call : Call) : call.Stays (call.expire now timeout) := by
  rw [expire]
  split
  · split <;> exact ⟨rfl, rfl, rfl⟩
  · exact call.stays_self

theorem stays_finish (call : Call) : call.Stays call.finish := by
  rw [finish]
  split <;> exact ⟨rfl, rfl, rfl⟩

end Call

namespace Session

variable {session initial : Session} {event : Event} {events : List Event} {number : Nat}
  {query : Sql.Query} {reply : Reply}

theorem exists_stays_onCall {call : Call} (hcall : call ∈ session.calls) (number : Nat)
    {change : Call → Call} (hchange : call.Stays (change call)) :
    ∃ after ∈ (session.onCall number change).calls, call.Stays after := by
  refine ⟨_, List.mem_map.2 ⟨call, hcall, rfl⟩, ?_⟩
  split
  · exact hchange
  · exact call.stays_self

theorem exists_stays_abandoned {call : Call} (hcall : call ∈ session.calls) :
    ∃ after ∈ session.abandoned, call.Stays after := by
  refine ⟨_, List.mem_map.2 ⟨call, hcall, rfl⟩, ?_⟩
  split
  · exact call.stays_abort
  · exact call.stays_self

/-- An answered call stays answered, whatever happens. -/
theorem exists_stays_step {call : Call} (hcall : call ∈ session.calls) (h : call.isAnswered)
    (event : Event) : ∃ after ∈ (session.step event).calls, call.Stays after := by
  cases event with
  | request definition =>
      obtain ⟨after, hafter, hstays⟩ := exists_stays_abandoned hcall
      rw [step, request_eq]
      split
      · exact ⟨after, hafter, hstays⟩
      · exact ⟨after, List.mem_append_left _ hafter, hstays⟩
  | cancel =>
      rw [step, supersede_eq]
      exact exists_stays_abandoned hcall
  | close =>
      rw [step, abortInFlight_eq]
      exact exists_stays_abandoned hcall
  | copy definition =>
      rw [step, copyQuery, prepare_snd]
      exact ⟨call, hcall, call.stays_self⟩
  | materialize definition =>
      rw [step, materializeQuery, prepare_snd]
      exact ⟨call, hcall, call.stays_self⟩
  | start number => exact exists_stays_onCall hcall number (Call.stays_start h)
  | answer number reply => exact exists_stays_onCall hcall number (Call.stays_answer h reply)
  | watch number => exact exists_stays_onCall hcall number call.stays_watch
  | notice number => exact exists_stays_onCall hcall number call.stays_notice
  | expire number => exact exists_stays_onCall hcall number call.stays_expire
  | commit number =>
      obtain ⟨_, _, _, _, _, _, _, hcommit⟩ | hcommit | hcommit := commit_cases session number
      · rw [step, hcommit]
        exact exists_stays_onCall hcall number call.stays_finish
      · rw [step, hcommit]
        exact exists_stays_onCall hcall number call.stays_finish
      · rw [step, hcommit]
        exact ⟨call, hcall, call.stays_self⟩
  | advance milliseconds => exact ⟨call, hcall, call.stays_self⟩

/-- The call of a request that was answered in this way. -/
def HasReply (session : Session) (number : Nat) (query : Sql.Query) (reply : Reply) : Prop :=
  ∃ call ∈ session.calls, call.request = number ∧ call.query = query ∧
    call.phase = .answered reply

theorem HasReply.step (h : session.HasReply number query reply) (event : Event) :
    (session.step event).HasReply number query reply := by
  obtain ⟨call, hcall, rfl, rfl, hphase⟩ := h
  have hanswered : call.isAnswered := by
    rw [Call.isAnswered, hphase]
  obtain ⟨after, hafter, hstays⟩ := exists_stays_step hcall hanswered event
  exact ⟨after, hafter, hstays.request, hstays.query, hstays.phase.trans hphase⟩

theorem HasReply.run (h : session.HasReply number query reply) (events : List Event) :
    (session.run events).HasReply number query reply := by
  induction events generalizing session with
  | nil => exact h
  | cons event events ih => exact ih (h.step event)

end Session

open Session

variable {initial : Session} {events : List Event} {number : Nat} {query other : Sql.Query}
  {reply late : Reply}

/-- What the executor replied is found at the call for the rest of the run. -/
theorem Replied.hasReply (h : Replied initial events number query reply) :
    (initial.run events).HasReply number query reply := by
  obtain ⟨past, future, rfl, call, hcall, rfl, rfl, hrunning⟩ := h
  have hnow : ((initial.run past).step (.answer call.request reply)).HasReply call.request
      call.query reply := by
    refine ⟨_, List.mem_map.2 ⟨call, hcall, if_pos rfl⟩, ?_⟩
    rw [Call.answer, if_pos hrunning]
    exact ⟨rfl, rfl, rfl⟩
  rw [run_append]
  exact hnow.run future

section

variable {catalog : Catalog} {settings : Settings}

/-- The call of a request is the one that was replied to. -/
theorem Replied.query_and_phase_eq
    (h : Replied (opened catalog settings) events number query reply) {call : Call}
    (hcall : call ∈ ((opened catalog settings).run events).calls)
    (hnumber : call.request = number) : call.query = query ∧ call.phase = .answered reply := by
  obtain ⟨same, hsame, hnumber', hquery, hphase⟩ := h.hasReply
  have hcalls : call = same := by
    apply List.inj_on_of_nodup_map (nodup_calls_run catalog settings events) hcall hsame
    rw [hnumber, hnumber']
  rw [hcalls]
  exact ⟨hquery, hphase⟩

/-- The executor replies to a request once. -/
theorem Replied.unique (h : Replied (opened catalog settings) events number query reply)
    (hlate : Replied (opened catalog settings) events number other late) :
    query = other ∧ reply = late := by
  obtain ⟨call, hcall, hnumber, rfl, hphase⟩ := h.hasReply
  obtain ⟨hquery, hphase'⟩ := hlate.query_and_phase_eq hcall hnumber
  exact ⟨hquery, Phase.answered.inj (hphase.symm.trans hphase')⟩

/-! ### Numbers are given once -/

theorem issued_le_step (session : Session) (event : Event) :
    session.issued ≤ (session.step event).issued := by
  by_cases hevent : ∃ definition, event = .request definition
  · obtain ⟨definition, rfl⟩ := hevent
    rw [Session.step, issued_request]
    exact Nat.le_succ _
  · rw [session.step_frame (not_exists.1 hevent)]

theorem issued_le_run (session : Session) (events : List Event) :
    session.issued ≤ (session.run events).issued := by
  induction events generalizing session with
  | nil => exact Nat.le_refl _
  | cons event events ih =>
      calc session.issued
          ≤ (session.step event).issued := issued_le_step session event
        _ ≤ ((session.step event).run events).issued := ih _

/-- A request that is made later returns a higher number. -/
theorem issued_lt_of_later (initial : Session) (past between : List Event)
    (earlier later : Definition) :
    ((initial.run past).request earlier).issued <
      ((initial.run (past ++ .request earlier :: between)).request later).issued := by
  rw [issued_request _ later, List.append_cons, run_append, run_concat]
  exact Nat.lt_succ_of_le (issued_le_run _ between)

/-- Two requests of a run that return the same number are one and the same. -/
theorem past_eq_of_issued_eq {past past' future future' : List Event}
    {definition definition' : Definition}
    (hsplit : past ++ .request definition :: future = past' ++ .request definition' :: future')
    (hbefore : past <+: past')
    (hissued : ((initial.run past).request definition).issued =
      ((initial.run past').request definition').issued) :
    past = past' ∧ definition = definition' := by
  obtain ⟨between, rfl⟩ := hbefore
  rw [List.append_assoc, List.append_cancel_left_eq] at hsplit
  cases between with
  | nil =>
      obtain ⟨hevent, _⟩ := List.cons.inj hsplit
      exact ⟨(List.append_nil past).symm, Event.request.inj hevent⟩
  | cons event between =>
      obtain ⟨rfl, _⟩ := List.cons.inj hsplit
      have hlt := issued_lt_of_later initial past between definition definition'
      exact absurd hissued (Nat.ne_of_lt hlt)

/-- A request is prepared once. -/
theorem Prepared.unique {result again : Except Error Sql.Query}
    (h : Prepared initial events number result) (hagain : Prepared initial events number again) :
    result = again := by
  obtain ⟨definition, past, future, rfl, hissued, rfl⟩ := h
  obtain ⟨definition', past', future', hsplit, hissued', rfl⟩ := hagain
  have hsame := hissued.trans hissued'.symm
  obtain hbefore | hbefore := List.prefix_or_prefix_of_prefix
    (List.prefix_append past (.request definition :: future))
    (hsplit ▸ List.prefix_append past' (.request definition' :: future'))
  · obtain ⟨rfl, rfl⟩ := past_eq_of_issued_eq hsplit hbefore hsame
    rfl
  · obtain ⟨rfl, rfl⟩ := past_eq_of_issued_eq hsplit.symm hbefore hsame.symm
    rfl

/-! ### What a reply leads to -/

/-- The executor replies to the query that its request was prepared with. -/
theorem Replied.prepared (h : Replied (opened catalog settings) events number query reply) :
    Prepared (opened catalog settings) events number (.ok query) := by
  obtain ⟨call, hcall, rfl, rfl, _⟩ := h.hasReply
  exact ((accounted_run catalog settings events).calls call hcall).prepared

/-- After the reply to a request, its number stands in the state for the query that is loading,
for a cancellation, for a timeout or for what the reply leads to. -/
theorem Replied.state_cases (h : Replied (opened catalog settings) events number query reply)
    (hnumber : ((opened catalog settings).run events).state.request? = some number) :
    ((opened catalog settings).run events).state = .loading number query ∨
    ((opened catalog settings).run events).state = .cancelled number ∨
    ((opened catalog settings).run events).state = .failed number (.timeout settings.timeout) ∧
      TimedOut (opened catalog settings) events number ∨
    ((opened catalog settings).run events).state = .ofReply number query reply := by
  obtain hcancelled | horigin := (accounted_run catalog settings events).shown number hnumber
  · exact .inr (.inl hcancelled)
  · generalize ((opened catalog settings).run events).state = state at horigin
    cases horigin with
    | prepared hloading =>
        have hsame := Except.ok.inj (hloading.unique h.prepared)
        exact .inl (by rw [hsame])
    | refused herror => exact absurd (herror.unique h.prepared) (by simp)
    | timedOut _ htimeout => exact .inr (.inr (.inl ⟨rfl, htimeout⟩))
    | replied _ hreply =>
        obtain ⟨rfl, rfl⟩ := h.unique hreply
        exact .inr (.inr (.inr rfl))

/-- At rest an answered request is no longer loading, as long as the session is kept. -/
theorem Replied.not_loading (h : Replied (opened catalog settings) events number query reply)
    (hlive : .close ∉ events) (hrest : ((opened catalog settings).run events).atRest) :
    ((opened catalog settings).run events).state ≠ .loading number other := by
  intro hstate
  have hexpecting : (opened catalog settings).Expecting := nofun
  obtain ⟨call, hcall, hrequest, hpending⟩ :=
    hexpecting.run (orderly_opened catalog settings) hlive _ _ hstate
  obtain ⟨deadline, _, hdeadline, _⟩ :=
    hpending.exists_deadline? (ready?_eq_none_of_atRest hrest hcall)
  have hanswered : call.isAnswered := by
    rw [Call.isAnswered, (h.query_and_phase_eq hcall hrequest).2]
  rw [Call.deadline?] at hdeadline
  grind

/-- The query of a request has the limit of a preview, as long as no digests of the keys of the
run collide. -/
theorem Prepared.limit_eq
    (h : Prepared (opened catalog settings) events number (.ok query))
    (hapart : CacheKey.NoCollision (runKeys catalog settings events)) : query.limit = 100 := by
  obtain ⟨definition, past, future, rfl, _, hcopy⟩ := h
  have hserves := serves_run (List.subset_append_left past _) hapart
  have hdirect : directQuery catalog settings definition .preview = .ok query := by
    rw [← hcopy]
    symm
    apply hserves.prepare_fst
    intro key hkey
    have hmem : Event.request definition ∈ past ++ .request definition :: future :=
      List.mem_append_right past List.mem_cons_self
    exact key?_mem_runKeys hmem hkey
  rw [directQuery] at hdirect
  split at hdirect
  · contradiction
  · split at hdirect
    · contradiction
    · obtain rfl := Except.ok.inj hdirect
      rfl

/-! ### Rows -/

/-- Rows lead to a table of the first of them if there are any. -/
theorem State.ofRows_of_ne_nil {rows : List Row} {limit : UInt32} (number : Nat)
    (hlimit : limit ≠ 0) (hrows : rows ≠ []) :
    State.ofRows number limit rows = .loaded number (Table.ofRows (rows.take limit.toNat)) := by
  rw [State.ofRows]
  split
  · next hnone =>
      have hzero : limit.toNat = 0 := (List.take_eq_nil_iff.1 hnone).resolve_right hrows
      exact absurd (UInt32.toNat_inj.1 hzero) hlimit
  · next row rest hsome => rw [hsome]

theorem State.ofRows_nil (number : Nat) (limit : UInt32) :
    State.ofRows number limit [] = .empty number := by
  rw [State.ofRows, List.take_nil]

/-- What a run shows of the rows that the executor gives. -/
structure ShowsRows (initial : Session) (events : List Event) : Prop where
  /-- A table is that of the reply to its own request. -/
  loaded : ∀ number table, (initial.run events).state = .loaded number table →
    ∃ query rows, Replied initial events number query (.rows rows) ∧ rows ≠ [] ∧
      table.ShowsFirst 100 rows
  /-- A preview that is shown to be empty was replied to with no rows. -/
  empty : ∀ number, (initial.run events).state = .empty number →
    ∃ query, Replied initial events number query (.rows [])
  /-- There is one reply to a request at most. -/
  once : ∀ number query other reply late, Replied initial events number query reply →
    Replied initial events number other late → query = other ∧ reply = late
  /-- When nothing is left to happen, the rows that were given for the last request are shown,
  unless they came after its cancellation or its timeout. -/
  reached : .close ∉ events → (initial.run events).atRest → ∀ number query rows,
    Replied initial events number query (.rows rows) →
    (initial.run events).state.request? = some number →
    (initial.run events).state = .cancelled number ∨
    (initial.run events).state = .failed number (.timeout initial.settings.timeout) ∧
      TimedOut initial events number ∨
    rows = [] ∧ (initial.run events).state = .empty number ∨
    rows ≠ [] ∧ ∃ table, (initial.run events).state = .loaded number table

/-- A state that shows rows, or that there are none, shows the reply to its own request. -/
theorem exists_replied_of_state {state : State}
    (hapart : CacheKey.NoCollision (runKeys catalog settings events))
    (hstate : ((opened catalog settings).run events).state = state)
    (hshows : state = .empty number ∨ ∃ table, state = .loaded number table) :
    ∃ query rows, Replied (opened catalog settings) events number query (.rows rows) ∧
      state = .ofRows number 100 rows := by
  have hnumber : ((opened catalog settings).run events).state.request? = some number := by
    rw [hstate]
    obtain rfl | ⟨table, rfl⟩ := hshows <;> rfl
  obtain hcancelled | horigin := (accounted_run catalog settings events).shown number hnumber
  · rw [hstate] at hcancelled
    grind
  · rw [hstate] at horigin
    cases horigin with
    | prepared hloading => grind
    | refused herror => grind
    | timedOut _ htimeout => grind
    | @replied query reply hprepared hreply =>
        cases reply with
        | rows rows =>
            refine ⟨query, rows, hreply, ?_⟩
            rw [State.ofReply, hprepared.limit_eq hapart]
        | failed error => simp [State.ofReply] at hshows
        | broken => simp [State.ofReply] at hshows

/-- As long as no digests of its keys collide, a run shows the rows that the executor gives. -/
theorem showsRows_run (catalog : Catalog) (settings : Settings) (events : List Event)
    (hapart : CacheKey.NoCollision (runKeys catalog settings events)) :
    ShowsRows (opened catalog settings) events := by
  have hlimit : (100 : UInt32) ≠ 0 := by
    decide
  refine ⟨?_, ?_, ?_, ?_⟩
  · intro number table hstate
    obtain ⟨query, rows, hreply, hrows⟩ :=
      exists_replied_of_state hapart hstate (.inr ⟨table, rfl⟩)
    have hne : rows ≠ [] := by
      rintro rfl
      rw [State.ofRows_nil] at hrows
      contradiction
    rw [State.ofRows_of_ne_nil number hlimit hne] at hrows
    obtain ⟨_, rfl⟩ := State.loaded.inj hrows
    exact ⟨query, rows, hreply, hne, Table.showsFirst_ofRows 100 rows⟩
  · intro number hstate
    obtain ⟨query, rows, hreply, hrows⟩ := exists_replied_of_state hapart hstate (.inl rfl)
    obtain rfl : rows = [] := by
      by_contra hne
      rw [State.ofRows_of_ne_nil number hlimit hne] at hrows
      contradiction
    exact ⟨query, hreply⟩
  · intro number query other reply late hreply hlate
    exact hreply.unique hlate
  · intro hlive hrest number query rows hreply hnumber
    obtain hloading | hcancelled | htimeout | hshown := hreply.state_cases hnumber
    · exact absurd hloading (hreply.not_loading hlive hrest)
    · exact .inl hcancelled
    · exact .inr (.inl htimeout)
    · rw [State.ofReply, hreply.prepared.limit_eq hapart] at hshown
      by_cases hne : rows = []
      · rw [hne, State.ofRows_nil] at hshown
        exact .inr (.inr (.inl ⟨hne, hshown⟩))
      · rw [State.ofRows_of_ne_nil number hlimit hne] at hshown
        exact .inr (.inr (.inr ⟨hne, _, hshown⟩))

/-- An executor that gives more rows than it should. -/
theorem showsRows_oversized :
    let catalog := Catalog.ofList [{ name := "customers" }]
    let hanoi : Definition :=
      { name := "Hanoi"
        dataset := some "customers"
        conditions := [.on "city" .equals "Hanoi" ""] }
    let rows : List Row := List.replicate 101 [("city", .string "Hanoi")]
    let events : List Event :=
      [.request hanoi, .start 1, .watch 1, .answer 1 (.rows rows), .notice 1, .commit 1]
    CacheKey.NoCollision (runKeys catalog {} events) ∧
      (match ((opened catalog {}).run events).state with
        | .loaded 1 table => table.rows.length
        | _ => 0) = 100 ∧
      ShowsRows (opened catalog {}) events := by
  intro catalog hanoi rows events
  have hapart : CacheKey.NoCollision (runKeys catalog {} events) := by
    decide +kernel
  exact ⟨hapart, by decide +kernel, showsRows_run catalog {} events hapart⟩

end

end Segmentation.Preview
