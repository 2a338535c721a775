import Segmentation.Proofs.Cache.Faithful
import Segmentation.Proofs.Preview.LastRequest

/-!
# The cache of a session is not observed

A session compiles through its cache, and operations that only compile a query
write to the cache as well.  A run is therefore compared with itself after its cache
is forgotten: as long as no digests of its keys collide, every query it gives is the
one compiled directly, and two runs that differ in such operations alone show the
same of all others.
-/

namespace Segmentation.Preview

/-- The query of a definition without a cache. -/
def directQuery (catalog : Catalog) (settings : Settings) (definition : Definition)
    (cap : Sql.RowCap) : Except Error Sql.Query :=
  match definition.dataset with
  | none => .error .noDataset
  | some name =>
    match catalog name with
    | none => .error (.unknownDataset name)
    | some dataset => .ok (definition.toQuery dataset settings cap)

/-- The key of that query, if the dataset is found. -/
def directKey? (catalog : Catalog) (settings : Settings) (definition : Definition)
    (cap : Sql.RowCap) : Option CacheKey :=
  definition.dataset.bind fun name =>
    (catalog name).map fun dataset => .of dataset definition settings cap

namespace Event

/-- Whether an event compiles a query and does nothing else. -/
def onlyCompiles : Event → Bool
  | .copy _ | .materialize _ => true
  | _ => false

/-- The key that is looked up at an event. -/
def key? (catalog : Catalog) (settings : Settings) : Event → Option CacheKey
  | .request definition | .copy definition => directKey? catalog settings definition .preview
  | .materialize definition =>
    directKey? catalog settings definition (.materialize settings.effectiveMaterializeLimit)
  | _ => none

end Event

/-- The keys that are looked up in a run. -/
def runKeys (catalog : Catalog) (settings : Settings) (events : List Event) : List CacheKey :=
  events.filterMap (Event.key? catalog settings)

/-- What an event gives back to the caller. -/
inductive Answer
  | number (request : Nat)
  | query (result : Except Error Sql.Query)
  | nothing

namespace Session

/-- A session but for its cache. -/
def withoutCache (session : Session) : Session :=
  { session with cache := {} }

def answer (session : Session) : Event → Answer
  | .request definition => .number (session.request definition).issued
  | .copy definition => .query (session.copyQuery definition).1
  | .materialize definition => .query (session.materializeQuery definition).1
  | _ => .nothing

/-- What is seen of a run: every event with its answer and the session after it. -/
def observe (session : Session) : List Event → List (Event × Answer × Session)
  | [] => []
  | event :: events =>
    (event, session.answer event, (session.step event).withoutCache)
      :: (session.step event).observe events

/-! ### Serving the keys of a run -/

/-- A session whose cache serves some keys. -/
structure Serves (catalog : Catalog) (settings : Settings) (keys : List CacheKey)
    (session : Session) : Prop where
  catalog : session.catalog = catalog
  settings : session.settings = settings
  cache : session.cache.Faithful keys
  apart : CacheKey.NoCollision keys

section

variable {catalog : Catalog} {settings : Settings} {keys : List CacheKey} {session : Session}
  {definition : Definition} {cap : Sql.RowCap} {event : Event}

theorem Serves.withoutCache (h : session.Serves catalog settings keys) :
    session.withoutCache.Serves catalog settings keys := by
  exact ⟨h.catalog, h.settings, QueryCache.faithful_of_entries_eq_nil rfl, h.apart⟩

@[simp]
theorem withoutCache_prepare (session : Session) (definition : Definition) (cap : Sql.RowCap) :
    (session.prepare definition cap).2.withoutCache = session.withoutCache := by
  rw [prepare_snd]
  rfl

@[simp]
theorem withoutCache_withoutCache (session : Session) :
    session.withoutCache.withoutCache = session.withoutCache := by
  rfl

theorem withoutCache_commit (session : Session) (number : Nat) :
    (session.commit number).withoutCache = (session.withoutCache.commit number).withoutCache := by
  have hcalls : session.withoutCache.calls = session.calls := rfl
  rw [commit, commit, hcalls]
  cases (session.calls.find? fun call => call.request == number).bind Call.held? with
  | none => rfl
  | some outcome =>
      cases hstate : session.state with
      | loading current query =>
          by_cases hcurrent : current = number <;>
            simp [onCall, withoutCache, hstate, hcurrent, publish]
      | _ => simp [onCall, withoutCache, hstate]

theorem Serves.prepare_fst (h : session.Serves catalog settings keys)
    (hkey : ∀ key, directKey? catalog settings definition cap = some key → key ∈ keys) :
    (session.prepare definition cap).1 = directQuery catalog settings definition cap := by
  rw [prepare, directQuery]
  rw [directKey?] at hkey
  cases hname : definition.dataset with
  | none => rfl
  | some name =>
      rw [hname] at hkey
      rw [h.catalog]
      cases hdataset : catalog name with
      | none => simp only [hdataset]
      | some dataset =>
          simp only [hdataset, h.settings]
          rw [h.cache.fetch_fst h.apart]
          exact hkey _ (by simp [hdataset])

theorem Serves.prepare_snd (h : session.Serves catalog settings keys)
    (hkey : ∀ key, directKey? catalog settings definition cap = some key → key ∈ keys) :
    (session.prepare definition cap).2.Serves catalog settings keys := by
  rw [prepare]
  rw [directKey?] at hkey
  cases hname : definition.dataset with
  | none => exact h
  | some name =>
      rw [hname] at hkey
      rw [h.catalog]
      cases hdataset : catalog name with
      | none =>
          simp only [hdataset]
          exact h
      | some dataset =>
          simp only [hdataset, h.settings]
          refine ⟨rfl, rfl, h.cache.fetch_snd ?_, h.apart⟩
          exact hkey _ (by simp [hdataset])

/-- An event keeps a session serving the keys to which that of the event belongs. -/
theorem Serves.step (h : session.Serves catalog settings keys)
    (hkey : ∀ key, event.key? catalog settings = some key → key ∈ keys) :
    (session.step event).Serves catalog settings keys := by
  have hcommit : ∀ number, (session.commit number).Serves catalog settings keys := by
    intro number
    obtain ⟨_, _, _, _, _, _, _, hcommit⟩ | hcommit | hcommit := commit_cases session number <;>
      rw [hcommit] <;> exact ⟨h.catalog, h.settings, h.cache, h.apart⟩
  cases event with
  | request definition =>
      have hprepared := h.prepare_snd hkey
      rw [Session.step, request_eq]
      split <;> exact ⟨h.catalog, h.settings, hprepared.cache, h.apart⟩
  | copy definition => exact h.prepare_snd hkey
  | materialize definition =>
      rw [Session.step, materializeQuery, h.settings]
      exact h.prepare_snd hkey
  | cancel =>
      rw [Session.step, supersede_eq]
      exact ⟨h.catalog, h.settings, h.cache, h.apart⟩
  | close =>
      rw [Session.step, abortInFlight_eq]
      exact ⟨h.catalog, h.settings, h.cache, h.apart⟩
  | commit number => exact hcommit number
  | _ => exact ⟨h.catalog, h.settings, h.cache, h.apart⟩

theorem key?_mem_runKeys {events : List Event} (hevent : event ∈ events) {key : CacheKey}
    (hkey : event.key? catalog settings = some key) : key ∈ runKeys catalog settings events := by
  exact List.mem_filterMap.2 ⟨event, hevent, hkey⟩

theorem runKeys_subset {events others : List Event} (h : others ⊆ events) :
    runKeys catalog settings others ⊆ runKeys catalog settings events := by
  intro key hkey
  obtain ⟨event, hevent, hkey⟩ := List.mem_filterMap.1 hkey
  exact key?_mem_runKeys (h hevent) hkey

theorem Serves.run {events : List Event} (h : session.Serves catalog settings keys)
    (hkeys : runKeys catalog settings events ⊆ keys) :
    (session.run events).Serves catalog settings keys := by
  induction events generalizing session with
  | nil => exact h
  | cons event events ih =>
      apply ih (h.step ?_)
      · exact List.Subset.trans (runKeys_subset (List.subset_cons_self event events)) hkeys
      · intro key hkey
        exact hkeys (key?_mem_runKeys List.mem_cons_self hkey)

theorem Serves.opened (hapart : CacheKey.NoCollision keys) :
    (opened catalog settings).Serves catalog settings keys := by
  exact ⟨rfl, rfl, QueryCache.faithful_of_entries_eq_nil rfl, hapart⟩

/-- At any moment of a run, the cache serves the keys of the whole run. -/
theorem serves_run {past events : List Event} (hpast : past ⊆ events)
    (hapart : CacheKey.NoCollision (runKeys catalog settings events)) :
    ((Session.opened catalog settings).run past).Serves catalog settings
      (runKeys catalog settings events) := by
  apply (Serves.opened hapart).run
  exact runKeys_subset hpast

/-! ### Forgetting the cache -/

/-- What an event does to the rest of a session does not depend on the cache. -/
theorem Serves.withoutCache_step (h : session.Serves catalog settings keys)
    (hkey : ∀ key, event.key? catalog settings = some key → key ∈ keys) :
    (session.step event).withoutCache = (session.withoutCache.step event).withoutCache := by
  cases event with
  | request definition =>
      have hsame : (session.withoutCache.copyQuery definition).1 =
          (session.copyQuery definition).1 :=
        (h.withoutCache.prepare_fst hkey).trans (h.prepare_fst hkey).symm
      rw [Session.step, Session.step, request_eq, request_eq, hsame]
      rw [supersede_eq, supersede_eq]
      cases (session.copyQuery definition).1 <;> rfl
  | copy definition => simp [Session.step, copyQuery]
  | materialize definition => simp [Session.step, materializeQuery]
  | cancel =>
      rw [Session.step, Session.step, supersede_eq, supersede_eq]
      rfl
  | close =>
      rw [Session.step, Session.step, abortInFlight_eq, abortInFlight_eq]
      rfl
  | commit number => exact withoutCache_commit session number
  | _ => rfl

/-! ### Answers -/

variable {left right : Session} {events : List Event}

/-- Sessions that differ in their caches only give the same answers. -/
theorem answer_eq_answer (hleft : left.Serves catalog settings keys)
    (hright : right.Serves catalog settings keys) (hsame : left.withoutCache = right.withoutCache)
    (hkey : ∀ key, event.key? catalog settings = some key → key ∈ keys) :
    left.answer event = right.answer event := by
  cases event with
  | request definition =>
      have hissued : left.issued = right.issued :=
        (congrArg issued hsame : left.withoutCache.issued = right.withoutCache.issued)
      rw [answer, answer, issued_request, issued_request, hissued]
  | copy definition =>
      rw [answer, answer, copyQuery, copyQuery, hleft.prepare_fst hkey, hright.prepare_fst hkey]
  | materialize definition =>
      rw [answer, answer, materializeQuery, materializeQuery, hleft.settings, hright.settings,
        hleft.prepare_fst hkey, hright.prepare_fst hkey]
  | _ => rfl

theorem observe_eq_observe (hleft : left.Serves catalog settings keys)
    (hright : right.Serves catalog settings keys) (hsame : left.withoutCache = right.withoutCache)
    (hkeys : runKeys catalog settings events ⊆ keys) :
    left.observe events = right.observe events := by
  induction events generalizing left right with
  | nil => rfl
  | cons event events ih =>
      have hkey : ∀ key, event.key? catalog settings = some key → key ∈ keys := by
        intro key hkey
        exact hkeys (key?_mem_runKeys List.mem_cons_self hkey)
      have hstep : (left.step event).withoutCache = (right.step event).withoutCache := by
        rw [hleft.withoutCache_step hkey, hright.withoutCache_step hkey, hsame]
      have hrest : runKeys catalog settings events ⊆ keys :=
        List.Subset.trans (runKeys_subset (List.subset_cons_self event events)) hkeys
      rw [observe, observe, answer_eq_answer hleft hright hsame hkey, hstep,
        ih (hleft.step hkey) (hright.step hkey) hstep hrest]

/-- An event that only compiles leaves all but the cache as it is. -/
theorem withoutCache_step_of_onlyCompiles (h : event.onlyCompiles) :
    (session.step event).withoutCache = session.withoutCache := by
  cases event with
  | copy definition => exact withoutCache_prepare session definition _
  | materialize definition => exact withoutCache_prepare session definition _
  | _ => contradiction

/-- Without the events that only compile, a run shows the same of all others. -/
theorem filter_observe (h : session.Serves catalog settings keys)
    (hkeys : runKeys catalog settings events ⊆ keys) :
    (session.observe events).filter (fun seen => !seen.1.onlyCompiles) =
      session.observe (events.filter fun event => !event.onlyCompiles) := by
  induction events generalizing session with
  | nil => rfl
  | cons event events ih =>
      have hkey : ∀ key, event.key? catalog settings = some key → key ∈ keys := by
        intro key hkey
        exact hkeys (key?_mem_runKeys List.mem_cons_self hkey)
      have hrest : runKeys catalog settings events ⊆ keys :=
        List.Subset.trans (runKeys_subset (List.subset_cons_self event events)) hkeys
      rw [observe]
      by_cases honly : event.onlyCompiles
      · rw [List.filter_cons_of_neg (by simpa using honly),
          List.filter_cons_of_neg (by simpa using honly), ih (h.step hkey) hrest]
        apply observe_eq_observe (h.step hkey) h (withoutCache_step_of_onlyCompiles honly)
        exact List.Subset.trans (runKeys_subset List.filter_sublist.subset) hrest
      · rw [List.filter_cons_of_pos (by simpa using honly),
          List.filter_cons_of_pos (by simpa using honly), ih (h.step hkey) hrest, observe]

/-- What an operation of the caller gives, told by direct compilation.  A request shows, keeps
and calls the compiled query, or shows why there is none and calls nothing; an operation that
only compiles leaves all but the cache as it is. -/
def AnswersDirectly (catalog : Catalog) (settings : Settings) (session : Session) : Event → Prop
  | .request definition =>
    match directQuery catalog settings definition .preview with
    | .ok query =>
      (session.request definition).state = .loading (session.issued + 1) query ∧
      (session.request definition).lastQuery = some query ∧
      (session.request definition).calls =
        session.abandoned ++ [{ request := session.issued + 1, query }]
    | .error error =>
      (session.request definition).state = .failed (session.issued + 1) error ∧
      (session.request definition).lastQuery = session.lastQuery ∧
      (session.request definition).calls = session.abandoned
  | .copy definition =>
    (session.copyQuery definition).1 = directQuery catalog settings definition .preview ∧
    (session.copyQuery definition).2.withoutCache = session.withoutCache
  | .materialize definition =>
    (session.materializeQuery definition).1 =
      directQuery catalog settings definition (.materialize settings.effectiveMaterializeLimit) ∧
    (session.materializeQuery definition).2.withoutCache = session.withoutCache
  | _ => True

theorem Serves.answersDirectly (h : session.Serves catalog settings keys)
    (hkey : ∀ key, event.key? catalog settings = some key → key ∈ keys) :
    session.AnswersDirectly catalog settings event := by
  cases event with
  | request definition =>
      have hcopy : (session.copyQuery definition).1 =
          directQuery catalog settings definition .preview := h.prepare_fst hkey
      rw [AnswersDirectly, request_eq, hcopy]
      cases directQuery catalog settings definition .preview <;> exact ⟨rfl, rfl, rfl⟩
  | copy definition => exact ⟨h.prepare_fst hkey, withoutCache_prepare session definition _⟩
  | materialize definition =>
      refine ⟨?_, withoutCache_prepare session definition _⟩
      rw [materializeQuery, h.settings]
      exact h.prepare_fst hkey
  | _ => trivial

end

/-! ### Runs -/

/-- What a run shows does not depend on its cache. -/
structure CacheUnobserved (catalog : Catalog) (settings : Settings) (events : List Event) :
    Prop where
  /-- Whatever came before, an operation gives what direct compilation gives. -/
  direct : ∀ past event future, events = past ++ event :: future →
    ((opened catalog settings).run past).AnswersDirectly catalog settings event
  /-- The executor is called with the query of the request whose number the call has. -/
  called : ∀ call ∈ ((opened catalog settings).run events).calls, ∃ definition,
    Occurred events (.request definition) (fun past =>
      (((opened catalog settings).run past).request definition).issued = call.request) ∧
    directQuery catalog settings definition .preview = .ok call.query
  /-- Events that only compile can be put in and left out. -/
  hidden : ∀ others : List Event, CacheKey.NoCollision (runKeys catalog settings others) →
    others.filter (fun event => !event.onlyCompiles) =
      events.filter (fun event => !event.onlyCompiles) →
    ((opened catalog settings).observe others).filter (fun seen => !seen.1.onlyCompiles) =
      ((opened catalog settings).observe events).filter (fun seen => !seen.1.onlyCompiles)

/-- As long as the digests of its keys do not collide, a run does not show its cache. -/
theorem cacheUnobserved_of_noCollision (catalog : Catalog) (settings : Settings)
    (events : List Event) (h : CacheKey.NoCollision (runKeys catalog settings events)) :
    CacheUnobserved catalog settings events := by
  have hserves : ∀ past later, events = past ++ later →
      ((opened catalog settings).run past).Serves catalog settings
        (runKeys catalog settings events) := by
    intro past later hsplit
    apply (Serves.opened h).run
    rw [hsplit]
    exact runKeys_subset (List.subset_append_left past later)
  have hkey : ∀ past event future, events = past ++ event :: future → ∀ key,
      event.key? catalog settings = some key → key ∈ runKeys catalog settings events := by
    intro past event future hsplit key hkey
    rw [hsplit]
    exact key?_mem_runKeys (List.mem_append_right past List.mem_cons_self) hkey
  refine ⟨?_, ?_, ?_⟩
  · intro past event future hsplit
    exact (hserves past _ hsplit).answersDirectly (hkey past event future hsplit)
  · intro call hcall
    have haccounted := (Accounted.opened catalog settings).run events
    rw [List.nil_append] at haccounted
    obtain ⟨definition, past, future, hsplit, hissued, hcopy⟩ :=
      (haccounted.calls call hcall).prepared
    refine ⟨definition, ⟨past, future, hsplit, hissued⟩, ?_⟩
    rw [← hcopy]
    exact ((hserves past _ hsplit).prepare_fst (hkey past _ future hsplit)).symm
  · intro others hothers hfilter
    rw [filter_observe (Serves.opened hothers) (List.Subset.refl _),
      filter_observe (Serves.opened h) (List.Subset.refl _), hfilter]

/-- A run that compiles one definition under two caps, in which a copy is taken once before
and once after the request. -/
theorem cacheUnobserved_hanoi :
    let catalog := Catalog.ofList [{ name := "customers" }]
    let hanoi : Definition :=
      { name := "Hanoi"
        dataset := some "customers"
        conditions := [.on "city" .equals "Hanoi" ""] }
    let events := [.copy hanoi, .materialize hanoi, .request hanoi, .copy hanoi, .cancel]
    (runKeys catalog {} events).length = 4 ∧ CacheKey.NoCollision (runKeys catalog {} events) ∧
      CacheUnobserved catalog {} events := by
  intro catalog hanoi events
  have hapart : CacheKey.NoCollision (runKeys catalog {} events) := by
    decide +kernel
  exact ⟨rfl, hapart, cacheUnobserved_of_noCollision catalog {} events hapart⟩

end Session

end Segmentation.Preview
