import Segmentation.Proofs.Cache.Faithful

/-!
# Runs of a cache

A run takes fetches and clearings in any order.  The main statement is that every
fetch of a run gives the query that compilation gives, whatever was kept, displaced
or cleared before it, as long as the digests of the keys that are fetched do not
collide.
-/

namespace Segmentation.QueryCache

/-- What a cache is used for. -/
inductive Use
  | fetch (dataset : Dataset) (definition : Definition) (settings : Settings) (cap : Sql.RowCap)
  | clear

namespace Use

/-- The key under which a fetch looks. -/
def key? : Use → Option CacheKey
  | fetch dataset definition settings cap => some (.of dataset definition settings cap)
  | clear => none

/-- The query of a fetch, compiled without a cache. -/
def compiled? : Use → Option Sql.Query
  | fetch dataset definition settings cap => some (definition.toQuery dataset settings cap)
  | clear => none

end Use

/-- What a use gives, and the cache after it. -/
def step (cache : QueryCache) : Use → Option Sql.Query × QueryCache
  | .fetch dataset definition settings cap =>
    let (query, next) := cache.fetch dataset definition settings cap
    (some query, next)
  | .clear => (none, cache.clear)

/-- The cache after some uses. -/
def run (cache : QueryCache) (uses : List Use) : QueryCache :=
  uses.foldl (fun cache use => (cache.step use).2) cache

/-- What the uses of a run give, in order. -/
def answers (cache : QueryCache) : List Use → List (Option Sql.Query)
  | [] => []
  | use :: later => (cache.step use).1 :: answers (cache.step use).2 later

/-- The keys under which the fetches of a run look. -/
def keysOf (uses : List Use) : List CacheKey :=
  uses.filterMap Use.key?

variable {cache : QueryCache} {keys : List CacheKey} {use : Use}

/-- A use of a faithful cache gives the compiled query. -/
theorem Faithful.step_fst (h : cache.Faithful keys) (hno : CacheKey.NoCollision keys)
    (hkey : ∀ key ∈ use.key?, key ∈ keys) : (cache.step use).1 = use.compiled? := by
  cases use with
  | fetch dataset definition settings cap =>
      have hfetched := h.fetch_fst hno (hkey _ rfl)
      rw [step, Use.compiled?, ← hfetched]
  | clear => rfl

/-- A use leaves a faithful cache faithful. -/
theorem Faithful.step_snd (h : cache.Faithful keys) (hkey : ∀ key ∈ use.key?, key ∈ keys) :
    (cache.step use).2.Faithful keys := by
  cases use with
  | fetch dataset definition settings cap => exact h.fetch_snd (hkey _ rfl)
  | clear => exact faithful_of_entries_eq_nil rfl

theorem Faithful.answers_eq (h : cache.Faithful keys) (hno : CacheKey.NoCollision keys)
    {uses : List Use} (hkeys : keysOf uses ⊆ keys) :
    cache.answers uses = uses.map Use.compiled? := by
  induction uses generalizing cache with
  | nil => rfl
  | cons use later ih =>
      have hkey : ∀ key ∈ use.key?, key ∈ keys := by
        intro key hmem
        apply hkeys
        exact List.mem_filterMap.2 ⟨use, List.mem_cons_self, hmem⟩
      have hlater : keysOf later ⊆ keys := by
        intro key hmem
        apply hkeys
        obtain ⟨other, hother, hfound⟩ := List.mem_filterMap.1 hmem
        exact List.mem_filterMap.2 ⟨other, List.mem_cons_of_mem use hother, hfound⟩
      rw [answers, List.map_cons, h.step_fst hno hkey, ih (h.step_snd hkey) hlater]

/-- A run that begins with an empty cache gives the compiled query for every fetch. -/
theorem answers_withCapacity (capacity : Nat) (uses : List Use)
    (hno : CacheKey.NoCollision (keysOf uses)) :
    (withCapacity capacity).answers uses = uses.map Use.compiled? := by
  have hempty : (withCapacity capacity).Faithful (keysOf uses) := faithful_of_entries_eq_nil rfl
  exact hempty.answers_eq hno (List.Subset.refl _)

/-- A cache for one query, in which the second fetch finds the query of the first under
another name, and the third displaces it. -/
theorem answers_withCapacity_one :
    let guests : Dataset := { name := "guests" }
    let settings : Settings := { membership := ⟨"members", "segment", "guest"⟩ }
    let hanoi : Definition := { name := "Hanoi", conditions := [.on "city" .isNull "" ""] }
    let uses : List Use :=
      [.clear, .fetch guests hanoi settings .preview,
        .fetch guests { hanoi with name := "H" } settings .preview,
        .fetch guests hanoi settings (.materialize 500)]
    CacheKey.NoCollision (keysOf uses) ∧ ((withCapacity 1).run uses).hits = 1 ∧
      (withCapacity 1).answers uses = uses.map Use.compiled? := by
  intro guests settings hanoi uses
  obtain ⟨hapart, hhits⟩ :
      CacheKey.NoCollision (keysOf uses) ∧ ((withCapacity 1).run uses).hits = 1 := by
    decide +kernel
  exact ⟨hapart, hhits, answers_withCapacity 1 uses hapart⟩

end Segmentation.QueryCache
