import Mathlib.Data.Finset.Card
import Segmentation.Proofs.Cache.Run
import Segmentation.Proofs.History

/-!
# What a cache holds and counts

A cache is emptied by clearing it, and by a fetch that misses while the cache is full.  A run
is told apart at its last emptying, and the main statement is that the cache holds one query
for each digest that was looked for since, the one of the emptying fetch included.  So these
are the digests whose fetch is a hit.  Hits and misses together are the fetches of the
whole run.
-/

namespace Segmentation.QueryCache

/-- The digest under which a use looks. -/
def Use.digest? (use : Use) : Option (List UInt8) :=
  use.key?.map CacheKey.digest

/-- The digests that the fetches of a run look for. -/
def requested (uses : List Use) : List (List UInt8) :=
  uses.filterMap Use.digest?

/-- The digests under which queries are kept. -/
def digests (cache : QueryCache) : List (List UInt8) :=
  cache.entries.map Prod.fst

def Hits (cache : QueryCache) (use : Use) : Prop :=
  (cache.step use).2.hits = cache.hits + 1

def Misses (cache : QueryCache) (use : Use) : Prop :=
  (cache.step use).2.misses = cache.misses + 1

/-- Whether a use empties a cache for `capacity` queries. -/
def Empties (capacity : Nat) (cache : QueryCache) (use : Use) : Prop :=
  use = .clear ∨ cache.Misses use ∧ cache.size = capacity

/-- A run told apart at the last use that emptied the cache. -/
def LastEmptied (capacity : Nat) : List Use → List Use → Prop :=
  LastAt fun past use => Empties (max capacity 1) ((withCapacity capacity).run past) use

/-- What was looked for since the cache was emptied.  The use that emptied it is the last one
of `past`; what it fetches is kept. -/
def requestedSince (past later : List Use) : List (List UInt8) :=
  requested (past.getLast?.toList ++ later)

variable {cache : QueryCache} {use : Use} {digest : List UInt8} {capacity : Nat}
  {past later : List Use}

theorem requested_append (earlier later : List Use) :
    requested (earlier ++ later) = requested earlier ++ requested later := by
  exact List.filterMap_append

theorem requested_singleton (hdigest : use.digest? = some digest) :
    requested [use] = [digest] := by
  exact List.filterMap_cons_some hdigest

theorem run_concat (cache : QueryCache) (uses : List Use) (use : Use) :
    cache.run (uses ++ [use]) = ((cache.run uses).step use).2 := by
  rw [run, List.foldl_append]
  rfl

/-! ### One use -/

theorem lookup_eq_none_iff_not_mem_digests :
    cache.entries.lookup digest = none ↔ digest ∉ cache.digests := by
  rw [List.lookup_eq_none_iff, digests, List.mem_map]
  simp only [bne_iff_ne]
  grind

/-- A fetch that finds its digest changes the count of hits alone. -/
theorem step_of_mem (hdigest : use.digest? = some digest) (h : digest ∈ cache.digests) :
    (cache.step use).2 = { cache with hits := cache.hits + 1 } := by
  cases use with
  | clear => contradiction
  | fetch dataset definition settings cap =>
      obtain rfl := Option.some.inj hdigest
      cases hlookup : cache.entries.lookup (CacheKey.of dataset definition settings cap).digest with
      | none => exact absurd h (lookup_eq_none_iff_not_mem_digests.1 hlookup)
      | some query => simp only [step, fetch, hlookup]

/-- A fetch that does not find its digest keeps a query under it, beside the others unless
the cache is full. -/
theorem step_of_not_mem (hdigest : use.digest? = some digest) (h : digest ∉ cache.digests) :
    ∃ query, (cache.step use).2 = { cache with
      misses := cache.misses + 1
      entries := (digest, query) :: if cache.capacity ≤ cache.size then [] else cache.entries } := by
  cases use with
  | clear => contradiction
  | fetch dataset definition settings cap =>
      obtain rfl := Option.some.inj hdigest
      have hlookup := lookup_eq_none_iff_not_mem_digests.2 h
      refine ⟨definition.toQuery dataset settings cap, ?_⟩
      simp only [step, fetch, hlookup, size]
      rfl

theorem hits_iff (hdigest : use.digest? = some digest) :
    cache.Hits use ↔ digest ∈ cache.digests := by
  by_cases h : digest ∈ cache.digests
  · simp [Hits, step_of_mem hdigest h, h]
  · obtain ⟨query, hstep⟩ := step_of_not_mem hdigest h
    simp [Hits, hstep, h]

theorem misses_iff (hdigest : use.digest? = some digest) :
    cache.Misses use ↔ digest ∉ cache.digests := by
  by_cases h : digest ∈ cache.digests
  · simp [Misses, step_of_mem hdigest h, h]
  · obtain ⟨query, hstep⟩ := step_of_not_mem hdigest h
    simp [Misses, hstep, h]

/-- A use is a clearing, or looks for a digest. -/
theorem eq_clear_or_exists_digest (use : Use) :
    use = .clear ∨ ∃ digest, use.digest? = some digest := by
  cases use with
  | clear => exact .inl rfl
  | fetch dataset definition settings cap => exact .inr ⟨_, rfl⟩

/-! ### What is held -/

/-- The cache keeps one query for each of these digests, as many as it may. -/
structure Holds (cache : QueryCache) (capacity : Nat) (kept : List (List UInt8)) : Prop where
  capacity_eq : cache.capacity = capacity
  size_le : cache.size ≤ capacity
  nodup : cache.digests.Nodup
  mem_iff : ∀ digest, digest ∈ cache.digests ↔ digest ∈ kept

variable {kept : List (List UInt8)}

theorem Holds.size_eq (h : cache.Holds capacity kept) : cache.size = kept.toFinset.card := by
  have hdigests : cache.digests.toFinset = kept.toFinset := by
    ext digest
    rw [List.mem_toFinset, List.mem_toFinset, h.mem_iff]
  rw [← hdigests, List.toFinset_card_of_nodup h.nodup, digests, List.length_map, size]

theorem holds_nil (h : cache.capacity = capacity) (hentries : cache.entries = []) :
    cache.Holds capacity [] := by
  refine ⟨h, ?_, ?_, ?_⟩ <;> simp [size, digests, hentries]

/-- An emptied cache holds what the emptying use looked for, and nothing else. -/
theorem Holds.step_of_empties (h : cache.Holds capacity kept) (hpos : 0 < capacity)
    (hempties : Empties capacity cache use) :
    (cache.step use).2.Holds capacity (requested [use]) := by
  obtain rfl | ⟨digest, hdigest⟩ := eq_clear_or_exists_digest use
  · exact holds_nil h.capacity_eq rfl
  · obtain rfl | ⟨hmisses, hfull⟩ := hempties
    · contradiction
    obtain ⟨query, hstep⟩ := step_of_not_mem hdigest ((misses_iff hdigest).1 hmisses)
    rw [if_pos (h.capacity_eq.trans hfull.symm).le] at hstep
    rw [hstep, requested_singleton hdigest]
    exact ⟨h.capacity_eq, hpos, List.nodup_singleton digest, fun other => Iff.rfl⟩

/-- Any other use adds what it looks for to what is held. -/
theorem Holds.step_of_not_empties (h : cache.Holds capacity kept)
    (hempties : ¬ Empties capacity cache use) :
    (cache.step use).2.Holds capacity (kept ++ requested [use]) := by
  obtain rfl | ⟨digest, hdigest⟩ := eq_clear_or_exists_digest use
  · exact absurd (.inl rfl) hempties
  rw [requested_singleton hdigest]
  by_cases hmem : digest ∈ cache.digests
  · rw [step_of_mem hdigest hmem]
    refine ⟨h.capacity_eq, h.size_le, h.nodup, ?_⟩
    intro other
    have hkept := (h.mem_iff digest).1 hmem
    calc other ∈ cache.digests
        ↔ other ∈ kept := h.mem_iff other
      _ ↔ other ∈ kept ++ [digest] := by grind
  · have hroom : cache.size < capacity := by
      apply lt_of_le_of_ne h.size_le
      intro hfull
      exact hempties (.inr ⟨(misses_iff hdigest).2 hmem, hfull⟩)
    obtain ⟨query, hstep⟩ := step_of_not_mem hdigest hmem
    rw [if_neg (h.capacity_eq ▸ hroom.not_ge)] at hstep
    rw [hstep]
    refine ⟨h.capacity_eq, hroom, List.nodup_cons.2 ⟨hmem, h.nodup⟩, ?_⟩
    intro other
    calc other ∈ digest :: cache.digests
        ↔ other = digest ∨ other ∈ kept := by rw [List.mem_cons, h.mem_iff]
      _ ↔ other ∈ kept ++ [digest] := by rw [List.mem_append, List.mem_singleton, or_comm]

/-- Throughout a run the cache holds what was looked for since it was emptied. -/
theorem LastEmptied.holds (h : LastEmptied capacity past later) :
    ((withCapacity capacity).run (past ++ later)).Holds (max capacity 1)
      (requestedSince past later) := by
  have hpos : 0 < max capacity 1 := Nat.le_max_right capacity 1
  induction h with
  | empty => exact holds_nil rfl rfl
  | set _ hset ih =>
      rw [List.append_nil, run_concat, requestedSince, List.getLast?_concat]
      exact ih.step_of_empties hpos hset
  | keep _ hkeep ih =>
      rw [← List.append_assoc, run_concat, requestedSince, ← List.append_assoc, requested_append]
      exact ih.step_of_not_empties hkeep

/-! ### What is counted -/

/-- Every fetch is counted once. -/
theorem hits_add_misses_run (capacity : Nat) (uses : List Use) :
    ((withCapacity capacity).run uses).hits + ((withCapacity capacity).run uses).misses =
      (requested uses).length := by
  induction uses using List.reverseRecOn with
  | nil => rfl
  | append_singleton uses use ih =>
      rw [run_concat, requested_append, List.length_append, ← ih]
      obtain rfl | ⟨digest, hdigest⟩ := eq_clear_or_exists_digest use
      · rfl
      rw [requested_singleton hdigest, List.length_singleton]
      by_cases hmem : digest ∈ ((withCapacity capacity).run uses).digests
      · rw [step_of_mem hdigest hmem]
        exact Nat.add_right_comm ..
      · obtain ⟨query, hstep⟩ := step_of_not_mem hdigest hmem
        rw [hstep]
        exact (Nat.add_assoc ..).symm

/-- At every point of a run, the cache holds as many queries as different digests were looked
for since it was emptied, which is just one if a fetch has emptied it right now, and no more
than it may; it has counted every fetch of the run once; and a fetch is a hit exactly if its
digest was looked for since the cache was emptied. -/
theorem run_accounting (capacity : Nat) (uses : List Use) :
    let cache := (withCapacity capacity).run uses
    ∃ past later, uses = past ++ later ∧ LastEmptied capacity past later ∧
      cache.size = (requestedSince past later).toFinset.card ∧
      cache.size ≤ max capacity 1 ∧
      cache.hits + cache.misses = (requested uses).length ∧
      ∀ dataset definition settings cap,
        cache.Hits (.fetch dataset definition settings cap) ↔
          (CacheKey.of dataset definition settings cap).digest ∈ requestedSince past later := by
  intro cache
  obtain ⟨past, later, rfl, h⟩ : ∃ past later, uses = past ++ later ∧
      LastEmptied capacity past later := exists_lastAt _ uses
  have hholds := h.holds
  refine ⟨past, later, rfl, h, hholds.size_eq, hholds.size_le, hits_add_misses_run _ _, ?_⟩
  intro dataset definition settings cap
  rw [hits_iff rfl, hholds.mem_iff]

end Segmentation.QueryCache
