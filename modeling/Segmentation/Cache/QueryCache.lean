import Segmentation.Cache.Key

/-!
# Query cache

A cache keeps the queries of definitions under the digests of their keys.  It
holds a bounded number of them and is emptied as a whole when a further one
would not fit.
-/

namespace Segmentation

structure QueryCache where
  capacity : Nat := 256
  entries : List (List UInt8 × Sql.Query) := []
  hits : Nat := 0
  misses : Nat := 0

namespace QueryCache

/-- An empty cache for `capacity` queries, and for one at least. -/
def withCapacity (capacity : Nat) : QueryCache where
  capacity := max capacity 1

/-- The query of a definition: the kept one if there is one, and otherwise a new one
that is then kept. -/
def fetch (cache : QueryCache) (dataset : Dataset) (definition : Definition)
    (settings : Settings) (cap : Sql.RowCap) : Sql.Query × QueryCache :=
  let digest := (CacheKey.of dataset definition settings cap).digest
  match cache.entries.lookup digest with
  | some query => (query, { cache with hits := cache.hits + 1 })
  | none =>
    let query := definition.toQuery dataset settings cap
    let kept := if cache.capacity ≤ cache.entries.length then [] else cache.entries
    (query, { cache with misses := cache.misses + 1, entries := (digest, query) :: kept })

/-- Drops all queries; the counts of hits and misses stay. -/
def clear (cache : QueryCache) : QueryCache :=
  { cache with entries := [] }

def size (cache : QueryCache) : Nat :=
  cache.entries.length

end QueryCache

end Segmentation
