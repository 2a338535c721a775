import Segmentation.Cache.QueryCache
import Segmentation.Proofs.Cache.Encoding

/-!
# Faithful caches

A key determines the query of a definition, and among keys whose digests do not
collide the digest determines the key.  A cache that holds nothing but the queries
of such keys answers what compilation answers, and keeps doing so.
-/

namespace Segmentation

namespace CacheKey

/-- The query that a key stands for. -/
def query (key : CacheKey) : Sql.Query :=
  let definition : Definition :=
    { name := ""
      connective := key.connective
      conditions := key.conditions
      groups := key.groups
      memberships := ⟨key.inclusions, key.exclusions⟩ }
  definition.toQuery key.dataset { dialect := key.dialect, membership := key.membership } key.cap

theorem query_of (dataset : Dataset) (definition : Definition) (settings : Settings)
    (cap : Sql.RowCap) :
    (of dataset definition settings cap).query = definition.toQuery dataset settings cap := by
  rfl

/-- Among these keys, no two encodings that differ have one digest. -/
def NoCollision (keys : List CacheKey) : Prop :=
  ∀ left ∈ keys, ∀ right ∈ keys, left.digest = right.digest → left.encode = right.encode

instance (keys : List CacheKey) : Decidable (NoCollision keys) :=
  inferInstanceAs (Decidable (∀ left ∈ keys, ∀ right ∈ keys, _))

theorem NoCollision.eq_of_digest_eq {keys : List CacheKey} (h : NoCollision keys)
    {left right : CacheKey} (hleft : left ∈ keys) (hright : right ∈ keys)
    (hdigest : left.digest = right.digest) : left = right := by
  exact encode_prefixFree.injective (h left hleft right hright hdigest)

end CacheKey

namespace QueryCache

variable {cache : QueryCache} {keys : List CacheKey} {dataset : Dataset}
  {definition : Definition} {settings : Settings} {cap : Sql.RowCap}

/-- Every query that is kept is the query of one of the keys, under the digest of that key. -/
def Faithful (cache : QueryCache) (keys : List CacheKey) : Prop :=
  ∀ entry ∈ cache.entries, ∃ key ∈ keys, entry = (key.digest, key.query)

theorem faithful_of_entries_eq_nil (h : cache.entries = []) : cache.Faithful keys := by
  intro entry hentry
  rw [h] at hentry
  contradiction

/-- A fetched query is the compiled one, whether it was kept or not. -/
theorem Faithful.fetch_fst (h : cache.Faithful keys) (hno : CacheKey.NoCollision keys)
    (hkey : CacheKey.of dataset definition settings cap ∈ keys) :
    (cache.fetch dataset definition settings cap).1 = definition.toQuery dataset settings cap := by
  rw [fetch]
  split
  · next query hlookup =>
      obtain ⟨before, after, hentries, _⟩ := List.lookup_eq_some_iff.1 hlookup
      have hkept : ((CacheKey.of dataset definition settings cap).digest, query) ∈
          cache.entries := by
        rw [hentries]
        exact List.mem_append_right _ List.mem_cons_self
      obtain ⟨key, hmem, hentry⟩ := h _ hkept
      obtain ⟨hdigest, hquery⟩ := Prod.mk.inj hentry
      rw [hquery, ← hno.eq_of_digest_eq hkey hmem hdigest, CacheKey.query_of]
  · rfl

/-- What is kept after a fetch was kept before, or is the query just compiled. -/
theorem Faithful.fetch_snd (h : cache.Faithful keys)
    (hkey : CacheKey.of dataset definition settings cap ∈ keys) :
    (cache.fetch dataset definition settings cap).2.Faithful keys := by
  rw [fetch]
  split
  · exact h
  · intro entry hentry
    obtain hnew | hkept := List.mem_cons.1 hentry
    · refine ⟨CacheKey.of dataset definition settings cap, hkey, ?_⟩
      rw [hnew, CacheKey.query_of]
    · split at hkept
      · exact absurd hkept List.not_mem_nil
      · exact h entry hkept

end QueryCache

end Segmentation
