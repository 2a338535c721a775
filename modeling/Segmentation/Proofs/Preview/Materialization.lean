import Segmentation.Proofs.Preview.Unobserved
import Segmentation.Proofs.Sql.Parts

/-!
# Materializing what was previewed

The cap of a query is its limit, and the limit is what the two written statements end with.  So
the query of a preview and the query that gives the whole segment filter the same records, and
differ in nothing but how many of them they give.  The main statement is that a session hands
out such a pair of queries, whatever it was used for before either of them was compiled.
-/

namespace Segmentation

namespace Sql

/-- Queries for the same records, whose statements differ in their last number only. -/
structure Query.SameFilter (left right : Query) : Prop where
  params : left.params = right.params
  predicate : left.inlinePredicate = right.inlinePredicate
  sql : ∃ statement : String,
    left.sql = statement ++ " LIMIT " ++ toString left.limit ∧
    right.sql = statement ++ " LIMIT " ++ toString right.limit
  inlineSql : ∃ statement : String,
    left.inlineSql = statement ++ " LIMIT " ++ toString left.limit ∧
    right.inlineSql = statement ++ " LIMIT " ++ toString right.limit

/-- A limit is not part of the filter. -/
theorem Plan.sameFilter_toQuery (plan : Plan) (limit : UInt32) (dialect : Dialect) :
    (plan.toQuery dialect).SameFilter ({ plan with limit }.toQuery dialect) where
  params := by
    rw [parameters_toQuery, parameters_toQuery]
    rfl
  predicate := by
    rw [inlinePredicate_toQuery, inlinePredicate_toQuery]
    rfl
  sql := ⟨_, plan.sql_toQuery dialect, { plan with limit }.sql_toQuery dialect⟩
  inlineSql := ⟨_, plan.inlineSql_toQuery dialect, { plan with limit }.inlineSql_toQuery dialect⟩

end Sql

/-- A materialized segment has the limit of the settings, if that is above the one of a preview. -/
theorem Settings.rows_materialize (settings : Settings) :
    (Sql.RowCap.materialize settings.effectiveMaterializeLimit).rows =
      max settings.materializeLimit 101 := by
  rw [Sql.RowCap.rows, effectiveMaterializeLimit]
  split
  · next hsmall =>
      have hle : settings.materializeLimit ≤ 101 := by
        rw [UInt32.le_iff_toNat_le] at hsmall ⊢
        exact Nat.le_succ_of_le hsmall
      calc max (Sql.previewLimit + 1) (Sql.previewLimit + 1)
          = 101 := rfl
        _ = max settings.materializeLimit 101 := (if_pos hle).symm
  · rfl

theorem Definition.sameFilter_toQuery (definition : Definition) (dataset : Dataset)
    (settings : Settings) (cap other : Sql.RowCap) :
    (definition.toQuery dataset settings cap).SameFilter
      (definition.toQuery dataset settings other) := by
  exact (definition.toPlan dataset settings.membership cap).sameFilter_toQuery other.rows
    settings.dialect

namespace Preview.Session

variable {catalog : Catalog} {settings : Settings} {definition : Definition}

/-- Whatever was compiled before, a copy gives the query that direct compilation gives. -/
theorem copyQuery_run {events : List Event}
    (hapart : CacheKey.NoCollision (runKeys catalog settings (events ++ [.copy definition]))) :
    (((opened catalog settings).run events).copyQuery definition).1 =
      directQuery catalog settings definition .preview := by
  apply (serves_run (List.subset_append_left events _) hapart).prepare_fst
  intro key hkey
  have hmem : Event.copy definition ∈ events ++ [.copy definition] := List.mem_concat_self
  exact key?_mem_runKeys hmem hkey

theorem materializeQuery_run {events : List Event}
    (hapart : CacheKey.NoCollision
      (runKeys catalog settings (events ++ [.materialize definition]))) :
    (((opened catalog settings).run events).materializeQuery definition).1 =
      directQuery catalog settings definition
        (.materialize settings.effectiveMaterializeLimit) := by
  have hserves := serves_run (List.subset_append_left events _) hapart
  rw [materializeQuery, hserves.settings]
  apply hserves.prepare_fst
  intro key hkey
  have hmem : Event.materialize definition ∈ events ++ [.materialize definition] :=
    List.mem_concat_self
  exact key?_mem_runKeys hmem hkey

/-- A definition whose dataset is not found has no query, whatever its cap. -/
theorem prepare_of_unknown {session : Session} {name : String} (cap : Sql.RowCap)
    (hname : definition.dataset = some name) (hcatalog : session.catalog name = none) :
    (session.prepare definition cap).1 = .error (.unknownDataset name) := by
  simp only [prepare, hname, hcatalog]

/-- A copy and a materialization of one definition, each in whatever state the session is in,
run one filter with the limits of their own, or both fail for the same reason. -/
theorem sameFilter_run (catalog : Catalog) (settings : Settings) (definition : Definition)
    (before after : List Event) :
    let copied := (((opened catalog settings).run before).copyQuery definition).1
    let materialized := (((opened catalog settings).run after).materializeQuery definition).1
    (∀ name dataset, definition.dataset = some name → catalog name = some dataset →
      CacheKey.NoCollision (runKeys catalog settings (before ++ [.copy definition])) →
      CacheKey.NoCollision (runKeys catalog settings (after ++ [.materialize definition])) →
      ∃ left right, copied = .ok left ∧ materialized = .ok right ∧ left.SameFilter right ∧
        left.limit = 100 ∧ right.limit = max settings.materializeLimit 101) ∧
    (definition.dataset = none →
      copied = .error .noDataset ∧ materialized = .error .noDataset) ∧
    ∀ name, definition.dataset = some name → catalog name = none →
      copied = .error (.unknownDataset name) ∧ materialized = .error (.unknownDataset name) := by
  intro copied materialized
  refine ⟨?_, ?_, ?_⟩
  · intro name dataset hname hdataset hbefore hafter
    have hcopied : copied = directQuery catalog settings definition .preview :=
      copyQuery_run hbefore
    have hmaterialized : materialized = directQuery catalog settings definition
        (.materialize settings.effectiveMaterializeLimit) :=
      materializeQuery_run hafter
    rw [hcopied, hmaterialized]
    refine ⟨definition.toQuery dataset settings .preview,
      definition.toQuery dataset settings (.materialize settings.effectiveMaterializeLimit),
      ?_, ?_, definition.sameFilter_toQuery dataset settings _ _, rfl, settings.rows_materialize⟩
    · simp only [directQuery, hname, hdataset]
    · simp only [directQuery, hname, hdataset]
  · intro hname
    constructor
    · simp only [copied, copyQuery, prepare, hname]
    · simp only [materialized, materializeQuery, prepare, hname]
  · intro name hname hcatalog
    constructor
    · apply prepare_of_unknown _ hname
      rw [catalog_run]
      exact hcatalog
    · apply prepare_of_unknown _ hname
      rw [catalog_run]
      exact hcatalog

/-- A limit below that of a preview, in sessions that have compiled the definition before. -/
theorem sameFilter_hanoi :
    let catalog := Catalog.ofList [{ name := "customers" }]
    let settings : Settings := { materializeLimit := 50 }
    let hanoi : Definition :=
      { name := "Hanoi"
        dataset := some "customers"
        conditions := [.on "city" .equals "Hanoi" ""] }
    let before : List Event := [.materialize hanoi, .request hanoi]
    let after : List Event := [.copy hanoi, .copy { hanoi with dataset := none }]
    CacheKey.NoCollision (runKeys catalog settings (before ++ [.copy hanoi])) ∧
    CacheKey.NoCollision (runKeys catalog settings (after ++ [.materialize hanoi])) ∧
    ∃ left right, (((opened catalog settings).run before).copyQuery hanoi).1 = .ok left ∧
      (((opened catalog settings).run after).materializeQuery hanoi).1 = .ok right ∧
      left.SameFilter right ∧ left.limit = 100 ∧ right.limit = 101 := by
  intro catalog settings hanoi before after
  have hbefore : CacheKey.NoCollision (runKeys catalog settings (before ++ [.copy hanoi])) := by
    decide +kernel
  have hafter : CacheKey.NoCollision
      (runKeys catalog settings (after ++ [.materialize hanoi])) := by
    decide +kernel
  have hpair := sameFilter_run catalog settings hanoi before after
  exact ⟨hbefore, hafter, hpair.1 "customers" _ rfl rfl hbefore hafter⟩

end Preview.Session

end Segmentation
