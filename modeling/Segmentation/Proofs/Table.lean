import Segmentation.Table
import Mathlib.Data.List.Induction
import Mathlib.Data.List.Nodup

/-!
# Tables

The columns of a table are collected from its rows: the keys of all rows one after another, each
where it appears first.  Under these columns every row has one line, and every value of a row
stands in it once.  Rows that come later only add to the table at its right and at its bottom.
-/

namespace Segmentation.Table

/-- The keys of a row, in order. -/
def keys (row : Row) : List String :=
  row.map Prod.fst

theorem mem_addColumns (columns keys : List String) (column : String) :
    column ∈ addColumns columns keys ↔ column ∈ columns ∨ column ∈ keys := by
  induction keys generalizing columns with
  | nil => simp [addColumns]
  | cons key keys ih =>
      rw [addColumns, List.foldl_cons, ← addColumns, ih, List.mem_cons]
      by_cases hkey : columns.contains key
      · have hmem : key ∈ columns := List.contains_iff_mem.1 hkey
        rw [if_pos hkey]
        grind
      · rw [if_neg hkey, List.mem_append, List.mem_singleton, or_assoc]

theorem nodup_addColumns {columns : List String} (h : columns.Nodup) (keys : List String) :
    (addColumns columns keys).Nodup := by
  induction keys generalizing columns with
  | nil => exact h
  | cons key keys ih =>
      rw [addColumns, List.foldl_cons, ← addColumns]
      apply ih
      by_cases hkey : columns.contains key
      · rw [if_pos hkey]
        exact h
      · rw [if_neg hkey]
        have hnew : key ∉ columns := mt List.contains_iff_mem.2 hkey
        rw [← List.concat_eq_append]
        exact h.concat hnew

/-- The columns of a table are collected from the keys of all its rows. -/
theorem columns_ofRows (rows : List Row) :
    (ofRows rows).columns = addColumns [] (rows.flatMap keys) := by
  exact List.foldl_flatMap.symm

theorem mem_columns_ofRows (rows : List Row) (column : String) :
    column ∈ (ofRows rows).columns ↔ ∃ row ∈ rows, column ∈ keys row := by
  calc column ∈ (ofRows rows).columns
      ↔ column ∈ [] ∨ column ∈ rows.flatMap keys := by rw [columns_ofRows, mem_addColumns]
    _ ↔ ∃ row ∈ rows, column ∈ keys row := by simp [List.mem_flatMap]

theorem nodup_columns_ofRows (rows : List Row) : (ofRows rows).columns.Nodup := by
  rw [columns_ofRows]
  exact nodup_addColumns List.nodup_nil _

/-- A table shows the first rows of a list, `count` of them if there are as many, under the
keys of just these rows. -/
structure ShowsFirst (table : Table) (count : Nat) (rows : List Row) : Prop where
  rows : table.rows = rows.take (min count rows.length)
  nodup : table.columns.Nodup
  columns : ∀ column, column ∈ table.columns ↔ ∃ row ∈ table.rows, column ∈ keys row

theorem showsFirst_ofRows (count : Nat) (rows : List Row) :
    (ofRows (rows.take count)).ShowsFirst count rows where
  rows := List.take_eq_take_min
  nodup := nodup_columns_ofRows _
  columns := mem_columns_ofRows _

/-! ### The order of the columns -/

theorem addColumns_concat (columns keys : List String) (key : String) :
    addColumns columns (keys ++ [key]) =
      if key ∈ addColumns columns keys then addColumns columns keys
      else addColumns columns keys ++ [key] := by
  have hlast : addColumns columns (keys ++ [key]) =
      if (addColumns columns keys).contains key then addColumns columns keys
      else addColumns columns keys ++ [key] := List.foldl_append
  rw [hlast]
  simp only [List.contains_iff_mem]

/-- The columns stand in the order in which their keys appear first. -/
theorem pairwise_addColumns (keys : List String) :
    (addColumns [] keys).Pairwise fun column later => keys.idxOf column < keys.idxOf later := by
  induction keys using List.reverseRecOn with
  | nil => exact List.Pairwise.nil
  | append_singleton keys key ih =>
      have hmem : ∀ column, column ∈ addColumns [] keys ↔ column ∈ keys := by
        intro column
        simp [mem_addColumns]
      have hold : (addColumns [] keys).Pairwise fun column later =>
          (keys ++ [key]).idxOf column < (keys ++ [key]).idxOf later := by
        refine ih.imp_of_mem fun {column later} hcolumn hlater hlt => ?_
        rw [List.idxOf_append_of_mem ((hmem column).1 hcolumn),
          List.idxOf_append_of_mem ((hmem later).1 hlater)]
        exact hlt
      rw [addColumns_concat]
      split
      · exact hold
      · next hnew =>
          refine List.pairwise_append.2 ⟨hold, List.pairwise_singleton _ _, ?_⟩
          intro column hcolumn last hlast
          obtain rfl := List.mem_singleton.1 hlast
          have hcolumn := (hmem column).1 hcolumn
          have hnew : last ∉ keys := mt (hmem last).2 hnew
          rw [List.idxOf_append_of_mem hcolumn, List.idxOf_append_of_notMem hnew]
          exact Nat.lt_add_right _ (List.idxOf_lt_length_of_mem hcolumn)

/-- Keys that come later are added behind the columns that are there. -/
theorem prefix_addColumns (columns keys : List String) : columns <+: addColumns columns keys := by
  induction keys using List.reverseRecOn with
  | nil => exact List.prefix_rfl
  | append_singleton keys key ih =>
      rw [addColumns_concat]
      split
      · exact ih
      · exact ih.trans (List.prefix_append _ _)

/-! ### Lines of cells -/

/-- The text in a line under a column, both by their places. -/
def cell? (table : Table) (i j : Nat) : Option String :=
  table.cells[i]?.bind fun texts => texts[j]?

theorem getElem?_cells (table : Table) (i : Nat) :
    table.cells[i]? = table.rows[i]?.map fun row =>
      table.columns.map fun column => cellText (Json.find? row column) := by
  exact List.getElem?_map

theorem cell?_eq {table : Table} {i j : Nat} {row : Row} {column : String}
    (hrow : table.rows[i]? = some row) (hcolumn : table.columns[j]? = some column) :
    table.cell? i j = some (cellText (Json.find? row column)) := by
  rw [cell?, getElem?_cells, hrow, Option.map_some, Option.bind_some, List.getElem?_map, hcolumn,
    Option.map_some]

theorem find?_of_mem {row : Row} (hkeys : (keys row).Nodup) {key : String} {value : Json}
    (hmem : (key, value) ∈ row) : Json.find? row key = some value := by
  refine Json.find?_eq_some_of_mem hmem fun other hother => ?_
  have hsame := List.inj_on_of_nodup_map hkeys hother hmem rfl
  exact congrArg Prod.snd hsame

/-- What it is for a table to lay out rows under common columns. -/
structure LaysOut (table : Table) (rows : List Row) : Prop where
  /-- No column stands twice. -/
  nodup : table.columns.Nodup
  /-- The columns are the keys of the rows. -/
  columns : ∀ column, column ∈ table.columns ↔ ∃ row ∈ rows, column ∈ keys row
  /-- They stand in the order in which they appear first, row after row. -/
  ordered : table.columns.Pairwise fun column later =>
    (rows.flatMap keys).idxOf column < (rows.flatMap keys).idxOf later
  /-- There is a line for every row. -/
  lines : table.cells.length = rows.length
  /-- Every line has a cell for every column. -/
  rectangular : ∀ line ∈ table.cells, line.length = table.columns.length
  /-- A cell shows what its row has under its column. -/
  cell : ∀ i j row column, rows[i]? = some row → table.columns[j]? = some column →
    table.cell? i j = some (cellText (Json.find? row column))
  /-- It shows a dash if the row has nothing there. -/
  lacking : ∀ i j row column, rows[i]? = some row → table.columns[j]? = some column →
    column ∉ keys row → table.cell? i j = some "-"
  /-- Each value of a row is shown in its line in one place, under its key. -/
  shown : ∀ i row key value, rows[i]? = some row → (keys row).Nodup → (key, value) ∈ row →
    ∃! j, table.columns[j]? = some key ∧ table.cell? i j = some (cellText (some value))

theorem laysOut_ofRows (rows : List Row) : (ofRows rows).LaysOut rows where
  nodup := nodup_columns_ofRows rows
  columns := mem_columns_ofRows rows
  ordered := by
    rw [columns_ofRows]
    exact pairwise_addColumns (rows.flatMap keys)
  lines := List.length_map _
  rectangular line hline := by
    obtain ⟨row, _, rfl⟩ := List.mem_map.1 hline
    exact List.length_map _
  cell i j row column hrow hcolumn := cell?_eq hrow hcolumn
  lacking i j row column hrow hcolumn hlacking := by
    rw [cell?_eq hrow hcolumn, Json.find?_eq_none_iff.2 hlacking]
    rfl
  shown i row key value hrow hkeys hmem := by
    have hcolumn : key ∈ (ofRows rows).columns :=
      (mem_columns_ofRows rows key).2
        ⟨row, List.mem_of_getElem? hrow, List.mem_map_of_mem hmem⟩
    obtain ⟨j, hj⟩ := List.getElem?_of_mem hcolumn
    refine ⟨j, ⟨hj, ?_⟩, ?_⟩
    · rw [cell?_eq hrow hj, find?_of_mem hkeys hmem]
    · rintro k ⟨hk, _⟩
      obtain ⟨hlt, _⟩ := List.getElem?_eq_some_iff.1 hj
      exact ((List.getElem?_inj hlt (nodup_columns_ofRows rows)).1 (hj.trans hk.symm)).symm

/-- A table is the upper left corner of another one. -/
structure IsCornerOf (table larger : Table) : Prop where
  columns : table.columns <+: larger.columns
  lines : ∀ (i : Nat) (line : List String), table.cells[i]? = some line →
    ∃ more, larger.cells[i]? = some (line ++ more)

theorem isCornerOf_ofRows_append (rows later : List Row) :
    (ofRows rows).IsCornerOf (ofRows (rows ++ later)) := by
  have hcolumns : (ofRows rows).columns <+: (ofRows (rows ++ later)).columns := by
    have happend : (ofRows (rows ++ later)).columns =
        addColumns (ofRows rows).columns (later.flatMap keys) := by
      rw [columns_ofRows, columns_ofRows, List.flatMap_append]
      exact List.foldl_append
    rw [happend]
    exact prefix_addColumns _ _
  refine ⟨hcolumns, fun i line hline => ?_⟩
  obtain ⟨added, hadded⟩ := hcolumns
  rw [getElem?_cells] at hline
  obtain ⟨row, hrow, rfl⟩ := Option.map_eq_some_iff.1 hline
  refine ⟨added.map fun column => cellText (Json.find? row column), ?_⟩
  have hlater : (ofRows (rows ++ later)).rows[i]? = some row := by
    obtain ⟨hlt, _⟩ := List.getElem?_eq_some_iff.1 hrow
    exact (List.getElem?_append_left hlt).trans hrow
  rw [getElem?_cells, hlater, Option.map_some, ← hadded, List.map_append]

/-- The table of some rows lays them out, and rows that come later leave it as it is: they add
columns at the right and lines at the bottom. -/
theorem laysOut_and_isCornerOf (rows later : List Row) :
    (ofRows rows).LaysOut rows ∧ (ofRows rows).IsCornerOf (ofRows (rows ++ later)) :=
  ⟨laysOut_ofRows rows, isCornerOf_ofRows_append rows later⟩

/-- Two rows that share one key. -/
example : let table := ofRows [[("id", .string "a"), ("city", .null)],
      [("active", .bool true), ("id", .string "b")]]
    table.columns = ["id", "city", "active"] ∧
      table.cells = [["a", "-", "-"], ["b", "-", "Yes"]] := by
  decide +kernel

end Segmentation.Table
