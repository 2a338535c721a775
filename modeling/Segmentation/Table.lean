import Segmentation.Json.Decode
import Segmentation.Json.Printer

/-!
# Tables of rows

Rows are objects with keys of their own.  A table lays them out under common
columns: every key of every row once, in the order in which they first appear.
-/

namespace Segmentation

abbrev Row := Json.Members

/-- The text of a cell that holds nothing. -/
def emptyCell : String := "-"

/-- A value as it is shown in a cell. -/
def cellText : Option Json → String
  | none => emptyCell
  | some .null => emptyCell
  | some (.bool true) => "Yes"
  | some (.bool false) => "No"
  | some (.string text) => text
  | some value => value.render

structure Table where
  columns : List String
  rows : List Row

namespace Table

/-- The columns with those of `keys` that are new at the end. -/
def addColumns (columns : List String) (keys : List String) : List String :=
  keys.foldl (fun columns key => if columns.contains key then columns else columns ++ [key])
    columns

def ofRows (rows : List Row) : Table where
  columns := rows.foldl (fun columns row => addColumns columns (row.map Prod.fst)) []
  rows := rows

/-- One line of cells for each row. -/
def cells (table : Table) : List (List String) :=
  table.rows.map fun row => table.columns.map fun column => cellText (Json.find? row column)

end Table

/-- The rows that a JSON value lists. -/
def rowsOfJson? : Json → Option (List Row)
  | .array items => items.mapM Json.asMembers?
  | _ => none

end Segmentation
