import Rowfile.Schema

/-!
# Grids

Rows and schemas are shown as grids of cells between bars and borders. A column of the grid is as
wide as its longest text, counted in characters, and texts are padded with spaces on the right. The
columns of a grid of records are the names that occur in them, in order of first appearance.
-/
namespace Rowfile.Grid

/-- The greater of the widths of columns so far and the lengths of the texts in a row. -/
def widen (widths : List Nat) (row : List String) : List Nat :=
  List.zipWith (fun width text => max width text.length) widths row

/-- The widths of the columns: the longest text of each. -/
def widths (headers : List String) (rows : List (List String)) : List Nat :=
  rows.foldl widen (headers.map String.length)

def border (widths : List Nat) : String :=
  "+" ++ String.join (widths.map fun width => String.ofList (List.replicate (width + 2) '-') ++ "+")

/-- A text at the left of a cell of some width, with the bar behind the cell. -/
def cell (text : String) (width : Nat) : String :=
  " " ++ text ++ String.ofList (List.replicate (width - text.length + 1) ' ') ++ "|"

def line (widths : List Nat) (row : List String) : String :=
  "|" ++ String.join (List.zipWith cell row widths)

/-- The lines of a grid: a border, the headers, a border, the rows, and a border. -/
def lines (headers : List String) (rows : List (List String)) : List String :=
  let widths := widths headers rows
  [border widths, line widths headers, border widths] ++ rows.map (line widths) ++ [border widths]

def text (headers : List String) (rows : List (List String)) : String :=
  String.intercalate "\n" (lines headers rows)

/-- Names with those of a further list that are not among them, each once. -/
def addNames (names : List String) (more : List String) : List String :=
  more.foldl (fun names name => if names.contains name then names else names ++ [name]) names

/-- The names of columns that occur in records, in order of first appearance. -/
def headers (rows : List Record) : List String :=
  rows.foldl (fun names row => addNames names row.keys) []

/-- What a record shows under each of some names, nothing where it has no value. -/
def shownUnder (names : List String) (row : Record) : List String :=
  names.map fun name => ((row.find? name).map Value.shown).getD ""

def ofRows (rows : List Record) : String :=
  text (headers rows) (rows.map (shownUnder (headers rows)))

/-- A schema as a grid of names, types and constraints. -/
def ofSchema (schema : Schema) : String :=
  text ["Column", "Type", "Constraints"] (schema.list.map fun column =>
    [column.name, column.type.name, String.intercalate ", " column.constraints])

end Rowfile.Grid
