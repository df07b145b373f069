import ComponentSync.Text.Width
/-!
Tables of text: a header row, then data rows, each cell padded by one space on either side and
to the width of its column. A cell may span lines; its row is then as tall as its tallest cell.

Two frames are drawn: none at all, columns parted by a space; and rounded lines around the
table, between columns, and under the header.
-/
namespace ComponentSync

def columnWidths (rows : List (List String)) : List Nat :=
  let count := rows.foldl (fun n r => max n r.length) 0
  (List.range count).map fun i =>
    rows.foldl (fun w r =>
      let cell := r.getD i ""
      (cell.splitOn "\n").foldl (fun w l => max w (Text.displayWidth l)) w) 0

/-- The lines of one row, each a list of padded cells. -/
def rowLines (widths : List Nat) (row : List String) : List (List String) :=
  let cells := widths.zipIdx.map fun (_, i) => (row.getD i "").splitOn "\n"
  let height := cells.foldl (fun h c => max h c.length) 1
  (List.range height).map fun k =>
    (widths.zip cells).map fun (w, lines) => " " ++ Text.padRight (lines.getD k "") w ++ " "

/-- A table without a frame, columns parted by a space. -/
def Table.blank (rows : List (List String)) : String :=
  let widths := columnWidths rows
  "\n".intercalate (rows.flatMap fun r => (rowLines widths r).map (" ".intercalate ·))

/-- A table framed by rounded lines, with a line under the header. -/
def Table.rounded (rows : List (List String)) : String :=
  let widths := columnWidths rows
  let rule (left mid right : String) : String :=
    left ++ mid.intercalate (widths.map fun w => String.ofList (List.replicate (w + 2) '─')) ++
      right
  let body (r : List String) : List String :=
    (rowLines widths r).map fun cells => "│" ++ "│".intercalate cells ++ "│"
  match rows with
  | [] => ""
  | header :: data =>
    "\n".intercalate ([rule "╭" "┬" "╮"] ++ body header ++ [rule "├" "┼" "┤"] ++
      data.flatMap body ++ [rule "╰" "┴" "╯"])

end ComponentSync
