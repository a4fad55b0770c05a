import DbApi.Execution.Executor

namespace DbApi.Execution
open Library

/-- A row may widen the columns. -/
def widenColumns (columnWidths : List Nat) (row : List Bytes) : List Nat :=
  columnWidths.mapIdx fun columnIndex columnWidth =>
    let width := (cString (row[columnIndex]?.getD [])).length
    if columnWidth < width then width else columnWidth

def computeTableWidths (headers : List Bytes) (rows : List (List Bytes)) : List Nat :=
  rows.foldl widenColumns (headers.map fun header => (cString header).length)

def printTableBorder (columnWidths : List Nat) : Bytes :=
  ascii "+" ++
    columnWidths.flatMap (fun columnWidth => List.replicate (columnWidth + 2) 45 ++ ascii "+") ++
    [lineFeed]

/-- A cell is padded up to the width of its column, and never cut. -/
def printTableRow (columnWidths : List Nat) (row : List Bytes) : Bytes :=
  ascii "|" ++
    (row.mapIdx fun columnIndex cell =>
      ascii " " ++ cString cell ++
        List.replicate (columnWidths[columnIndex]?.getD 0 - (cString cell).length) space ++
        ascii " |").flatten ++
    [lineFeed]

/-- What `print_result_table` writes. -/
def printResultTable (table : ResultTable) : Bytes :=
  let columnWidths := computeTableWidths table.headers table.rows
  printTableBorder columnWidths ++ printTableRow columnWidths table.headers ++
    printTableBorder columnWidths ++ table.rows.flatMap (printTableRow columnWidths) ++
    printTableBorder columnWidths

end DbApi.Execution
