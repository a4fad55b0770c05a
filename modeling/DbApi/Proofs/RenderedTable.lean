import DbApi.Execution.ResultTable

namespace DbApi.Proofs.RenderedTable
open Library Execution

/-- The text of a cell, empty where the row has none. -/
def cellText (row : List Bytes) (column : Nat) : Bytes := cString (row[column]?.getD [])

/-- The length of the longest text of a column, its header included. -/
def columnWidth (table : ResultTable) (column : Nat) : Nat :=
  ((table.headers :: table.rows).map fun row => (cellText row column).length).foldr max 0

def frameLine (table : ResultTable) : Bytes :=
  ascii "+" ++ (List.range table.headers.length).flatMap fun column =>
    List.replicate (columnWidth table column + 2) 45 ++ ascii "+"

def rowLine (table : ResultTable) (row : List Bytes) : Bytes :=
  ascii "|" ++ (List.range table.headers.length).flatMap fun column =>
    ascii " " ++ (cellText row column).rightpad (columnWidth table column) space ++ ascii " |"

/-- The header between two frame lines, the rows, and a last frame line. -/
def tableLines (table : ResultTable) : List Bytes :=
  [frameLine table, rowLine table table.headers, frameLine table] ++
    table.rows.map (rowLine table) ++ [frameLine table]

/-- The output is this table, complete and with nothing around it. -/
structure Rendered (table : ResultTable) (output : Bytes) : Prop where
  columns : table.headers ≠ []
  rectangular : ∀ row ∈ table.rows, row.length = table.headers.length
  lines : output = (tableLines table).flatMap (· ++ [lineFeed])

theorem cellText_le {table : ResultTable} {row : List Bytes}
    (hr : row = table.headers ∨ row ∈ table.rows) (column : Nat) :
    (cellText row column).length ≤ columnWidth table column := by
  have hmem : (cellText row column).length ∈
      (table.headers :: table.rows).map fun row => (cellText row column).length := by
    refine List.mem_map.mpr ⟨row, ?_, rfl⟩
    rcases hr with rfl | hr
    · exact List.mem_cons_self
    · exact List.mem_cons_of_mem _ hr
  have hmax : ∀ lengths : List Nat, ∀ n ∈ lengths, n ≤ lengths.foldr max 0 := by
    intro lengths
    induction lengths with
    | nil => simp
    | cons first rest ih =>
      intro n hn
      rcases List.mem_cons.mp hn with rfl | hn
      · exact le_max_left _ _
      · exact (ih n hn).trans (le_max_right _ _)
  exact hmax _ _ hmem

/-- The lines of a rendered table are all as long as its frame. -/
theorem lines_aligned (table : ResultTable) :
    ∀ line ∈ tableLines table, line.length = (frameLine table).length := by
  have hrow (row : List Bytes) (hr : row = table.headers ∨ row ∈ table.rows) :
      (rowLine table row).length = (frameLine table).length := by
    simp only [rowLine, frameLine, List.length_append, List.length_flatMap]
    have hone : (ascii "|").length = (ascii "+").length := by decide
    have hcell : ∀ column, (ascii " " ++ (cellText row column).rightpad (columnWidth table column)
        space ++ ascii " |").length =
        (List.replicate (columnWidth table column + 2) (45 : UInt8) ++ ascii "+").length := by
      intro column
      have hle := cellText_le hr column
      have h1 : (ascii " ").length = 1 := by decide
      have h2 : (ascii " |").length = 2 := by decide
      have h3 : (ascii "+").length = 1 := by decide
      simp only [List.length_append, List.length_rightpad, List.length_replicate, h1, h2, h3]
      omega
    simp only [List.length_append] at hcell
    simp only [hone, hcell]
  intro line hl
  simp only [tableLines, List.mem_append, List.mem_cons, List.mem_map, List.not_mem_nil,
    or_false] at hl
  rcases hl with ((rfl | rfl | rfl) | ⟨row, hr, rfl⟩) | rfl
  · rfl
  · exact hrow _ (.inl rfl)
  · rfl
  · exact hrow row (.inr hr)
  · rfl

theorem widenColumns_getElem? (columnWidths : List Nat) (row : List Bytes) (column : Nat) :
    (widenColumns columnWidths row)[column]? =
      columnWidths[column]?.map (max · (cellText row column).length) := by
  rw [widenColumns, List.getElem?_mapIdx]
  congr 1
  funext width
  simp only [cellText]
  split
  · rename_i hlt
    exact (max_eq_right hlt.le).symm
  · rename_i hge
    exact (max_eq_left (not_lt.mp hge)).symm

theorem foldl_widen (rows : List (List Bytes)) (columnWidths : List Nat) (column : Nat) :
    (rows.foldl widenColumns columnWidths)[column]? =
      columnWidths[column]?.map
        (max · ((rows.map fun row => (cellText row column).length).foldr max 0)) := by
  induction rows generalizing columnWidths with
  | nil => simp
  | cons row rows ih =>
    rw [List.foldl_cons, ih, widenColumns_getElem?, Option.map_map, List.map_cons, List.foldr_cons]
    congr 1
    funext width
    simp only [Function.comp_apply, max_assoc]

/-- The loops over headers and rows find the widest text of each column. -/
theorem computeTableWidths_eq (table : ResultTable) :
    computeTableWidths table.headers table.rows =
      (List.range table.headers.length).map (columnWidth table) := by
  apply List.ext_getElem?
  intro column
  rw [computeTableWidths, foldl_widen, List.getElem?_map, List.getElem?_map]
  cases hc : table.headers[column]? with
  | none =>
    rw [List.getElem?_eq_none (by simpa using hc)]
    rfl
  | some header =>
    rw [List.getElem?_range (List.getElem?_eq_some_iff.mp hc).1]
    simp [columnWidth, cellText, hc]

theorem printTableBorder_eq (table : ResultTable) :
    printTableBorder (computeTableWidths table.headers table.rows) =
      frameLine table ++ [lineFeed] := by
  rw [computeTableWidths_eq, printTableBorder, frameLine, List.flatMap_map]

theorem printTableRow_eq {table : ResultTable} {row : List Bytes}
    (hl : row.length = table.headers.length) :
    printTableRow (computeTableWidths table.headers table.rows) row =
      rowLine table row ++ [lineFeed] := by
  have hcells : (row.mapIdx fun columnIndex cell =>
      ascii " " ++ cString cell ++
        List.replicate ((computeTableWidths table.headers table.rows)[columnIndex]?.getD 0 -
          (cString cell).length) space ++ ascii " |") =
      (List.range table.headers.length).map fun column =>
        ascii " " ++ (cellText row column).rightpad (columnWidth table column) space ++
          ascii " |" := by
    apply List.ext_getElem?
    intro column
    rw [computeTableWidths_eq, List.getElem?_mapIdx, List.getElem?_map, List.getElem?_map]
    cases hc : row[column]? with
    | none =>
      rw [List.getElem?_eq_none (by simpa [hl] using hc)]
      rfl
    | some cell =>
      rw [List.getElem?_range (hl ▸ (List.getElem?_eq_some_iff.mp hc).1)]
      simp [cellText, hc, List.rightpad]
  rw [printTableRow, hcells, rowLine, List.flatMap_def]

theorem print_rendered {table : ResultTable} (hc : table.headers ≠ [])
    (hr : ∀ row ∈ table.rows, row.length = table.headers.length) :
    Rendered table (printResultTable table) := by
  refine ⟨hc, hr, ?_⟩
  have hrows : table.rows.flatMap (printTableRow (computeTableWidths table.headers table.rows)) =
      (table.rows.map (rowLine table)).flatMap (· ++ [lineFeed]) := by
    rw [List.flatMap_map]
    exact List.flatMap_congr fun row hm => printTableRow_eq (hr row hm)
  simp only [printResultTable, printTableBorder_eq, printTableRow_eq rfl, hrows, tableLines,
    List.flatMap_append, List.flatMap_cons, List.flatMap_nil, List.append_nil, List.append_assoc]

section ReadBack

/-- Where the `+` of a border line stand, counted from `start`. -/
def plusPositions (start : Nat) : Bytes → List Nat
  | [] => []
  | b :: rest =>
    if b = 43 then start :: plusPositions (start + 1) rest else plusPositions (start + 1) rest

/-- The pieces of a line between each boundary and the next. -/
def cutBetween (line : Bytes) : List Nat → List Bytes
  | low :: high :: rest => (line.take high).drop (low + 1) :: cutBetween line (high :: rest)
  | _ => []

/-- A cell behind its margin, with nothing but blanks after it. -/
def Holds (piece cell : Bytes) : Prop :=
  ∃ padding, piece = space :: (cString cell ++ List.replicate (padding + 1) space)

/-- The boundaries of the border cut the line into just these cells. -/
def ReadsBack (border line : Bytes) (row : List Bytes) : Prop :=
  List.Forall₂ Holds (cutBetween line (plusPositions 0 border)) row

theorem plusPositions_dashes (start n : Nat) (rest : Bytes) :
    plusPositions start (List.replicate n 45 ++ rest) = plusPositions (start + n) rest := by
  induction n generalizing start with
  | zero => rfl
  | succ n ih =>
    rw [List.replicate_succ, List.cons_append, plusPositions, if_neg (by decide), ih]
    congr 1
    omega

/-- Pieces as wide as the border's are found again between its boundaries. -/
theorem cut_pieces (front : Bytes) {pieces : List Bytes} {widths : List Nat}
    (hw : widths = pieces.map List.length) :
    cutBetween (front ++ 124 :: pieces.flatMap (· ++ [124]))
      (plusPositions front.length
        (43 :: widths.flatMap fun width => List.replicate width 45 ++ [43])) = pieces := by
  subst hw
  induction pieces generalizing front with
  | nil => rfl
  | cons piece pieces ih =>
    have hlength : (front ++ 124 :: piece).length = front.length + 1 + piece.length := by
      simp only [List.length_append, List.length_cons]
      omega
    have hline : front ++ 124 :: (piece :: pieces).flatMap (· ++ [124]) =
        (front ++ 124 :: piece) ++ 124 :: pieces.flatMap (· ++ [124]) := by simp
    have hrest := ih (front ++ 124 :: piece)
    rw [plusPositions, if_pos rfl] at hrest ⊢
    have hboundary : plusPositions (front.length + 1)
        (((piece :: pieces).map List.length).flatMap fun width => List.replicate width 45 ++ [43]) =
        (front.length + 1 + piece.length) :: plusPositions (front.length + 1 + piece.length + 1)
          ((pieces.map List.length).flatMap fun width => List.replicate width 45 ++ [43]) := by
      rw [List.map_cons, List.flatMap_cons, List.append_assoc, plusPositions_dashes,
        List.singleton_append, plusPositions, if_pos rfl]
    rw [hlength] at hrest
    rw [hboundary, hline, cutBetween, hrest]
    have hpiece : ((front ++ 124 :: piece ++ 124 :: pieces.flatMap (· ++ [124])).take
        (front.length + 1 + piece.length)).drop (front.length + 1) = piece := by
      rw [← hlength, List.take_left, List.append_cons, ← List.length_singleton (a := (124 : UInt8)),
        ← List.length_append, List.drop_left]
    rw [hpiece]

theorem rowLine_pieces (table : ResultTable) (row : List Bytes) :
    rowLine table row = 124 :: ((List.range table.headers.length).map fun column =>
      space :: ((cellText row column).rightpad (columnWidth table column) space ++
        [space])).flatMap (· ++ [124]) := by
  simp [rowLine, ascii, List.flatMap_map, space]

theorem frameLine_widths (table : ResultTable) :
    frameLine table = 43 :: ((List.range table.headers.length).map fun column =>
      columnWidth table column + 2).flatMap fun width => List.replicate width 45 ++ [43] := by
  simp [frameLine, ascii, List.flatMap_map]

/-- Each line of cells is cut into its cells by the border. -/
theorem reads_back {table : ResultTable} {row : List Bytes}
    (hr : row = table.headers ∨ row ∈ table.rows) (hl : row.length = table.headers.length) :
    ReadsBack (frameLine table) (rowLine table row) row := by
  have hwidths : ((List.range table.headers.length).map fun column =>
      columnWidth table column + 2) = ((List.range table.headers.length).map fun column =>
        space :: ((cellText row column).rightpad (columnWidth table column) space ++
          [space])).map List.length := by
    rw [List.map_map]
    apply List.map_congr_left
    intro column _
    have hle := cellText_le hr column
    simp only [Function.comp_apply, List.length_cons, List.length_append, List.length_rightpad,
      List.length_nil]
    omega
  have hcut := cut_pieces [] hwidths
  rw [List.nil_append, List.length_nil] at hcut
  rw [ReadsBack, rowLine_pieces, frameLine_widths, hcut]
  rw [List.forall₂_iff_get]
  refine ⟨by simp [hl], ?_⟩
  intro column h1 h2
  refine ⟨columnWidth table column - (cString row[column]).length, ?_⟩
  simp [cellText, List.rightpad, List.getElem?_eq_getElem h2, List.replicate_succ']

/-- No byte of a line ends it. -/
theorem lines_whole {table : ResultTable}
    (hn : ∀ row ∈ table.headers :: table.rows, ∀ cell ∈ row, lineFeed ∉ cell) :
    ∀ line ∈ tableLines table, lineFeed ∉ line := by
  have hframe : lineFeed ∉ frameLine table := by
    rw [frameLine_widths]
    simp [lineFeed]
  have hrow (row : List Bytes) (hr : row ∈ table.headers :: table.rows) :
      lineFeed ∉ rowLine table row := by
    have hcell : ∀ column, lineFeed ∉ cellText row column := by
      intro column hm
      rw [cellText] at hm
      have hmem := (List.takeWhile_prefix _).subset hm
      cases hc : row[column]? with
      | none => simp [hc] at hmem
      | some cell =>
        rw [hc] at hmem
        exact hn row hr cell (List.mem_of_getElem? hc) hmem
    have hspace : lineFeed ≠ space := by decide
    rw [rowLine_pieces]
    simp only [List.mem_cons, List.mem_flatMap, List.mem_map, List.mem_range, List.mem_append,
      not_or, not_exists, not_and]
    refine ⟨by decide, ?_⟩
    rintro _ ⟨column, _, rfl⟩
    simp [List.rightpad, hcell column, hspace, List.mem_replicate]
    decide
  intro line hl
  simp only [tableLines, List.mem_append, List.mem_cons, List.mem_map, List.not_mem_nil,
    or_false] at hl
  rcases hl with ((rfl | rfl | rfl) | ⟨row, hr, rfl⟩) | rfl
  · exact hframe
  · exact hrow _ List.mem_cons_self
  · exact hframe
  · exact hrow row (List.mem_cons_of_mem _ hr)
  · exact hframe

/-- The output is a rectangle of a line for each row and four more, in which every line
of cells is cut back into its cells by the border. -/
theorem table_reads_back (table : ResultTable) (hc : table.headers ≠ [])
    (hr : ∀ row ∈ table.rows, row.length = table.headers.length)
    (hn : ∀ row ∈ table.headers :: table.rows, ∀ cell ∈ row, lineFeed ∉ cell) :
    ∃ border header lines, printResultTable table =
        (border :: header :: border :: lines ++ [border]).flatMap (· ++ [lineFeed]) ∧
      (∀ line ∈ border :: header :: border :: lines ++ [border],
        lineFeed ∉ line ∧ line.length = border.length) ∧
      ReadsBack border header table.headers ∧ List.Forall₂ (ReadsBack border) lines table.rows := by
  refine ⟨frameLine table, rowLine table table.headers, table.rows.map (rowLine table),
    (print_rendered hc hr).lines, ?_, reads_back (.inl rfl) rfl, ?_⟩
  · intro line hl
    exact ⟨lines_whole hn line hl, lines_aligned table line hl⟩
  · rw [List.forall₂_map_left_iff, List.forall₂_same]
    intro row hm
    exact reads_back (.inr hm) (hr row hm)

theorem table_reads_back_users :
    ∃ border header lines, printResultTable { headers := [[105, 100]], rows := [[[124]], [[43, 45]]] } =
        (border :: header :: border :: lines ++ [border]).flatMap (· ++ [lineFeed]) ∧
      (∀ line ∈ border :: header :: border :: lines ++ [border],
        lineFeed ∉ line ∧ line.length = border.length) ∧
      ReadsBack border header [[105, 100]] ∧
        List.Forall₂ (ReadsBack border) lines [[[124]], [[43, 45]]] :=
  table_reads_back { headers := [[105, 100]], rows := [[[124]], [[43, 45]]] } (by simp) (by simp)
    (by decide)

end ReadBack

end DbApi.Proofs.RenderedTable
