import DbApi.Proofs.IndexRuns
import DbApi.Proofs.InsertStatement
import DbApi.Proofs.SelectAnswer
import DbApi.Proofs.Serializability

/-! The data files of a server, from the INSERTs that it has answered. -/

namespace DbApi.Proofs.ServedRows
open Library Storage Index Sql Execution Http DbApi.Core DbApi.Runtime
open TableFile IndexRebuild IndexView StatementOutcome InsertRow FullScan IndexCoherence IndexRuns SelectAnswer
open Serializability

/-- The execution reports a row inserted. -/
def reports (execution : Execution) : Bool :=
  execution.returned && execution.result.ok &&
    execution.result.message == some (.of (ascii "INSERT 1"))

def reportsInsert : List Effect → Bool
  | .executed _ execution :: _ => reports execution
  | _ => false

structure InsertedRow where
  client : Nat
  storageName : Bytes
  rowValues : List Bytes
  id : Int

/-- The text is an INSERT of this row. -/
def Writes (dirs : Directories) (sql : CString) (row : InsertedRow) : Prop :=
  ∃ tokens statement schema, lexSql sql.bytes = .ok tokens ∧
    parseStatement tokens = .ok (.insert statement) ∧
    readSchema dirs statement.tableName = .ok schema ∧ schema.storageName = row.storageName ∧
    buildInsertRow statement schema = .ok row.rowValues

/-- The row is at the end of its file, with the id after those of the lines before it. -/
structure Stored (row : InsertedRow) (content : Bytes) (before after : DataFiles) : Prop where
  found : before row.storageName = some content
  after : after = Function.update before row.storageName
    (some (appendRow content (encodeRow row.rowValues)))
  id : row.id = (dataLines content).length + 1
  line : LinesFit (appendRow content (encodeRow row.rowValues)) →
    dataLines (appendRow content (encodeRow row.rowValues)) =
      dataLines content ++ [(rowOffset content, encodeRow row.rowValues)]

section Statements

variable {dirs : Directories} {db : Database} {client : Nat}

/-- The result of a statement reports a row inserted. -/
def inserts (result : ExecResult) : Bool :=
  result.ok &&
    CString.of (clip serverCoreMessageCapacity result.message) == CString.of (ascii "INSERT 1")

end Statements

def rowsOf (name : Bytes) (inserted : List InsertedRow) : List InsertedRow :=
  inserted.filter (·.storageName = name)

def appendRows (content : Bytes) (rows : List InsertedRow) : Bytes :=
  rows.foldl (fun content row => appendRow content (encodeRow row.rowValues)) content

/-- The files hold what they held at the start and the rows of the answered INSERTs, each once
and in the order of the history, as lines of their own with consecutive ids. -/
structure RowsKept (service : Service) (start : DataFiles) (history : List (Nat × List Effect))
    (db : Database) (inserted : List InsertedRow) : Prop where
  reported : inserted.map InsertedRow.client =
    (history.filter (reportsInsert ·.2)).map Prod.fst
  written : ∀ row ∈ inserted, ∃ request executor sql,
    service.received row.client = .complete request ∧
      service.routed request = .execute executor sql ∧ Writes service.dirs sql row
  files : ∀ name, db.dataFiles name = (start name).map (appendRows · (rowsOf name inserted))
  lines : ∀ name content, start name = some content →
    (dataLines (appendRows content (rowsOf name inserted))).map Prod.snd =
      (dataLines content).map Prod.snd ++ (rowsOf name inserted).map (encodeRow ·.rowValues)
  ids : ∀ name content, start name = some content →
    (rowsOf name inserted).map InsertedRow.id =
      (List.range (rowsOf name inserted).length).map
        fun k => (((dataLines content).length + k + 1 : Nat) : Int)

section History

variable {service : Service} {files : DataFiles} {history : List (Nat × List Effect)}
  {db after : Database} {inserted : List InsertedRow} {client : Nat} {effects : List Effect}
  {row : InsertedRow} {content name : Bytes}

theorem rowsOf_append (name : Bytes) (inserted : List InsertedRow) (row : InsertedRow) :
    rowsOf name (inserted ++ [row]) =
      rowsOf name inserted ++ if row.storageName = name then [row] else [] := by
  unfold rowsOf
  rw [List.filter_append]
  congr 1
  by_cases h : row.storageName = name
  · simp [h]
  · simp [h]

theorem appendRows_append (content : Bytes) (rows : List InsertedRow) (row : InsertedRow) :
    appendRows content (rows ++ [row]) = appendRow (appendRows content rows) (encodeRow row.rowValues) := by
  unfold appendRows
  rw [List.foldl_append]
  rfl

/-- A handling that inserts nothing. -/
theorem RowsKept.quiet (h : RowsKept service files history db inserted)
    (hquiet : reportsInsert effects = false) (hfiles : after.dataFiles = db.dataFiles) :
    RowsKept service files (history ++ [(client, effects)]) after inserted := by
  refine ⟨?_, h.written, ?_, h.lines, h.ids⟩
  · rw [h.reported, List.filter_append, List.filter_cons_of_neg (by simpa using hquiet)]
    simp
  · rw [hfiles]
    exact h.files

theorem RowsKept.inserts (h : RowsKept service files history db inserted)
    (hreports : reportsInsert effects = true) (hclient : row.client = client)
    (hwritten : ∃ request executor sql, service.received row.client = .complete request ∧
      service.routed request = .execute executor sql ∧ Writes service.dirs sql row)
    (hstored : Stored row content db.dataFiles after.dataFiles) (hfit : FilesFit after.dataFiles) :
    RowsKept service files (history ++ [(client, effects)]) after (inserted ++ [row]) := by
  obtain ⟨start, hstart, hcontent⟩ : ∃ start, files row.storageName = some start ∧
      appendRows start (rowsOf row.storageName inserted) = content := by
    have hfiles := h.files row.storageName
    rw [hstored.found] at hfiles
    obtain ⟨start, hstart, heq⟩ := Option.map_eq_some_iff.mp hfiles.symm
    exact ⟨start, hstart, heq⟩
  have hown : after.dataFiles row.storageName =
      some (appendRow content (encodeRow row.rowValues)) := by
    rw [hstored.after, Function.update_self]
  have hline := hstored.line (hfit _ _ hown)
  have hcount := h.lines _ _ hstart
  rw [hcontent] at hcount
  refine ⟨?_, ?_, ?_, ?_, ?_⟩
  · rw [List.map_append, h.reported, List.filter_append,
      List.filter_cons_of_pos (by simpa using hreports), List.map_append]
    simp [hclient]
  · intro other hother
    rcases List.mem_append.mp hother with hold | hnew
    · exact h.written other hold
    · rw [List.mem_singleton.mp hnew]
      exact hwritten
  · intro name
    rw [hstored.after]
    by_cases hname : row.storageName = name
    · subst hname
      rw [Function.update_self, rowsOf_append, if_pos rfl, hstart, Option.map_some,
        appendRows_append, hcontent]
    · rw [Function.update_of_ne (Ne.symm hname), rowsOf_append, if_neg hname, List.append_nil]
      exact h.files name
  · intro name initial hinitial
    by_cases hname : row.storageName = name
    · subst hname
      rw [hstart] at hinitial
      cases hinitial
      rw [rowsOf_append, if_pos rfl, appendRows_append, hcontent, hline, List.map_append, hcount]
      simp
    · rw [rowsOf_append, if_neg hname, List.append_nil]
      exact h.lines name initial hinitial
  · intro name initial hinitial
    by_cases hname : row.storageName = name
    · subst hname
      rw [hstart] at hinitial
      cases hinitial
      have hlength := congrArg List.length hcount
      rw [List.length_map, List.length_append, List.length_map, List.length_map] at hlength
      rw [rowsOf_append, if_pos rfl, List.map_append, h.ids _ _ hstart, List.length_append,
        List.length_singleton, List.range_succ, List.map_append, List.map_singleton,
        List.map_singleton, hstored.id, hlength]
      rfl
    · rw [rowsOf_append, if_neg hname, List.append_nil]
      exact h.ids name initial hinitial

end History

end DbApi.Proofs.ServedRows
