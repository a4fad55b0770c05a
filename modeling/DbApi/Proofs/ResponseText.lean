import DbApi.Proofs.QuotedSelect
import DbApi.Proofs.RequestEffects
import DbApi.Runtime.ExecuteQuery

namespace DbApi.Proofs.Quotes
open Library Common Storage Index Sql Execution Http DbApi.Core DbApi.Runtime
open IndexView IndexCoherence IndexRuns FailedStatement SelectAnswer ReadableText FullScan ScanSelect InsertRow

/-- The body of a response spells characters. -/
def BodyIsUtf8 (response : Bytes) : Prop := ∃ body, Framed response body ∧ Utf8 body

/-- What the answer to a request quotes in a message that a buffer may cut. -/
def requestQuote (request : HttpRequest) (dirs : Directories) (db : Database) : Option Quote :=
  match route request (some (runtimeDependencies dirs)) with
  | .answer _ => none
  | .execute _ sql => statementQuote sql.bytes dirs db

section Engine

variable {dirs : Directories} {db : Database}

theorem PlainAnswer.text {result : ExecResult} (h : PlainAnswer result) :
    Reported none result.message ∧ ∀ table ∈ result.table, TableText table := by
  cases h with
  | failed h => exact ⟨.plain h, fun _ htable => (Option.not_mem_none _ htable).elim⟩
  | answered hc hr =>
    refine ⟨.plain ((ascii_literal _ rfl).append (ascii_decimalNat _)), ?_⟩
    intro table htable
    obtain rfl := Option.some.inj htable
    exact ⟨hc, hr⟩

theorem select_reported {statement : SelectStatement} (htables : TextTables dirs db.dataFiles)
    (hv : Coherent (view db)) (htext : SelectText statement)
    (hcolumns : statement.selectAll = false → statement.columns ≠ []) :
    let result := ((executeSelect statement dirs).run db).1
    Reported (selectQuote statement dirs db.dataFiles) result.message ∧
      ∀ table ∈ result.table, TableText table := by
  have hnothing : ∀ (message : Bytes) (table : ResultTable),
      table ∈ (execError message).table → TableText table :=
    fun _ _ htable => (Option.not_mem_none _ htable).elim
  obtain ⟨hanswer, -⟩ := executeSelect_answer statement dirs db
  intro result
  have hresult : result = selectAnswer statement dirs db.dataFiles
    (standsFor dirs.dataDir (view db)) := hanswer
  rw [hresult]
  have hschema := loadSchema_reported htables htext.tableName
  unfold selectAnswer selectQuote
  cases hs : loadSchema dirs db.dataFiles statement.tableName with
  | error message => exact ⟨hschema.error hs, hnothing message⟩
  | ok schema =>
  have hindexes := @buildSelectIndexes_reported schema statement htext
  dsimp only
  cases hb : buildSelectIndexes statement schema with
  | error message =>
    obtain ⟨column, hunknown, hreport⟩ := hindexes.error hb
    rw [hunknown]
    exact ⟨hreport, hnothing message⟩
  | ok selected =>
  have hnames : AllUtf8 (selected.map Prod.fst) := by
    rw [(buildSelectIndexes_cells hb).1]
    unfold requestedColumns
    split
    · exact (hschema.ok hs).columns
    · exact htext.columns
  have hne : selected ≠ [] := by
    rintro rfl
    exact requested_ne_nil hs hcolumns (buildSelectIndexes_cells hb).1.symm
  have hwhere := @resolveWhereIndex_reported schema statement htext
  obtain ⟨content, hfile, hcontent⟩ := validateCsvHeader_content (loadSchema_ok hs).2
  have hfileText := htables.contents _ content hfile
  dsimp only
  rw [if_neg hne, hindexes.ok hb]
  dsimp only
  cases hw : resolveWhereIndex statement schema with
  | error message => exact ⟨hwhere.error hw, hnothing message⟩
  | ok whereIndex =>
  dsimp only
  rw [hwhere.ok hw]
  apply PlainAnswer.text
  cases statement.whereClause.filter (·.column == ascii "id") with
  | none => exact scanSelect_plain hfile hfileText hcontent hnames dirs.dataDir
  | some condition =>
    exact indexAnswer_plain (v := view db) (hv.agrees _) hfile hfileText hnames

theorem coherent_counting {v : View} (hv : Coherent v) : Counting v := by
  intro name hl
  obtain ⟨content, -, hagrees⟩ := hv.agrees name hl
  exact ⟨_, hagrees.indexes⟩

/-- The buffer of the core cuts nothing more. -/
theorem Reported.utf8_iff {quoted : Option Quote} {message : Bytes} (h : Reported quoted message) :
    Utf8 (cString (clip serverCoreMessageCapacity message)) ↔
      ∀ quote ∈ quoted, quote.EndsOnCharacter := by
  cases h with
  | plain h =>
    exact iff_of_true (h.clip _).utf8.cString fun _ hquote => (Option.not_mem_none _ hquote).elim
  | @quoted quote h =>
    have hkept : quote.kept ≤ serverCoreMessageCapacity - 1 := h.kept.le.trans (by decide)
    have hclip : clip serverCoreMessageCapacity quote.shown = quote.shown := by
      rw [clip, Quote.shown, List.take_take, Nat.min_eq_right hkept]
    have hshown : cString quote.shown = (cString quote.text).take quote.kept :=
      List.take_takeWhile.symm
    rw [hclip, hshown, utf8_take_iff h.whole.cString]
    simp only [Option.mem_def, Option.some.injEq, forall_eq']
    rfl

theorem printTable_utf8 {table : ResultTable} (h : TableText table) :
    Utf8 (printResultTable table) := by
  have hborder : ∀ widths, Utf8 (printTableBorder widths) := by
    intro widths
    refine ((utf8_ascii _ rfl).append ?_).append (utf8_byte (by decide))
    apply Ascii.utf8
    intro b hb
    obtain ⟨width, -, hb⟩ := List.mem_flatMap.mp hb
    rcases List.mem_append.mp hb with hb | hb
    · rw [List.eq_of_mem_replicate hb]
      decide
    · exact ascii_literal _ rfl b hb
  have hrow : ∀ widths row, AllUtf8 row → Utf8 (printTableRow widths row) := by
    intro widths row hcells
    refine ((utf8_ascii _ rfl).append (utf8_flatten ?_)).append (utf8_byte (by decide))
    intro cell hcell
    obtain ⟨index, hindex, rfl⟩ := List.mem_mapIdx.mp hcell
    have hpadding : ∀ width, Ascii (List.replicate width space) := by
      intro width b hb
      rw [List.eq_of_mem_replicate hb]
      decide
    have htext := (hcells _ (List.getElem_mem hindex)).cString
    exact (((utf8_ascii _ rfl).append htext).append (hpadding _).utf8).append (utf8_ascii _ rfl)
  unfold printResultTable
  refine ((((hborder _).append (hrow _ _ h.headers)).append (hborder _)).append ?_).append (hborder _)
  rw [List.flatMap_def]
  apply utf8_flatten
  intro text htext
  obtain ⟨row, hmem, rfl⟩ := List.mem_map.mp htext
  exact hrow _ row (h.rows row hmem)

theorem engine_text {sql : CString} (hsql : Utf8 sql.bytes) (htables : TextTables dirs db.dataFiles)
    (hv : Coherent (view db)) :
    let run := ((serverCoreWeek8EngineRun { sql, dirs }).run db).1
    Utf8 run.output ∧ (Utf8 (cString run.messageBuffer) ↔
      ∀ quote ∈ statementQuote sql.bytes dirs db, quote.EndsOnCharacter) := by
  have hlexed := lexFrom_utf8 0 (cString sql.bytes) hsql.cString
  unfold serverCoreWeek8EngineRun statementQuote
  dsimp only
  cases hl : lexSql sql.bytes with
  | error message => exact ⟨utf8_nil, (Reported.plain (hlexed.error hl)).utf8_iff⟩
  | ok tokens =>
  have hagrees := statement_agrees (hlexed.ok hl)
  dsimp only
  cases hp : Sql.parseStatement tokens with
  | error message =>
    rw [hp] at hagrees
    generalize parseStatement tokens = quoted at hagrees
    cases hagrees with
    | error hfits => exact ⟨utf8_nil, (Reported.quoted hfits).utf8_iff⟩
  | ok statement =>
  rw [hp] at hagrees
  generalize parseStatement tokens = quoted at hagrees
  cases hagrees with
  | ok htext =>
  simp only [Program.run_bind, Program.run_pure]
  cases statement with
  | insert statement =>
    obtain ⟨htable, hreport⟩ := insert_reported htables (coherent_counting hv) htext
    simp only [executeStatement, htable]
    exact ⟨utf8_nil, hreport.utf8_iff⟩
  | select statement =>
    obtain ⟨hreport, htable⟩ := select_reported htables hv htext (parsed_columns hl hp)
    simp only [executeStatement]
    refine ⟨?_, hreport.utf8_iff⟩
    generalize ((executeSelect statement dirs).run db).1.table = table at htable
    cases table with
    | none => exact utf8_nil
    | some table => exact printTable_utf8 (htable table rfl)

end Engine

section Responses

theorem body_utf8 {response body : Bytes} (h : Framed response body) :
    BodyIsUtf8 response ↔ Utf8 body := by
  constructor
  · intro hbody
    obtain ⟨n, hn, hrest, -⟩ := h
    obtain ⟨other, ⟨m, hm, hother, -⟩, hutf8⟩ := hbody
    obtain rfl := Option.some.inj (hn.symm.trans hm)
    rwa [← hrest, hother]
  · exact fun hutf8 => ⟨body, h, hutf8⟩

theorem utf8_of {buffer : Bytes} (h : Utf8 buffer) : Utf8 (CString.of buffer).bytes := h.cString

theorem text_utf8 (chars : List Char) (h : chars.all (·.toNat < 128) = true) :
    Utf8 (text (String.ofList chars)).bytes := utf8_of (utf8_ascii chars h)

theorem error_utf8 (statusCode : Int) {path errorCode message : CString} (hpath : Utf8 path.bytes)
    (hcode : Utf8 errorCode.bytes) (hmessage : Utf8 message.bytes) :
    BodyIsUtf8 (Answer.error statusCode path errorCode message).text := by
  refine (body_utf8 (response_framed statusCode _)).mpr (Json.utf8_printObject _ |>.mpr ?_)
  intro member hmember
  simp only [errorMembers, orDefault, Option.getD_some, List.mem_cons, List.not_mem_nil,
    or_false] at hmember
  rcases hmember with rfl | rfl | rfl | rfl | rfl
  · exact ⟨utf8_ascii _ rfl, trivial⟩
  · exact ⟨utf8_ascii _ rfl, hpath⟩
  · exact ⟨utf8_ascii _ rfl, trivial⟩
  · exact ⟨utf8_ascii _ rfl, hcode⟩
  · exact ⟨utf8_ascii _ rfl, hmessage⟩

/-- Of a query the message decides. -/
theorem query_utf8 (ok : Bool) (statusCode affectedRows : Int) {path message output : CString}
    {errorCode : Option CString} (hpath : Utf8 path.bytes)
    (hcode : Utf8 (orDefault errorCode queryFailed).bytes) (houtput : Utf8 output.bytes) :
    BodyIsUtf8 (Answer.query ok statusCode path errorCode message affectedRows (some output)).text ↔
      Utf8 message.bytes := by
  refine (body_utf8 (response_framed statusCode _)).trans ((Json.utf8_printObject _).trans ?_)
  have hnone : ∀ member ∈ ([] : Json.Members), Utf8 member.1 ∧ member.2.IsUtf8 :=
    fun _ hmember => (List.not_mem_nil hmember).elim
  cases ok with
  | true =>
    change (∀ member ∈ ([_, _, _, _, _, _] : Json.Members), Utf8 member.1 ∧ member.2.IsUtf8) ↔ _
    simp only [List.forall_mem_cons]
    refine ⟨fun h => h.2.2.2.1.2, fun h => ?_⟩
    exact ⟨⟨utf8_ascii _ rfl, trivial⟩, ⟨utf8_ascii _ rfl, hpath⟩, ⟨utf8_ascii _ rfl, trivial⟩,
      ⟨utf8_ascii _ rfl, h⟩, ⟨utf8_ascii _ rfl, trivial⟩, ⟨utf8_ascii _ rfl, houtput⟩, hnone⟩
  | false =>
    change (∀ member ∈ ([_, _, _, _, _, _, _] : Json.Members),
      Utf8 member.1 ∧ member.2.IsUtf8) ↔ _
    simp only [List.forall_mem_cons]
    refine ⟨fun h => h.2.2.2.2.1.2, fun h => ?_⟩
    exact ⟨⟨utf8_ascii _ rfl, trivial⟩, ⟨utf8_ascii _ rfl, hpath⟩, ⟨utf8_ascii _ rfl, trivial⟩,
      ⟨utf8_ascii _ rfl, hcode⟩, ⟨utf8_ascii _ rfl, h⟩, ⟨utf8_ascii _ rfl, trivial⟩,
      ⟨utf8_ascii _ rfl, houtput⟩, hnone⟩

variable {dirs : Directories} {db : Database}

theorem messageText_utf8 (run : EngineRun) :
    Utf8 (cString (messageText run)) ↔ Utf8 (cString run.messageBuffer) := by
  unfold messageText
  split
  · rfl
  · rename_i hempty
    rw [not_not.mp hempty]
    refine iff_of_true ?_ utf8_nil
    split
    · exact (utf8_ascii _ rfl).cString
    · exact (utf8_ascii _ rfl).cString

theorem runtime_execution {sql : CString} (hsql : sql.bytes ≠ []) :
    let run := ((serverCoreWeek8EngineRun { sql, dirs }).run db).1
    ((runtimeExecuteQuery dirs sql).run db).1 =
      { returned := true
        result := {
          ok := run.ok
          affectedRows := clampAffectedRows run.affectedRows
          message := some (.of (messageText run))
          outputText := some (.of run.output) }
        error := [] } := by
  unfold runtimeExecuteQuery serverCoreExecute coreRequest
  dsimp only
  rw [if_neg hsql]
  simp only [Program.run_bind, Program.run_pure, ne_eq, not_true_eq_false, if_false]

/-- The answer to a statement is UTF-8 exactly when its message is not cut inside a character. -/
theorem execution_utf8 {sql path : CString} (hne : sql.bytes ≠ []) (hsql : Utf8 sql.bytes)
    (hpath : Utf8 path.bytes) (htables : TextTables dirs db.dataFiles) (hv : Coherent (view db)) :
    BodyIsUtf8 (executionAnswer path ((runtimeExecuteQuery dirs sql).run db).1).text ↔
      ∀ quote ∈ statementQuote sql.bytes dirs db, quote.EndsOnCharacter := by
  obtain ⟨houtput, hmessage⟩ := engine_text hsql htables hv
  rw [runtime_execution hne, ← hmessage, ← messageText_utf8]
  unfold executionAnswer
  dsimp only
  rw [if_neg (by decide)]
  split
  · exact query_utf8 false 400 _ hpath (text_utf8 _ rfl) (utf8_of houtput)
  · exact query_utf8 true 200 _ hpath (utf8_ascii _ rfl) (utf8_of houtput)

theorem sleep_ascii (request : HttpRequest) : FailsWith Ascii (httpParseDebugSleepMs request) := by
  have hdigits : ∀ (digits : Bytes) (parsedValue : Nat),
      FailsWith Ascii (parseSleep parsedValue digits) := by
    intro digits
    induction digits with
    | nil => exact fun _ => failsWith_ok _
    | cons character rest ih =>
      intro parsedValue
      rw [parseSleep]
      split
      · exact failsWith_error (ascii_literal _ rfl)
      split
      · exact failsWith_error (ascii_literal _ rfl)
      · exact ih _
  unfold httpParseDebugSleepMs
  split
  · exact failsWith_ok _
  split
  · exact failsWith_error (ascii_literal _ rfl)
  · exact hdigits _ _

/-- Before a statement is executed only plain messages are sent. -/
theorem routeQuery_utf8 {σ : Type} {request : HttpRequest}
    {dependencies : Option (HttpServerDependencies σ)} (hpath : Utf8 (cString request.path))
    {answer : Answer} (h : routeQuery request dependencies = .answer answer) :
    BodyIsUtf8 answer.text := by
  have hpath : Utf8 (CString.of request.path).bytes := hpath
  unfold routeQuery at h
  dsimp only at h
  split at h
  · injection h with h
    exact h ▸ error_utf8 _ hpath (text_utf8 _ rfl) (text_utf8 _ rfl)
  split at h
  · injection h with h
    exact h ▸ error_utf8 _ hpath (text_utf8 _ rfl) (text_utf8 _ rfl)
  split at h
  · injection h with h
    exact h ▸ error_utf8 _ hpath (text_utf8 _ rfl) (text_utf8 _ rfl)
  split at h
  · injection h with h
    exact h ▸ error_utf8 _ hpath (text_utf8 _ rfl) (text_utf8 _ rfl)
  split at h
  · rename_i error hsleep
    injection h with h
    have hmessage : Utf8 (errorText error).bytes :=
      utf8_of ((sleep_ascii request error hsleep).clip 256).utf8
    exact h ▸ error_utf8 _ hpath (text_utf8 _ rfl) hmessage
  · cases h

/-- What is executed is the body, and it says something. -/
theorem routeQuery_executes {σ : Type} {request : HttpRequest}
    {dependencies : Option (HttpServerDependencies σ)} {call : CString → σ → Execution × σ}
    {sql : CString} (h : routeQuery request dependencies = .execute call sql) :
    queryExecutor dependencies = some call ∧ sql = .of request.body ∧ sql.bytes ≠ [] := by
  unfold routeQuery at h
  dsimp only at h
  split at h
  · cases h
  split at h
  · cases h
  split at h
  · cases h
  rename_i hblank
  split at h
  · cases h
  rename_i hcall
  split at h
  · cases h
  · injection h with hsame hbody
    refine ⟨hsame ▸ hcall, hbody.symm, ?_⟩
    intro hempty
    refine hblank (.inr ?_)
    rw [hbody, httpTextIsBlank, hempty]
    rfl

theorem sent_text {sendings : List Sending} {answer other : Answer} {response sent : Bytes}
    (h : .answered other response sent ∈ (sendAnswer sendings answer).1) :
    response = answer.text := by
  unfold sendAnswer at h
  cases hbuild : answer.build with
  | error failure =>
    rw [hbuild] at h
    cases h
  | ok out =>
    rw [hbuild] at h
    injection List.mem_singleton.mp h with _ hresponse _
    exact hresponse.trans (build_eq_ok.mp hbuild).2

/-- On tables of UTF-8, after any statements, the response to a request for a statement is UTF-8
exactly when no message in it was cut inside a character. -/
theorem response_utf8_iff (dirs : Directories) (files : DataFiles) (operations : List Operation)
    (request : HttpRequest) (sendings : List Sending) (answer : Answer) (response sent : Bytes)
    (htables : TextTables dirs (runAll dirs operations (startDatabase files)).dataFiles)
    (hpath : cString request.path = ascii "/query") (hbody : Utf8 request.body)
    (hanswered : .answered answer response sent ∈
      (httpRouteRequest request (some (runtimeDependencies dirs)) sendings
        (runAll dirs operations (startDatabase files))).effects) :
    BodyIsUtf8 response ↔
      ∀ quote ∈ requestQuote request dirs (runAll dirs operations (startDatabase files)),
        quote.EndsOnCharacter := by
  have hv := runAll_coherent dirs files operations fun name content hcontent =>
    (htables.contents name content hcontent).fits
  generalize runAll dirs operations (startDatabase files) = db at htables hanswered hv
  have hutf8 : Utf8 (cString request.path) := hpath ▸ utf8_ascii _ rfl
  have hroute : route request (some (runtimeDependencies dirs)) =
      routeQuery request (some (runtimeDependencies dirs)) := by
    unfold route
    rw [if_neg (by rw [hpath]; decide), if_pos hpath]
  unfold requestQuote
  unfold httpRouteRequest at hanswered
  cases hcase : route request (some (runtimeDependencies dirs)) with
  | answer plain =>
    rw [hcase] at hanswered
    rw [sent_text hanswered]
    refine iff_of_true (routeQuery_utf8 hutf8 (hroute ▸ hcase)) ?_
    exact fun _ hquote => (Option.not_mem_none _ hquote).elim
  | execute call sql =>
    obtain ⟨hcall, rfl, hne⟩ := routeQuery_executes (hroute ▸ hcase)
    obtain rfl := Option.some.inj hcall
    rw [hcase] at hanswered
    have hsent : response =
        (executionAnswer (.of request.path)
          ((runtimeExecuteQuery dirs (.of request.body)).run db).1).text := by
      rcases List.mem_cons.mp hanswered with hexecuted | hanswered
      · cases hexecuted
      rcases List.mem_append.mp hanswered with hanswered | hcleaned
      · exact sent_text hanswered
      · cases List.mem_singleton.mp hcleaned
    rw [hsent]
    exact execution_utf8 hne (utf8_of hbody) hutf8 htables hv

end Responses

section Korean

/-- A name of 40 characters of three bytes each. -/
def koreanName : Bytes := (List.replicate 40 '가').flatMap String.utf8EncodeChar

def koreanToken : Token := { type := .identifier, text := koreanName, position := 0 }

def koreanRequest : HttpRequest where
  method := ascii "POST"
  path := ascii "/query"
  version := ascii "HTTP/1.1"
  contentType := ascii "text/plain"
  debugSleepMs := []
  debugSleepMsPresent := false
  contentLength := 120
  body := koreanName

def usersText : Database := startDatabase (usersFiles (ascii "name,age\nBob,21\n"))

theorem usersText_tables : TextTables usersDirectories usersText.dataFiles := by
  have hfile : ∀ content : Bytes, Ascii content → content.length ≤ lineRoom → TextFile content :=
    fun content hascii hlength => ⟨hascii.utf8, fun _ hline _ => hline.length_le.trans hlength⟩
  refine ⟨utf8_ascii _ rfl, utf8_ascii _ rfl, ?_, ?_, ?_⟩
  · intro entry hentry
    rw [List.mem_singleton.mp hentry]
    exact utf8_ascii _ rfl
  · intro entry hentry content hcontent
    rw [List.mem_singleton.mp hentry] at hcontent
    obtain rfl := SchemaEntry.regular.inj hcontent
    exact hfile _ (ascii_literal _ rfl) (by decide +kernel)
  · intro name content hcontent
    change (if name = ascii "users" then some _ else none) = some content at hcontent
    split at hcontent
    · obtain rfl := Option.some.inj hcontent
      exact hfile _ (ascii_literal _ rfl) (by decide +kernel)
    · cases hcontent

theorem koreanName_utf8 : Utf8 koreanName := ⟨List.replicate 40 '가', rfl⟩

theorem koreanName_quote : statementQuote koreanName usersDirectories usersText =
    some (tokenQuote (ascii "only INSERT and SELECT are supported, got ") koreanToken) := by
  have hlex : lexSql koreanName = .ok [koreanToken, { type := .end, text := [], position := 120 }] := by
    decide +kernel
  unfold statementQuote
  rw [hlex]
  rfl

theorem koreanName_cut : ¬ (tokenQuote (ascii "only INSERT and SELECT are supported, got ")
    koreanToken).EndsOnCharacter := by
  unfold Quote.EndsOnCharacter
  decide +kernel

def koreanAnswer : Answer :=
  executionAnswer (.of (ascii "/query"))
    ((runtimeExecuteQuery usersDirectories (.of koreanName)).run usersText).1

theorem korean_answered :
    .answered koreanAnswer koreanAnswer.text (httpSendAll [] koreanAnswer.text).1 ∈
      (httpRouteRequest koreanRequest (some (runtimeDependencies usersDirectories)) []
        usersText).effects := by
  have hfits : koreanAnswer.text.length ≤ INT_MAX := by decide +kernel
  have hroute : route koreanRequest (some (runtimeDependencies usersDirectories)) =
      .execute (fun sql db => (runtimeExecuteQuery usersDirectories sql).run db)
        (.of koreanName) := rfl
  unfold httpRouteRequest
  rw [hroute]
  change _ ∈ Effect.executed _ _ :: ((sendAnswer [] koreanAnswer).1 ++ [_])
  rw [sendAnswer_fits hfits]
  simp

theorem response_utf8_iff_korean : BodyIsUtf8 koreanAnswer.text ↔
    ∀ quote ∈ requestQuote koreanRequest usersDirectories usersText, quote.EndsOnCharacter :=
  response_utf8_iff usersDirectories (usersFiles (ascii "name,age\nBob,21\n")) [] koreanRequest []
    koreanAnswer koreanAnswer.text (httpSendAll [] koreanAnswer.text).1 usersText_tables rfl
    koreanName_utf8 korean_answered

/-- A name of forty Korean characters is cut inside one of them. -/
theorem korean_response_cut : ¬ ∀ (dirs : Directories) (files : DataFiles)
    (operations : List Operation) (request : HttpRequest) (sendings : List Sending)
    (answer : Answer) (response sent : Bytes),
    TextTables dirs (runAll dirs operations (startDatabase files)).dataFiles →
    cString request.path = ascii "/query" → Utf8 request.body →
    .answered answer response sent ∈
      (httpRouteRequest request (some (runtimeDependencies dirs)) sendings
        (runAll dirs operations (startDatabase files))).effects →
    BodyIsUtf8 response := by
  intro hall
  have hbody := hall usersDirectories (usersFiles (ascii "name,age\nBob,21\n")) [] koreanRequest []
    koreanAnswer koreanAnswer.text _ usersText_tables rfl koreanName_utf8 korean_answered
  have hcoherent : Coherent (view usersText) :=
    runAll_coherent usersDirectories _ [] fun name content hcontent =>
      (usersText_tables.contents name content hcontent).fits
  have hof : (CString.of koreanName).bytes = koreanName := by decide +kernel
  have hne : (CString.of koreanName).bytes ≠ [] := by
    rw [hof]
    decide +kernel
  have hquotes := (execution_utf8 hne (utf8_of koreanName_utf8) (utf8_of (utf8_ascii _ rfl))
    usersText_tables hcoherent).mp hbody
  rw [hof, koreanName_quote] at hquotes
  exact koreanName_cut (hquotes _ rfl)

end Korean

end DbApi.Proofs.Quotes
