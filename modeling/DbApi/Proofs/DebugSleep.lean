import DbApi.Http.DebugSleep
import DbApi.Proofs.HeadLines

/-! The header for the delay of a query. Its value is kept in a field of the request by the
header parser and read from there by the router, so that what the parser does not keep never
reaches the check of the router. -/

namespace DbApi.Proofs.DebugSleep
open Library Http

def sleepName : Bytes := ascii "X-Debug-Sleep-Ms"

/-- The line of a header by that name. -/
def isSleepLine (line : Bytes) : Bool :=
  match memchr 58 line with
  | none => false
  | some colon => httpAsciiEqualsIgnoreCase (httpTrimSpan (line.take colon)) sleepName

/-- A request with such a header among its others. -/
structure SleepRequest where
  requestLine : Bytes
  before : List Bytes
  name : Bytes
  value : Bytes
  after : List Bytes
  body : Bytes

namespace SleepRequest

variable (m : SleepRequest)

def sleepLine : Bytes := headerLine (m.name, m.value)

def serialise : Bytes := messageBytes m.requestLine (m.before ++ m.sleepLine :: m.after) m.body

/-- The request without that header. -/
def others : Bytes := messageBytes m.requestLine (m.before ++ m.after) m.body

end SleepRequest

/-- Without the header it is a query, and the header is its only one by that name. -/
structure OtherwiseValid (m : SleepRequest) (request : HttpRequest) : Prop where
  requestLine : Unbroken m.requestLine
  lines : ∀ line ∈ m.before ++ m.sleepLine :: m.after, line ≠ [] ∧ Unbroken line
  colon : 58 ∉ m.name
  name : named sleepName (m.name, m.value) = true
  once : ∀ line ∈ m.before ++ m.after, isSleepLine line = false
  parsed : httpParseRequest m.others = .ok request
  body : request.body = m.body
  query : IsQuery request

/-- The fields of the parser that the header sets. -/
def setSleep (debugSleepMs : Bytes) (present saw : Bool) (state : HeaderState) : HeaderState :=
  { state with
    request := { state.request with debugSleepMs, debugSleepMsPresent := present }
    sawDebugSleepMs := saw }

section Parsing

variable {debugSleepMs : Bytes} {present saw : Bool}

theorem contentLength_setSleep (state : HeaderState) (value : Bytes) :
    parseContentLengthHeader (setSleep debugSleepMs present saw state) value =
      (parseContentLengthHeader state value).map (setSleep debugSleepMs present saw) := by
  cases hsaw : state.sawContentLength with
  | true => simp [parseContentLengthHeader, setSleep, hsaw, Except.map]
  | false =>
    cases hvalue : httpParseContentLength value with
    | error error => simp [parseContentLengthHeader, setSleep, hsaw, hvalue, Except.map]
    | ok contentLength => simp [parseContentLengthHeader, setSleep, hsaw, hvalue, Except.map]

theorem contentType_setSleep (state : HeaderState) (value : Bytes) :
    parseContentTypeHeader (setSleep debugSleepMs present saw state) value =
      (parseContentTypeHeader state value).map (setSleep debugSleepMs present saw) := by
  cases hsaw : state.sawContentType with
  | true => simp [parseContentTypeHeader, setSleep, hsaw, Except.map]
  | false =>
    by_cases hzero : value.length = 0
    · simp [parseContentTypeHeader, setSleep, hsaw, hzero, Except.map]
      rfl
    · cases hcopy : httpCopySpan 64 value (ascii "Content-Type") with
      | error error => simp [parseContentTypeHeader, setSleep, hsaw, hzero, hcopy, Except.map]
      | ok contentType => simp [parseContentTypeHeader, setSleep, hsaw, hzero, hcopy, Except.map]

/-- The other headers leave those fields alone, and do not look at them. -/
theorem parseHeaderLine_setSleep {line : Bytes} (h : isSleepLine line = false)
    (state : HeaderState) :
    parseHeaderLine (setSleep debugSleepMs present saw state) line =
      (parseHeaderLine state line).map (setSleep debugSleepMs present saw) := by
  rw [parseHeaderLine, parseHeaderLine]
  split
  · rfl
  · rw [isSleepLine] at h
    cases hcolon : memchr 58 line with
    | none => rfl
    | some colon =>
      rw [hcolon] at h
      dsimp only at h ⊢
      rw [sleepName] at h
      rw [parseHeader, parseHeader, h]
      simp only [Bool.false_eq_true, ↓reduceIte]
      split_ifs
      · rfl
      · exact contentLength_setSleep state _
      · exact contentType_setSleep state _
      · rfl
      · rfl

theorem lines_setSleep {lines : List Bytes} (h : ∀ line ∈ lines, isSleepLine line = false)
    (state : HeaderState) :
    lines.foldlM parseHeaderLine (setSleep debugSleepMs present saw state) =
      (lines.foldlM parseHeaderLine state).map (setSleep debugSleepMs present saw) := by
  induction lines generalizing state with
  | nil => rfl
  | cons line lines ih =>
    obtain ⟨hline, hlines⟩ := List.forall_mem_cons.mp h
    rw [List.foldlM_cons, List.foldlM_cons, parseHeaderLine_setSleep hline]
    cases parseHeaderLine state line with
    | error error => rfl
    | ok next => exact ih hlines next

theorem sleepLine_read {name : Bytes} (hcolon : 58 ∉ name) (value : Bytes)
    (hname : named sleepName (name, value) = true) {state : HeaderState}
    (hfirst : state.sawDebugSleepMs = false) :
    parseHeaderLine state (headerLine (name, value)) =
      (httpCopySpan 16 (httpTrimSpan value) sleepName).map fun v => setSleep v true true state := by
  have hlength : named contentLengthName (name, value) = false := named_one hname (by decide)
  have htype : named contentTypeName (name, value) = false := named_one hname (by decide)
  have hempty : (httpTrimSpan name).length ≠ 0 := by
    intro hzero
    rw [named, List.length_eq_zero_iff.mp hzero] at hname
    exact absurd hname (by decide)
  rw [parseHeaderLine_line hcolon, parseHeader, if_neg hempty]
  change (if named contentLengthName (name, value) = true then _
    else if named contentTypeName (name, value) = true then _
    else if named sleepName (name, value) = true then _ else _) = _
  rw [hlength, htype, hname, if_neg Bool.false_ne_true, if_neg Bool.false_ne_true, if_pos rfl,
    parseDebugSleepMsHeader, hfirst, if_neg Bool.false_ne_true]
  change httpCopySpan 16 (httpTrimSpan value) sleepName >>= _ = _
  cases httpCopySpan 16 (httpTrimSpan value) sleepName with
  | error error => rfl
  | ok copied => rfl

end Parsing

/-- The bytes of the head. -/
def SleepRequest.headLength (m : SleepRequest) : Nat :=
  (joinLines m.requestLine (m.before ++ m.sleepLine :: m.after)).length + 4

/-- The header is read into its field, or ends the reading of the request. -/
theorem head_read {m : SleepRequest} {request : HttpRequest} (h : OtherwiseValid m request) :
    ∃ parsed : HttpRequest, request = { parsed with body := m.body } ∧
      parsed.contentLength = m.body.length ∧
      parseHead m.serialise = (httpCopySpan 16 (httpTrimSpan m.value) sleepName).map fun v =>
        ({ parsed with debugSleepMs := v, debugSleepMsPresent := true }, m.headLength) := by
  have hlines : ∀ line ∈ m.before ++ m.after, line ≠ [] ∧ Unbroken line := by
    intro line hline
    apply h.lines
    rcases List.mem_append.mp hline with hbefore | hafter
    · exact List.mem_append_left _ hbefore
    · exact List.mem_append_right _ (List.mem_cons_of_mem _ hafter)
  have hparsed := h.parsed
  rw [httpParseRequest, SleepRequest.others, parseHead_lines h.requestLine hlines] at hparsed
  obtain ⟨⟨parsed, headLength⟩, hhead, hbody⟩ := except_bind_ok.mp hparsed
  obtain ⟨line, hline, hstates⟩ := except_bind_ok.mp hhead
  obtain ⟨final, hfinal, hpair⟩ := except_bind_ok.mp hstates
  obtain ⟨rfl, rfl⟩ := Prod.mk.inj (Except.ok.inj hpair)
  dsimp only at hbody
  rw [messageBytes_body, messageBytes_length] at hbody
  split at hbody
  · cases hbody
  · rename_i hfits
    have hrequest := Except.ok.inj hbody
    have hwhole : m.body.take final.request.contentLength = m.body :=
      (congrArg HttpRequest.body hrequest).trans h.body
    have hlength : final.request.contentLength = m.body.length := by
      have := congrArg List.length hwhole
      rw [List.length_take] at this
      omega
    refine ⟨final.request, ?_, hlength, ?_⟩
    · rw [← hrequest, hwhole]
    · rw [List.foldlM_append] at hfinal
      obtain ⟨middle, hbefore, hafter⟩ := except_bind_ok.mp hfinal
      obtain ⟨hbeforeLines, hafterLines⟩ := List.forall_mem_append.mp h.once
      -- Before the header its fields are as they were set at the start.
      have hfirst : middle.sawDebugSleepMs = false := by
        have hstart := @lines_setSleep line.debugSleepMs line.debugSleepMsPresent false _
          hbeforeLines (freshState line)
        change m.before.foldlM parseHeaderLine (freshState line) = _ at hstart
        rw [hbefore] at hstart
        exact congrArg HeaderState.sawDebugSleepMs (Except.ok.inj hstart)
      rw [SleepRequest.serialise, parseHead_lines h.requestLine h.lines, hline, except_ok_bind,
        List.foldlM_append, hbefore, except_ok_bind, List.foldlM_cons, SleepRequest.sleepLine,
        sleepLine_read h.colon _ h.name hfirst]
      cases httpCopySpan 16 (httpTrimSpan m.value) sleepName with
      | error error => rfl
      | ok copied =>
        have hrest := @lines_setSleep copied true true _ hafterLines middle
        rw [hafter] at hrest
        change (m.after.foldlM parseHeaderLine (setSleep copied true true middle) >>= _) = _
        rw [hrest]
        rfl

/-- The delay that a numeral denotes, where it is within the limit. -/
def delay (value : Bytes) : Option Nat :=
  (number value).filter fun sleepMs => sleepMs ≤ HTTP_DEBUG_SLEEP_MAX_MS

theorem delay_some {value : Bytes} {sleepMs : Nat} :
    delay value = some sleepMs ↔
      (value ≠ [] ∧ value.all isDigit = true) ∧ digitsValue value = sleepMs ∧
        sleepMs ≤ HTTP_DEBUG_SLEEP_MAX_MS := by
  rw [delay, Option.filter_eq_some_iff, number]
  simp only [Option.ite_none_right_eq_some, Option.some.injEq, decide_eq_true_eq, and_assoc]

/-- A NUL is no digit. -/
theorem delay_nul {value : Bytes} (h : nul ∈ value) : delay value = none := by
  cases hdelay : delay value with
  | none => rfl
  | some sleepMs =>
    have hdigit := List.all_eq_true.mp (delay_some.mp hdelay).1.2 nul h
    cases hdigit

theorem parseSleep_value {parsedValue sleepMs : Nat} {digits : Bytes}
    (h : parseSleep parsedValue digits = .ok sleepMs) :
    sleepMs = digits.foldl (fun n d => 10 * n + (d.toNat - 48)) parsedValue := by
  induction digits generalizing parsedValue with
  | nil => exact (Except.ok.inj h).symm
  | cons d digits ih =>
    rw [parseSleep] at h
    split at h
    · cases h
    · split at h
      · cases h
      · rw [List.foldl_cons, Nat.mul_comm 10]
        exact ih h

/-- What the router makes of the field. -/
theorem sleep_parsed (request : HttpRequest) (value : Bytes) :
    (∀ sleepMs, delay (cString value) = some sleepMs →
      httpParseDebugSleepMs { request with debugSleepMs := value, debugSleepMsPresent := true } =
        .ok sleepMs) ∧
    (delay (cString value) = none → ∃ error,
      httpParseDebugSleepMs { request with debugSleepMs := value, debugSleepMsPresent := true } =
        .error error) := by
  have hok := @parseDebugSleepMs_ok
    { request with debugSleepMs := value, debugSleepMsPresent := true }
  constructor
  · intro sleepMs hdelay
    obtain ⟨⟨hne, hdigits⟩, hvalue, hlimit⟩ := delay_some.mp hdelay
    obtain ⟨parsed, hparsed⟩ := hok.mpr fun _ =>
      ⟨hne, List.all_eq_true.mp hdigits, hvalue.trans_le hlimit⟩
    rw [hparsed]
    rw [httpParseDebugSleepMs, if_neg (by simp)] at hparsed
    dsimp only at hparsed
    cases hstring : cString value with
    | nil => exact absurd hstring hne
    | cons d digits =>
      rw [hstring] at hparsed hvalue
      rw [parseSleep_value hparsed, ← hvalue]
      rfl
  · intro hdelay
    cases hparsed : httpParseDebugSleepMs
        { request with debugSleepMs := value, debugSleepMsPresent := true } with
    | error error => exact ⟨error, rfl⟩
    | ok sleepMs =>
      obtain ⟨hne, hdigits, hlimit⟩ := hok.mp ⟨sleepMs, hparsed⟩ rfl
      have hsome := delay_some.mpr ⟨⟨hne, List.all_eq_true.mpr hdigits⟩, rfl, hlimit⟩
      rw [hdelay] at hsome
      cases hsome

def Step.nanoseconds : Step → Nat
  | .slept requested => requested.tvSec * 1000000000 + requested.tvNsec
  | .did _ => 0

/-- Nothing but sleep, and in sum that much of it. -/
def Sleeps (sleepMs : Nat) (steps : List Step) : Prop :=
  (∀ step ∈ steps, ∃ requested, step = .slept requested) ∧
    (steps.map Step.nanoseconds).sum = sleepMs * 1000000

theorem whole_milliseconds (sleepMs : Nat) :
    sleepMs / 1000 * 1000000000 + sleepMs % 1000 * 1000000 = sleepMs * 1000000 := by
  have hsplit := Nat.div_add_mod sleepMs 1000
  generalize sleepMs / 1000 = seconds at *
  generalize sleepMs % 1000 = rest at *
  subst hsplit
  ring

theorem sleeps_milliseconds (sleepMs : Nat) : Sleeps sleepMs (httpSleepMilliseconds sleepMs) := by
  rw [httpSleepMilliseconds]
  split
  · rename_i hzero
    subst hzero
    simp [Sleeps]
  · constructor
    · intro step hstep
      exact ⟨_, List.mem_singleton.mp hstep⟩
    · rw [List.map_singleton, List.sum_singleton, Step.nanoseconds, whole_milliseconds]

variable {σ : Type} {config : Option Nat} {dependencies : Option (HttpServerDependencies σ)}
variable {client : Client} {sendings : List Sending} {engine : σ}

/-- The value of the header decides: a delay within the limit is slept before the statement
is executed, and any other value is answered as an invalid header. -/
def KeepsContract (config : Option Nat) (dependencies : Option (HttpServerDependencies σ))
    (call : CString → σ → Execution × σ) (client : Client) (sendings : List Sending) (engine : σ)
    (sql : CString) (value : Bytes) : Prop :=
  match delay value with
  | some sleepMs => ∃ pauses rest,
      httpServerHandleClientSteps config dependencies client sendings engine =
        some (pauses ++ .did (.executed sql (call sql engine).1) :: rest) ∧ Sleeps sleepMs pauses
  | none => ∃ message response sent,
      httpServerHandleClientSteps config dependencies client sendings engine =
        some [.did (.answered (.error 400 (text "/query") (text "invalid_header") message) response
          sent), .did .closed]

/-- The value fits its field of the request, and no NUL hides what makes it invalid. -/
def Legible (value : Bytes) : Prop :=
  value ≠ [] ∧ value.length ≤ 15 ∧ (nul ∈ value → delay (cString value) = none)

instance (value : Bytes) : Decidable (Legible value) := inferInstanceAs (Decidable (_ ∧ _))

/-- The client sends these bytes and no others, within the limit of the server. -/
structure Delivers (config : Option Nat) (client : Client) (bytes : Bytes) : Prop where
  size : ∀ n ∈ config, n ≤ SIZE_MAX
  stream : arrived client.arrivals = bytes
  limit : bytes.length ≤ effectiveMax (config.getD 0)

theorem max_bounds (hconfig : ∀ n ∈ config, n ≤ SIZE_MAX) :
    0 < effectiveMax (config.getD 0) ∧ effectiveMax (config.getD 0) ≤ SIZE_MAX := by
  rw [effectiveMax]
  split
  · decide
  · refine ⟨by omega, ?_⟩
    cases config with
    | none => exact Nat.zero_le _
    | some n => exact hconfig n rfl

/-- An answer to a client that is turned away, and the end of the connection. -/
theorem turnedAway_steps {path errorCode message : CString} (h : Bounded path errorCode message) :
    ∃ response sent, ((sendAnswer sendings (.error 400 path errorCode message)).1 ++
      [Effect.closed]).map Step.did =
        [.did (.answered (.error 400 path errorCode message) response sent), .did .closed] := by
  rw [sendAnswer_fits (error_fits (by decide) h)]
  exact ⟨_, _, rfl⟩

/-- A value that does not fit the field ends the request. -/
theorem illegible_rejected {m : SleepRequest} {request : HttpRequest} (h : OtherwiseValid m request)
    (hd : Delivers config client m.serialise) {error : Bytes}
    (hcopy : httpCopySpan 16 (httpTrimSpan m.value) sleepName = .error error) :
    ∃ message response sent,
      httpServerHandleClientSteps config dependencies client sendings engine =
        some [.did (.answered (.error 400 (text "") (text "invalid_request") message) response
          sent), .did .closed] := by
  obtain ⟨hpos, hsize⟩ := max_bounds hd.size
  obtain ⟨parsed, -, -, hhead⟩ := head_read h
  have hend : httpFindHeaderEnd m.serialise = some m.headLength := by
    rw [httpFindHeaderEnd, SleepRequest.serialise, messageBytes,
      findFirst_blankLine h.requestLine h.lines]
    rfl
  rw [hcopy] at hhead
  rw [← hd.stream] at hhead hend
  have hreceive := receive_invalid hpos hsize (hd.stream ▸ hd.limit) ⟨_, hend⟩ hhead
  obtain ⟨response, sent, hsteps⟩ := @turnedAway_steps sendings (text "") (text "invalid_request")
    (errorText error) ⟨by decide, by decide, errorText_length error⟩
  refine ⟨errorText error, response, sent, ?_⟩
  rw [httpServerHandleClientSteps, hreceive]
  change Option.map _ (httpServerHandleClient config dependencies client sendings engine) = _
  rw [httpServerHandleClient, hreceive]
  exact congrArg some hsteps

/-- A value that fits reaches the router. -/
theorem legible_received {m : SleepRequest} {request : HttpRequest} (h : OtherwiseValid m request)
    (hd : Delivers config client m.serialise) {value : Bytes}
    (hcopy : httpCopySpan 16 (httpTrimSpan m.value) sleepName = .ok value) :
    receiveRequest (effectiveMax (config.getD 0)) client =
      .complete { request with debugSleepMs := value, debugSleepMsPresent := true } := by
  obtain ⟨hpos, hsize⟩ := max_bounds hd.size
  obtain ⟨parsed, hrequest, hlength, hhead⟩ := head_read h
  rw [hcopy] at hhead
  have hbody : (m.serialise).drop m.headLength = m.body := messageBytes_body _ _ _
  have hwhole : m.headLength + parsed.contentLength = m.serialise.length := by
    rw [hlength]
    exact (messageBytes_length _ _ _).symm
  rw [← hd.stream] at hhead hbody hwhole
  rw [receive_alone hpos hsize (hd.stream ▸ hd.limit) hhead hwhole, hbody, hrequest]

/-- The request with the header is a query where the header names a delay. -/
theorem query_routed {request : HttpRequest} (hquery : IsQuery request)
    {call : CString → σ → Execution × σ} (hcall : queryExecutor dependencies = some call)
    {value : Bytes} {sleepMs : Nat} (hdelay : delay (cString value) = some sleepMs) :
    route { request with debugSleepMs := value, debugSleepMsPresent := true } dependencies =
      .execute call (.of request.body) := by
  obtain ⟨⟨hne, hdigits⟩, hvalue, hlimit⟩ := delay_some.mp hdelay
  refine route_execute.mpr ⟨?_, hcall, rfl⟩
  exact ⟨hquery.path, hquery.method, hquery.contentType, hquery.contentLength, hquery.body,
    fun _ => ⟨hne, List.all_eq_true.mp hdigits, hvalue.trans_le hlimit⟩⟩

/-- Otherwise it is answered as an invalid header. -/
theorem invalid_routed {request : HttpRequest} (hquery : IsQuery request)
    {call : CString → σ → Execution × σ} (hcall : queryExecutor dependencies = some call)
    {value : Bytes} (hdelay : delay (cString value) = none) :
    ∃ error, route { request with debugSleepMs := value, debugSleepMsPresent := true }
      dependencies =
        .answer (.error 400 (text "/query") (text "invalid_header") (errorText error)) := by
  obtain ⟨error, herror⟩ := (sleep_parsed request value).2 hdelay
  obtain ⟨b, hb, hvisible⟩ := hquery.body
  have hblank : ¬ httpTextIsBlank (.of request.body) = true := by
    intro hall
    rw [List.all_eq_true.mp hall b hb] at hvisible
    cases hvisible
  have hhealth : cString request.path ≠ ascii "/health" := by
    rw [hquery.path]
    decide
  refine ⟨error, ?_⟩
  rw [route, if_neg hhealth, if_pos hquery.path, routeQuery]
  dsimp only
  rw [if_neg (not_not.mpr hquery.method), if_neg (by simp [hquery.contentType]),
    if_neg (by simp [hquery.contentLength, hblank]), hcall]
  dsimp only
  rw [herror, query_path hquery]

section Verdict

variable {m : SleepRequest} {request : HttpRequest} {call : CString → σ → Execution × σ}

/-- A numeral for a delay, up to the first NUL: sleep, and then the statement. -/
theorem query_steps (h : OtherwiseValid m request) (hd : Delivers config client m.serialise)
    (hcall : queryExecutor dependencies = some call) {value : Bytes}
    (hcopy : httpCopySpan 16 (httpTrimSpan m.value) sleepName = .ok value) {sleepMs : Nat}
    (hdelay : delay (cString value) = some sleepMs) :
    ∃ rest, httpServerHandleClientSteps config dependencies client sendings engine =
      some (httpSleepMilliseconds sleepMs ++
        .did (.executed (.of m.body) (call (.of m.body) engine).1) :: rest) := by
  have hroute := query_routed h.query hcall hdelay
  have heffects := @routed_effects _ _ dependencies call _ sendings engine hroute
  have hsleep := (sleep_parsed request value).1 sleepMs hdelay
  rw [httpServerHandleClientSteps, legible_received h hd hcopy]
  dsimp only
  rw [httpRouteRequestSteps, sleepSteps, hroute]
  dsimp only
  rw [hsleep, ← h.body, List.append_assoc]
  have hall := congrArg (List.map Step.did) heffects
  rw [List.map_append, List.map_singleton] at hall
  rw [hall]
  exact ⟨_, rfl⟩

/-- Any other value that fits is answered. -/
theorem invalid_steps (h : OtherwiseValid m request) (hd : Delivers config client m.serialise)
    (hcall : queryExecutor dependencies = some call) {value : Bytes}
    (hcopy : httpCopySpan 16 (httpTrimSpan m.value) sleepName = .ok value)
    (hdelay : delay (cString value) = none) :
    ∃ message response sent, httpServerHandleClientSteps config dependencies client sendings engine =
      some [.did (.answered (.error 400 (text "/query") (text "invalid_header") message) response
        sent), .did .closed] := by
  obtain ⟨error, hroute⟩ := invalid_routed h.query hcall hdelay
  obtain ⟨response, sent, hsteps⟩ := @turnedAway_steps sendings (text "/query")
    (text "invalid_header") (errorText error) ⟨by decide, by decide, errorText_length error⟩
  refine ⟨errorText error, response, sent, ?_⟩
  rw [httpServerHandleClientSteps, legible_received h hd hcopy]
  dsimp only
  rw [httpRouteRequestSteps, sleepSteps, httpRouteRequest, hroute]
  rw [List.map_append] at hsteps
  exact congrArg some hsteps

/-- Neither sleep nor a statement is an answer. -/
theorem steps_differ {pauses rest : List Step} {sleepMs : Nat} {sql : CString}
    {execution : Execution} {answer : Answer} {response sent : Bytes} (hs : Sleeps sleepMs pauses) :
    pauses ++ .did (.executed sql execution) :: rest ≠
      [.did (.answered answer response sent), .did .closed] := by
  intro heq
  cases pauses with
  | nil => cases heq
  | cons pause pauses =>
    obtain ⟨requested, rfl⟩ := hs.1 pause List.mem_cons_self
    cases heq

theorem contract_kept (h : OtherwiseValid m request) (hd : Delivers config client m.serialise)
    (hcall : queryExecutor dependencies = some call) (hl : Legible (httpTrimSpan m.value)) :
    KeepsContract config dependencies call client sendings engine (.of m.body)
      (httpTrimSpan m.value) := by
  obtain ⟨hne, hlength, hnul⟩ := hl
  have hcopy : httpCopySpan 16 (httpTrimSpan m.value) sleepName = .ok (httpTrimSpan m.value) :=
    copySpan_fits hne (Nat.lt_succ_of_le hlength) _
  rw [KeepsContract]
  cases hdelay : delay (httpTrimSpan m.value) with
  | some sleepMs =>
    have hwhole : cString (httpTrimSpan m.value) = httpTrimSpan m.value := by
      apply cString_of_no_nul
      intro hmem
      rw [delay_nul hmem] at hdelay
      cases hdelay
    rw [← hwhole] at hdelay
    obtain ⟨rest, hsteps⟩ := query_steps h hd hcall hcopy hdelay
    exact ⟨_, rest, hsteps, sleeps_milliseconds sleepMs⟩
  | none =>
    apply invalid_steps h hd hcall hcopy
    by_cases hmem : nul ∈ httpTrimSpan m.value
    · exact hnul hmem
    · rw [cString_of_no_nul hmem]
      exact hdelay

theorem contract_legible (h : OtherwiseValid m request) (hd : Delivers config client m.serialise)
    (hcall : queryExecutor dependencies = some call)
    (hk : KeepsContract config dependencies call client sendings engine (.of m.body)
      (httpTrimSpan m.value)) : Legible (httpTrimSpan m.value) := by
  rw [KeepsContract] at hk
  cases hcopy : httpCopySpan 16 (httpTrimSpan m.value) sleepName with
  | error error =>
    -- The answer to a request that cannot be read is another one.
    obtain ⟨message, response, sent, hsteps⟩ :=
      @illegible_rejected _ config dependencies client sendings engine _ _ h hd _ hcopy
    cases hdelay : delay (httpTrimSpan m.value) with
    | some sleepMs =>
      rw [hdelay] at hk
      obtain ⟨pauses, rest, hother, hsleeps⟩ := hk
      rw [hsteps] at hother
      exact absurd (Option.some.inj hother).symm (steps_differ hsleeps)
    | none =>
      rw [hdelay] at hk
      obtain ⟨other, otherResponse, otherSent, hother⟩ := hk
      rw [hsteps] at hother
      cases hother
  | ok value =>
    have hvalue : value = httpTrimSpan m.value ∧ httpTrimSpan m.value ≠ [] ∧
        (httpTrimSpan m.value).length ≤ 15 := by
      rw [httpCopySpan] at hcopy
      split at hcopy
      · cases hcopy
      · split at hcopy
        · cases hcopy
        · rename_i hne hlt
          refine ⟨(Except.ok.inj hcopy).symm, ?_, by omega⟩
          intro hnil
          exact hne (List.length_eq_zero_iff.mpr hnil)
    obtain ⟨rfl, hne, hlength⟩ := hvalue
    refine ⟨hne, hlength, ?_⟩
    intro hmem
    rw [delay_nul hmem] at hk
    obtain ⟨message, response, sent, hanswered⟩ := hk
    cases hdelay : delay (cString (httpTrimSpan m.value)) with
    | none => rfl
    | some sleepMs =>
      obtain ⟨rest, hsteps⟩ := @query_steps _ config dependencies client sendings engine _ _ _ h hd
        hcall _ hcopy _ hdelay
      rw [hsteps] at hanswered
      exact absurd (Option.some.inj hanswered) (steps_differ (sleeps_milliseconds sleepMs))

/-- The value is classified as documented exactly when it fits its field and no NUL behind a
numeral hides the rest of it. -/
theorem sleep_contract_iff (h : OtherwiseValid m request) (hd : Delivers config client m.serialise)
    (hcall : queryExecutor dependencies = some call) :
    KeepsContract config dependencies call client sendings engine (.of m.body)
      (httpTrimSpan m.value) ↔ Legible (httpTrimSpan m.value) :=
  ⟨contract_legible h hd hcall, contract_kept h hd hcall⟩

end Verdict

/-- A query with this value of the header. -/
def sleepQuery (value : Bytes) : SleepRequest where
  requestLine := ascii "POST /query HTTP/1.1"
  before := [ascii "Content-Length: 8"]
  name := ascii "X-Debug-Sleep-Ms"
  value := value
  after := []
  body := ascii "SELECT 1"

theorem sleepQuery_valid {value : Bytes} (h : carriageReturn ∉ value) :
    OtherwiseValid (sleepQuery value) (selectRequest (ascii "/query")) where
  requestLine := unbroken_of_no_return
    (by decide : carriageReturn ∉ ascii "POST /query HTTP/1.1")
  lines := by
    have hlength : ascii "Content-Length: 8" ≠ [] ∧ Unbroken (ascii "Content-Length: 8") :=
      ⟨by decide, unbroken_of_no_return (by decide)⟩
    have hsleep : IsLine (sleepQuery value).sleepLine := by
      refine ⟨by simp [SleepRequest.sleepLine, headerLine], ?_⟩
      change carriageReturn ∉ ascii "X-Debug-Sleep-Ms" ++ 58 :: value
      rw [List.mem_append, List.mem_cons, not_or, not_or]
      exact ⟨by decide, by decide, h⟩
    intro line hline
    rcases List.mem_cons.mp hline with rfl | hline
    · exact hlength
    · rw [List.mem_singleton.mp hline]
      exact hsleep.unbroken
  colon := (by decide : 58 ∉ ascii "X-Debug-Sleep-Ms")
  name := (by decide : httpAsciiEqualsIgnoreCase (httpTrimSpan (ascii "X-Debug-Sleep-Ms"))
    sleepName = true)
  once := (by decide : ∀ line ∈ [ascii "Content-Length: 8"], isSleepLine line = false)
  parsed := (by decide +kernel : httpParseRequest (messageBytes (ascii "POST /query HTTP/1.1")
    [ascii "Content-Length: 8"] (ascii "SELECT 1")) = .ok (selectRequest (ascii "/query")))
  body := rfl
  query := selectRequest_query (by decide)

/-- A client that sends the request at once. -/
def atOnce (value : Bytes) : Client where
  arrivals := [.bytes 80 ((sleepQuery value).serialise.drop 1)]
  closes := true

theorem atOnce_delivers {value : Bytes} (h : (sleepQuery value).serialise.length ≤ 65536) :
    Delivers none (atOnce value) (sleepQuery value).serialise where
  size := fun _ hn => absurd hn (Option.not_mem_none _)
  stream := List.append_nil _
  limit := h

theorem sleep_contract_iff_half_second :
    ∃ call, KeepsContract none (some (constantEngine emptyText true)) call (atOnce (ascii " 0500 "))
      [] () (.of (ascii "SELECT 1")) (httpTrimSpan (ascii " 0500 ")) :=
  ⟨_, (sleep_contract_iff (@sleepQuery_valid (ascii " 0500 ") (by decide))
    (atOnce_delivers (by decide +kernel)) rfl).mpr (by decide +kernel)⟩

/-- A valid request, delivered at once, with a value of the sleep header that is not classified
as documented. -/
def Misread (value : Bytes) : Prop :=
  ∃ request call, OtherwiseValid (sleepQuery value) request ∧
    Delivers none (atOnce value) (sleepQuery value).serialise ∧
    queryExecutor (some (constantEngine emptyText true)) = some call ∧
    ¬ KeepsContract none (some (constantEngine emptyText true)) call (atOnce value) [] ()
      (.of (sleepQuery value).body) (httpTrimSpan (sleepQuery value).value)

theorem misread_of_illegible {value : Bytes} (hreturn : carriageReturn ∉ value)
    (hlength : (sleepQuery value).serialise.length ≤ 65536)
    (hlegible : ¬ Legible (httpTrimSpan value)) : Misread value := by
  have hvalid := sleepQuery_valid hreturn
  have hdelivers := atOnce_delivers hlength
  refine ⟨_, _, hvalid, hdelivers, rfl, ?_⟩
  intro hk
  exact hlegible (contract_legible hvalid hdelivers rfl hk)

/-- No value, a numeral that is longer than the field, and one that a NUL ends. -/
theorem sleep_contract_fails :
    Misread [] ∧ Misread (ascii "0000000000000005") ∧ Misread (ascii "5" ++ nul :: ascii "x") := by
  refine ⟨?_, ?_, ?_⟩
  · apply misread_of_illegible <;> decide +kernel
  · apply misread_of_illegible <;> decide +kernel
  · apply misread_of_illegible <;> decide +kernel

end DbApi.Proofs.DebugSleep
