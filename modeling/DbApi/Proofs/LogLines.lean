import DbApi.Library.Decimal
import DbApi.Runtime.ClientLog

/-! The log lines of a request. A name that the request brings is written as it came, so a
line stays one line exactly when no such name holds the byte that ends a line. -/

namespace DbApi.Proofs.LogLines
open Library Http DbApi.Runtime Concurrency

/-- One line: the byte that ends it is its last and only there. -/
def OneLine (written : Bytes) : Prop := ∃ line, lineFeed ∉ line ∧ written = line ++ [lineFeed]

/-- No name that the log quotes from the request holds the byte that ends a line. -/
def QuotesNoLineFeed (request : HttpRequest) : Prop :=
  lineFeed ∉ cString request.method ∧ lineFeed ∉ cString request.path ∧
    (request.debugSleepMsPresent = true → lineFeed ∉ cString request.debugSleepMs)

/-- Every call of the two loggers for this request writes one line. -/
def LogsLines (request : HttpRequest) : Prop :=
  (∀ nextRequestId currentWorkerIndex trace responseStatusCode,
    ∀ line ∈ (handledRequestLog nextRequestId currentWorkerIndex trace request
      responseStatusCode).1, OneLine line) ∧
  ∀ reqId nextRequestId workerIndex responseStatusCode result runStatus,
    ∀ line ∈ clientJobLog reqId nextRequestId workerIndex request responseStatusCode result
      runStatus, OneLine line

theorem oneLine_iff (front : Bytes) : OneLine (front ++ ascii " |\n") ↔ lineFeed ∉ front := by
  have hend : front ++ ascii " |\n" = (front ++ ascii " |") ++ [lineFeed] := by
    rw [List.append_assoc]
    rfl
  rw [hend]
  constructor
  · intro h
    obtain ⟨line, hline, heq⟩ := h
    rw [← List.append_inj_left' heq rfl] at hline
    intro hm
    exact hline (List.mem_append_left _ hm)
  · intro h
    refine ⟨front ++ ascii " |", ?_, rfl⟩
    rw [List.mem_append, not_or]
    exact ⟨h, by simp [ascii, lineFeed]⟩

theorem decimalNat_lineFeed (n : Nat) : lineFeed ∉ decimalNat n := by
  intro h
  have := decimalNat_digits n lineFeed h
  simp [lineFeed, isDigit] at this

theorem decimal_lineFeed (n : Int) : lineFeed ∉ decimal n := by
  cases n with
  | ofNat n => exact decimalNat_lineFeed n
  | negSucc n =>
    rw [decimal, List.mem_append, not_or]
    exact ⟨by simp [ascii, lineFeed], decimalNat_lineFeed _⟩

theorem clip_lineFeed {size : Nat} {text : Bytes} (h : lineFeed ∉ text) :
    lineFeed ∉ clip size text :=
  fun hm => h (List.mem_of_mem_take hm)

theorem shown_lineFeed (buffer : Bytes) : lineFeed ∈ shown buffer ↔ lineFeed ∈ cString buffer := by
  rw [shown]
  cases cString buffer with
  | nil => simp [ascii, lineFeed]
  | cons b rest => rfl

/-- A number or a name of the code in place of what the request brings. -/
theorem code_lineFeed {p : Prop} [Decidable p] (code : Int) :
    lineFeed ∉ if p then clip 16 (decimal code) else ascii "-" := by
  split
  · exact clip_lineFeed (decimal_lineFeed code)
  · simp [ascii, lineFeed]

theorem requestEvent_lineFeed (event : RequestEvent) : lineFeed ∉ event.name := by
  cases event with
  | received => decide
  | answered => decide

theorem runtimeEvent_lineFeed (event : RuntimeEvent) : lineFeed ∉ event.name := by
  cases event with
  | assigned => decide
  | finished => decide

theorem resultName_lineFeed (result : Option ConcurrencyJobResult) :
    lineFeed ∉ (result.map concurrencyJobResultName).getD (ascii "-") := by
  cases result with
  | none => simp [ascii, lineFeed]
  | some result =>
    cases result with
    | ok => decide
    | failed => decide
    | cancelled => decide
    | rejected => decide

theorem sleep_lineFeed (request : HttpRequest) :
    lineFeed ∈ (if request.debugSleepMsPresent then shown request.debugSleepMs else ascii "-") ↔
      request.debugSleepMsPresent = true ∧ lineFeed ∈ cString request.debugSleepMs := by
  split
  · rename_i h
    simp [h, shown_lineFeed]
  · rename_i h
    simp [h, ascii, lineFeed]

theorem httpLogRequestEvent_oneLine (reqId : Nat) (event : RequestEvent) (request : HttpRequest)
    (trace : Option HttpRequestTrace) (currentWorkerIndex statusCode : Int) :
    OneLine (httpLogRequestEvent reqId event request trace currentWorkerIndex statusCode) ↔
      QuotesNoLineFeed request := by
  have hplain : ∀ text ∈ [ascii "[HTTP] | req_id=", ascii " | event=", ascii " | thread=",
      ascii " | method=", ascii " | path=", ascii " | status=", ascii " | bytes=",
      ascii " | debug_sleep_ms="], lineFeed ∉ text := by decide
  simp only [List.mem_cons, List.not_mem_nil, or_false, forall_eq_or_imp, forall_eq] at hplain
  obtain ⟨h1, h2, h3, h4, h5, h6, h7, h8⟩ := hplain
  simp only [httpLogRequestEvent, oneLine_iff, List.mem_append, not_or, sleep_lineFeed,
    shown_lineFeed, QuotesNoLineFeed, not_and]
  simp only [h1, h2, h3, h4, h5, h6, h7, h8, decimalNat_lineFeed, requestEvent_lineFeed,
    code_lineFeed, not_false_eq_true, true_and, and_true, and_assoc]

theorem runtimeLogEvent_oneLine (trace : HttpRequestTrace) (event : RuntimeEvent)
    (workerIndex : Int) (result : Option ConcurrencyJobResult) (runStatus : Int) :
    OneLine (runtimeLogEvent trace event workerIndex result runStatus) ↔
      lineFeed ∉ cString trace.method ∧ lineFeed ∉ cString trace.path := by
  have hplain : ∀ text ∈ [ascii "[RUNTIME] | req_id=", ascii " | event=", ascii " | thread=",
      ascii " | method=", ascii " | path=", ascii " | status=", ascii " | result=",
      ascii " | run_status="], lineFeed ∉ text := by decide
  simp only [List.mem_cons, List.not_mem_nil, or_false, forall_eq_or_imp, forall_eq] at hplain
  obtain ⟨h1, h2, h3, h4, h5, h6, h7, h8⟩ := hplain
  simp only [runtimeLogEvent, oneLine_iff, List.mem_append, not_or, shown_lineFeed]
  simp only [h1, h2, h3, h4, h5, h6, h7, h8, decimalNat_lineFeed, decimal_lineFeed,
    runtimeEvent_lineFeed, code_lineFeed, resultName_lineFeed, not_false_eq_true, true_and,
    and_true]

theorem cString_clip {size : Nat} {text : Bytes} (h : lineFeed ∉ cString text) :
    lineFeed ∉ cString (clip size (cString text)) := by
  intro hm
  exact h (List.mem_of_mem_take ((List.takeWhile_prefix _).subset hm))

/-- The lines of the handling, one by one. -/
theorem handledRequestLog_oneLine (nextRequestId : Nat) (currentWorkerIndex : Int)
    (trace : Option HttpRequestTrace) (request : HttpRequest) (responseStatusCode : Int) :
    (∀ line ∈ (handledRequestLog nextRequestId currentWorkerIndex trace request
      responseStatusCode).1, OneLine line) ↔ QuotesNoLineFeed request := by
  simp only [handledRequestLog, List.mem_cons, List.not_mem_nil, or_false, forall_eq_or_imp,
    forall_eq, httpLogRequestEvent_oneLine, and_self]

/-- The names that the runtime logs are those of the request, cut to the trace. -/
theorem clientJobLog_oneLine {request : HttpRequest} (h : QuotesNoLineFeed request)
    (reqId nextRequestId : Nat) (workerIndex responseStatusCode : Int)
    (result : ConcurrencyJobResult) (runStatus : Int) :
    ∀ line ∈ clientJobLog reqId nextRequestId workerIndex request responseStatusCode result
      runStatus, OneLine line := by
  intro line hl
  have hlines := (handledRequestLog_oneLine nextRequestId workerIndex
    (some { httpRequestTraceInit with reqId, workerIndex }) request responseStatusCode).mpr h
  simp only [clientJobLog, assignClientJob, List.mem_append, List.mem_cons, List.not_mem_nil,
    or_false] at hl
  rcases hl with (rfl | hl) | rfl
  · rw [runtimeLogEvent_oneLine]
    simp [httpRequestTraceInit, cString]
  · exact hlines line hl
  · rw [notifyClientJob, runtimeLogEvent_oneLine]
    exact ⟨cString_clip h.1, cString_clip h.2.1⟩

/-- Each call of the loggers for an accepted request writes one line exactly when the
method, the path and the delay that the request names hold no line feed. -/
theorem one_line_iff (buffer : Bytes) :
    (∀ request, httpParseRequest buffer = .ok request → LogsLines request) ↔
      ∀ request, httpParseRequest buffer = .ok request → QuotesNoLineFeed request := by
  constructor
  · intro h request hp
    exact (handledRequestLog_oneLine 0 0 none request 0).mp ((h request hp).1 0 0 none 0)
  · intro h request hp
    constructor
    · intro nextRequestId currentWorkerIndex trace responseStatusCode
      exact (handledRequestLog_oneLine nextRequestId currentWorkerIndex trace request
        responseStatusCode).mpr (h request hp)
    · intro reqId nextRequestId workerIndex responseStatusCode result runStatus
      exact clientJobLog_oneLine (h request hp) reqId nextRequestId workerIndex
        responseStatusCode result runStatus

/-- A line feed within the path passes the parser and parts the lines that are logged. -/
theorem forged_line :
    ¬ ∀ buffer request, httpParseRequest buffer = .ok request → LogsLines request := by
  intro h
  have hlogs := h (ascii "GET /\n[HTTP] HTTP/1.1\r\n\r\n")
    { emptyRequest with
      method := ascii "GET", path := ascii "/\n[HTTP]", version := ascii "HTTP/1.1" }
    (by decide +kernel)
  have hquotes := (handledRequestLog_oneLine 0 0 none _ 404).mp (hlogs.1 0 0 none 404)
  exact hquotes.2.1 (by decide)

end DbApi.Proofs.LogLines
