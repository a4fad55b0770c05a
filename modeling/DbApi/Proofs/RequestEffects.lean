import DbApi.Proofs.Reception
import DbApi.Proofs.ResponseFraming

namespace DbApi.Http

open DbApi.Library

/-- The whole bytes of an answer. -/
def Answer.text : Answer → Bytes
  | .health => responseFormat 200 healthBody.bytes
  | .error statusCode path errorCode message =>
    errorResponse statusCode (some path) (some errorCode) (some message)
  | .query ok statusCode path errorCode message affectedRows outputText =>
    queryResponse ok statusCode (some path) errorCode (some message) affectedRows outputText

def Answer.statusCode : Answer → Int
  | .health => 200
  | .error statusCode _ _ _ => statusCode
  | .query _ statusCode _ _ _ _ _ => statusCode

/-- The `error_code` field of an answer. -/
def Answer.errorCode : Answer → Option CString
  | .health => none
  | .error _ _ errorCode _ => some errorCode
  | .query ok _ _ errorCode _ _ _ => if ok then none else some (orDefault errorCode queryFailed)

theorem build_eq_ok {answer : Answer} {out : Bytes} :
    answer.build = .ok out ↔ answer.text.length ≤ INT_MAX ∧ out = answer.text := by
  cases answer with
  | health =>
    rw [Answer.build, httpBuildHealthResponse, httpWrapJsonResponse, Answer.text]
    exact printed_eq_ok
  | error statusCode path errorCode message => exact httpBuildErrorResponse_eq_ok
  | query ok statusCode path errorCode message affectedRows outputText =>
    exact httpBuildQueryResponse_eq_ok

theorem sendAnswer_fits {sendings : List Sending} {answer : Answer}
    (h : answer.text.length ≤ INT_MAX) :
    sendAnswer sendings answer =
      ([.answered answer answer.text (httpSendAll sendings answer.text).1],
        (httpSendAll sendings answer.text).2) := by
  rw [sendAnswer, build_eq_ok.mpr ⟨h, rfl⟩]

/-- The arguments of an answer to a request that is turned away, short enough for any
response. -/
structure Bounded (path errorCode message : CString) : Prop where
  path : path.bytes.length ≤ 255
  errorCode : errorCode.bytes.length ≤ 255
  message : message.bytes.length ≤ 255

theorem escape_length_le (text : Bytes) : (Json.escape text).length ≤ 6 * text.length := by
  have hbyte : ∀ b, (Json.escapeByte b).length ≤ 6 := by decide +kernel
  induction text with
  | nil => exact le_rfl
  | cons b text ih =>
    have := hbyte b
    rw [escape_cons, List.length_append, List.length_cons]
    omega

theorem decimalNat_length_le (n : Nat) : (decimalNat n).length ≤ n + 1 := by
  induction n using Nat.strongRecOn with
  | ind n ih =>
    rw [decimalNat_eq]
    split
    · simp
    · have := ih (n / 10) (by omega)
      rw [List.length_append, List.length_singleton]
      omega

theorem httpReasonPhrase_length (statusCode : Int) : (httpReasonPhrase statusCode).length ≤ 22 := by
  unfold httpReasonPhrase
  split_ifs <;> decide

theorem errorFormat_length_le {path errorCode message : Bytes} {statusCode : Int} {n : Nat}
    (hstatus : (decimal statusCode).length ≤ 3) (hpath : path.length ≤ n)
    (hcode : errorCode.length ≤ n) (hmessage : message.length ≤ n) :
    (errorFormat path statusCode errorCode message).length ≤ 3 * n + 100 := by
  have hopen : (ascii "\x7b\"ok\":false,\"path\":\"").length = 20 := rfl
  have hstatusName : (ascii "\",\"status_code\":").length = 16 := rfl
  have hcodeName : (ascii ",\"error_code\":\"").length = 15 := rfl
  have hmessageName : (ascii "\",\"message\":\"").length = 13 := rfl
  have hclose : (ascii "\"\x7d").length = 2 := rfl
  simp only [errorFormat, List.length_append, hopen, hstatusName, hcodeName, hmessageName, hclose]
  omega

theorem responseFormat_length_le {statusCode : Int} (hstatus : (decimal statusCode).length ≤ 3)
    (jsonBody : Bytes) :
    (responseFormat statusCode jsonBody).length ≤ 2 * jsonBody.length + 200 := by
  have hversion : (ascii "HTTP/1.1 ").length = 9 := rfl
  have hspace : (ascii " ").length = 1 := rfl
  have htype : (ascii "Content-Type: application/json").length = 30 := rfl
  have hlength : (ascii "Content-Length: ").length = 16 := rfl
  have hclose : (ascii "Connection: close").length = 17 := rfl
  have hcrlf : crlf.length = 2 := rfl
  have hreason := httpReasonPhrase_length statusCode
  have hdigits := decimalNat_length_le jsonBody.length
  simp only [responseFormat, List.length_append, hversion, hspace, htype, hlength, hclose, hcrlf]
  omega

theorem error_fits {statusCode : Int} (hstatus : statusCode ∈ [400, 404, 405, 413, 415, 500])
    {path errorCode message : CString} (h : Bounded path errorCode message) :
    (Answer.error statusCode path errorCode message).text.length ≤ INT_MAX := by
  have hpath := (escape_length_le path.bytes).trans (Nat.mul_le_mul_left 6 h.path)
  have hcode := (escape_length_le errorCode.bytes).trans (Nat.mul_le_mul_left 6 h.errorCode)
  have hmessage := (escape_length_le message.bytes).trans (Nat.mul_le_mul_left 6 h.message)
  have hdecimal : (decimal statusCode).length ≤ 3 := by
    simp only [List.mem_cons, List.not_mem_nil, or_false] at hstatus
    rcases hstatus with rfl | rfl | rfl | rfl | rfl | rfl <;> decide
  have hbody := errorFormat_length_le hdecimal hpath hcode hmessage
  have hresponse := responseFormat_length_le hdecimal (errorFormat (Json.escape path.bytes) statusCode
    (Json.escape errorCode.bytes) (Json.escape message.bytes))
  rw [errorFormat_eq] at hbody hresponse
  have htext : (Answer.error statusCode path errorCode message).text =
      responseFormat statusCode (Json.printObject (errorMembers statusCode path errorCode message)) :=
    rfl
  rw [htext, INT_MAX]
  omega

theorem health_fits : Answer.health.text.length ≤ INT_MAX := by
  have hdecimal : (decimal 200).length ≤ 3 := by decide
  have hbody : healthBody.bytes.length = 76 := by decide
  have hresponse := responseFormat_length_le hdecimal healthBody.bytes
  rw [Answer.text, INT_MAX]
  omega

/-- The bytes that the server has read of a client when it stops reading. -/
def receivedBytes (maxRequestBytes : Nat) (client : Client) : Bytes :=
  (receiveLoop maxRequestBytes (freshReception client)).1.requestBuffer

/-- A buffer within the limit begins with a complete request. -/
structure IsRequest (maxRequestBytes : Nat) (buffer : Bytes) (request : HttpRequest) : Prop where
  limit : buffer.length ≤ maxRequestBytes
  request : ∃ parsed headerLength, parseHead buffer = .ok (parsed, headerLength) ∧
    headerLength + parsed.contentLength ≤ buffer.length ∧
    request = { parsed with body := (buffer.drop headerLength).take parsed.contentLength }

/-- The verdict of the receive loop: what the last probe says, or no request at all. -/
def Judged (maxRequestBytes : Nat) (buffer : Bytes) (ending : ReceiveEnd Nat) : Prop :=
  judgeProbe maxRequestBytes (httpRequestProbe buffer maxRequestBytes) = some ending ∨
    judgeProbe maxRequestBytes (httpRequestProbe buffer maxRequestBytes) = none ∧
      ∀ n, ending ≠ .complete n

theorem round_judged {maxRequestBytes : Nat} {reception next : Reception}
    {ending : Option (ReceiveEnd Nat)}
    (h : judgeProbe maxRequestBytes (httpRequestProbe reception.requestBuffer maxRequestBytes) = none)
    (hround : receiveRound maxRequestBytes reception = (next, ending)) :
    match ending with
    | none => judgeProbe maxRequestBytes (httpRequestProbe next.requestBuffer maxRequestBytes) = none
    | some ending => Judged maxRequestBytes next.requestBuffer ending := by
  rw [receiveRound] at hround
  split at hround
  · split at hround
    · cases hround
      exact .inr ⟨h, fun n hn => by cases hn⟩
    · cases hround
      exact .inr ⟨h, fun n hn => by cases hn⟩
  · split at hround
    · cases hround
      exact .inr ⟨h, fun n hn => by cases hn⟩
    · cases hround
      exact h
    · cases hround
      exact .inr ⟨h, fun n hn => by cases hn⟩
    · cases hround
      refine .inr ⟨h, fun n hn => ?_⟩
      split at hn <;> cases hn
    · obtain ⟨rfl, hending⟩ := Prod.mk.inj hround
      cases ending with
      | none => exact hending
      | some ending => exact .inl hending

theorem loop_judged {maxRequestBytes : Nat} {reception : Reception}
    (h : judgeProbe maxRequestBytes (httpRequestProbe reception.requestBuffer maxRequestBytes) =
      none) :
    Judged maxRequestBytes (receiveLoop maxRequestBytes reception).1.requestBuffer
      (receiveLoop maxRequestBytes reception).2 := by
  induction hweight : reception.client.weight using Nat.strongRecOn generalizing reception with
  | ind weight ih =>
    rw [receiveLoop]
    split
    · rename_i next hnext
      exact ih _ (hweight ▸ receiveRound_weight hnext) (round_judged h hnext) rfl
    · rename_i next ending hnext
      exact round_judged h hnext

theorem judge_fresh (maxRequestBytes : Nat) :
    judgeProbe maxRequestBytes (httpRequestProbe [] maxRequestBytes) = none := by
  rw [probe_none (Nat.zero_le _) rfl]
  rfl

/-- A buffer that is a request is one to the probe. -/
theorem IsRequest.complete {maxRequestBytes : Nat} {buffer : Bytes} {request : HttpRequest}
    (hpos : 0 < maxRequestBytes) (hsize : maxRequestBytes ≤ SIZE_MAX)
    (h : IsRequest maxRequestBytes buffer request) :
    ∃ n, judgeProbe maxRequestBytes (httpRequestProbe buffer maxRequestBytes) = some (.complete n) ∧
      httpParseRequest (buffer.take n) = .ok request := by
  have heff : effectiveMax maxRequestBytes = maxRequestBytes := if_neg (by omega)
  obtain ⟨hlimit, parsed, headerLength, hhead, hfits, rfl⟩ := h
  refine ⟨headerLength + parsed.contentLength, ?_, parse_complete hhead hfits⟩
  have hprobe : httpRequestProbe buffer maxRequestBytes =
      { result := .complete, requestLength := headerLength + parsed.contentLength } := by
    rw [probe_some (hlimit.trans_eq heff.symm) (parseHead_length hhead), heff]
    refine probeHead_complete.mpr ⟨⟨headerLength, parsed.contentLength⟩, ?_, rfl, ?_, ?_, hfits⟩
    · rw [httpExtractHeadMetadata, hhead]
      rfl
    · dsimp only
      omega
    · omega
  exact (judge_request hpos hprobe).2

theorem isRequest_of_complete {maxRequestBytes n : Nat} {buffer : Bytes} (hpos : 0 < maxRequestBytes)
    (h : judgeProbe maxRequestBytes (httpRequestProbe buffer maxRequestBytes) = some (.complete n)) :
    ∃ request, httpParseRequest (buffer.take n) = .ok request ∧
      IsRequest maxRequestBytes buffer request := by
  have heff : effectiveMax maxRequestBytes = maxRequestBytes := if_neg (by omega)
  obtain ⟨hlength, hn, parsed, headerLength, hhead, rfl⟩ := probe_complete (judge_complete h).1
  exact ⟨_, parse_complete hhead hn, hlength.trans_eq heff, parsed, headerLength, hhead, hn, rfl⟩

/-- The server reads a request exactly where the bytes that it has read begin with one. -/
theorem receiveRequest_complete {maxRequestBytes : Nat} (hpos : 0 < maxRequestBytes)
    (hsize : maxRequestBytes ≤ SIZE_MAX) (client : Client) (request : HttpRequest) :
    receiveRequest maxRequestBytes client = .complete request ↔
      IsRequest maxRequestBytes (receivedBytes maxRequestBytes client) request := by
  have hjudged := @loop_judged maxRequestBytes (freshReception client) (judge_fresh maxRequestBytes)
  change parseReceived (receivedBytes maxRequestBytes client)
    (receiveLoop maxRequestBytes (freshReception client)).2 = _ ↔ _
  change Judged maxRequestBytes (receivedBytes maxRequestBytes client) _ at hjudged
  generalize receivedBytes maxRequestBytes client = buffer at hjudged ⊢
  generalize (receiveLoop maxRequestBytes (freshReception client)).2 = ending at hjudged ⊢
  constructor
  · intro h
    cases ending with
    | waiting => cases h
    | closed => cases h
    | rejected statusCode errorCode message => cases h
    | complete n =>
      rcases hjudged with hjudge | ⟨-, hnone⟩
      · obtain ⟨parsed, hparse, hrequest⟩ := isRequest_of_complete hpos hjudge
        rw [parseReceived, hparse] at h
        cases h
        exact hrequest
      · exact absurd rfl (hnone n)
  · intro h
    obtain ⟨n, hjudge, hparse⟩ := h.complete hpos hsize
    rcases hjudged with hsome | ⟨hnone, -⟩
    · rw [hjudge] at hsome
      cases hsome
      rw [parseReceived, hparse]
    · rw [hjudge] at hnone
      cases hnone

/-- A client that closes the connection before it has sent a byte. -/
def Silent (client : Client) : Prop :=
  client.closes = true ∧ ∀ arrival ∈ client.arrivals, arrival = .interrupted

theorem grow_one (capacity maximumCapacity : Nat) :
    ∃ newCapacity, httpGrowBuffer capacity 1 maximumCapacity = some newCapacity ∧
      0 < newCapacity := by
  obtain ⟨start, hstart, hpos⟩ :
      ∃ start, (if capacity = 0 then HTTP_RECEIVE_CHUNK_BYTES else capacity) = start ∧ 0 < start := by
    rw [HTTP_RECEIVE_CHUNK_BYTES]
    split <;> exact ⟨_, rfl, by omega⟩
  have hgrown : growCapacity 2 start 1 maximumCapacity = start := by
    rw [growCapacity, if_neg (by omega)]
  refine ⟨start, ?_, hpos⟩
  rw [httpGrowBuffer, hstart, hgrown, if_neg (by omega)]

/-- The first read into an empty buffer. -/
theorem round_empty {maxRequestBytes : Nat} {reception : Reception}
    (h : reception.requestBuffer = []) :
    ∃ capacity, 0 < capacity ∧ receiveRound maxRequestBytes reception =
      match recv capacity reception.client with
      | none => ({ reception with bufferCapacity := capacity }, some .waiting)
      | some (.interrupted, client) =>
        ({ reception with bufferCapacity := capacity, client }, none)
      | some (.failed, client) =>
        ({ reception with bufferCapacity := capacity, client },
          some (.rejected 500 (text "read_failed") (text "failed to read the client request")))
      | some (.bytes [], client) =>
        ({ reception with bufferCapacity := capacity, client }, some .closed)
      | some (.bytes chunk, client) =>
        ({ requestBuffer := chunk, bufferCapacity := capacity, client },
          judgeProbe maxRequestBytes (httpRequestProbe chunk maxRequestBytes)) := by
  obtain ⟨capacity, hgrow, hpos⟩ := grow_one reception.bufferCapacity maxRequestBytes
  have hadd : sizeAdd 0 1 = 1 := rfl
  refine ⟨capacity, hpos, ?_⟩
  rw [receiveRound, h]
  dsimp only [List.length_nil, List.nil_append]
  rw [hadd, hgrow]
  rfl

theorem judge_not_closed (maxRequestBytes : Nat) (probe : HttpProbe) :
    judgeProbe maxRequestBytes probe ≠ some .closed := by
  rw [judgeProbe]
  split
  · exact fun h => by cases h
  · split <;> exact fun h => by cases h

theorem round_nonempty {maxRequestBytes : Nat} {reception next : Reception}
    {ending : Option (ReceiveEnd Nat)} (h : reception.requestBuffer ≠ [])
    (hround : receiveRound maxRequestBytes reception = (next, ending)) :
    next.requestBuffer ≠ [] ∧ ending ≠ some .closed := by
  have hlength : reception.requestBuffer.length ≠ 0 := fun hzero =>
    h (List.length_eq_zero_iff.mp hzero)
  rw [receiveRound] at hround
  split at hround
  · split at hround <;> cases hround <;> exact ⟨h, fun heq => by cases heq⟩
  · split at hround
    · cases hround
      exact ⟨h, fun heq => by cases heq⟩
    · cases hround
      exact ⟨h, fun heq => by cases heq⟩
    · cases hround
      exact ⟨h, fun heq => by cases heq⟩
    · cases hround
      rw [if_neg hlength]
      exact ⟨h, fun heq => by cases heq⟩
    · obtain ⟨rfl, rfl⟩ := Prod.mk.inj hround
      exact ⟨List.append_ne_nil_of_left_ne_nil h _, judge_not_closed _ _⟩

theorem Silent.arrived {client : Client} (h : Silent client) : arrived client.arrivals = [] := by
  obtain ⟨arrivals, closes⟩ := client
  obtain ⟨-, hall⟩ := h
  induction arrivals with
  | nil => rfl
  | cons arrival arrivals ih =>
    cases hall arrival List.mem_cons_self
    exact ih fun arrival hmem => hall arrival (List.mem_cons_of_mem _ hmem)

theorem loop_closed_iff {maxRequestBytes : Nat} {reception : Reception} :
    (receiveLoop maxRequestBytes reception).2 = .closed ↔
      reception.requestBuffer = [] ∧ Silent reception.client := by
  induction hweight : reception.client.weight using Nat.strongRecOn generalizing reception with
  | ind weight ih =>
    by_cases hbuffer : reception.requestBuffer = []
    · obtain ⟨capacity, hpos, hround⟩ := @round_empty maxRequestBytes reception hbuffer
      have hreads := recv_reads hpos reception.client
      rw [receiveLoop]
      split
      · rename_i next hnext
        rw [ih _ (hweight ▸ receiveRound_weight hnext) rfl]
        rw [hround] at hnext
        generalize recv capacity reception.client = read at hreads hnext
        cases hreads with
        | silent hnil hstays => cases hnext
        | closed hnil hcloses => cases hnext
        | interrupted hfirst hcloses =>
          cases hnext
          rw [Silent, Silent, hfirst, hcloses, List.forall_mem_cons]
          simp [hbuffer]
        | failed hfailed => cases hnext
        | bytes hfits hfront hcloses halive =>
          obtain ⟨rfl, -⟩ := Prod.mk.inj hnext
          refine ⟨fun h => absurd h.1 (List.cons_ne_nil _ _), fun h => ?_⟩
          rw [h.2.arrived] at hfront
          cases hfront
      · rename_i next ending hnext
        rw [hround] at hnext
        generalize recv capacity reception.client = read at hreads hnext
        cases hreads with
        | silent hnil hstays =>
          cases hnext
          refine ⟨(fun h => by cases h), fun h => ?_⟩
          rw [h.2.1] at hstays
          cases hstays
        | closed hnil hcloses =>
          cases hnext
          refine ⟨fun _ => ⟨hbuffer, hcloses, ?_⟩, fun _ => rfl⟩
          rw [hnil]
          exact fun _ hmem => absurd hmem List.not_mem_nil
        | interrupted hfirst hcloses => cases hnext
        | failed hfailed =>
          cases hnext
          exact ⟨(fun h => by cases h), fun h => by cases h.2.2 _ hfailed⟩
        | bytes hfits hfront hcloses halive =>
          obtain ⟨-, hjudge⟩ := Prod.mk.inj hnext
          refine ⟨fun h => ?_, fun h => ?_⟩
          · rw [show ending = .closed from h] at hjudge
            exact absurd hjudge (judge_not_closed _ _)
          · rw [h.2.arrived] at hfront
            cases hfront
    · refine ⟨fun h => ?_, fun h => absurd h.1 hbuffer⟩
      rw [receiveLoop] at h
      split at h
      · rename_i next hnext
        rw [ih _ (hweight ▸ receiveRound_weight hnext) rfl] at h
        exact absurd h.1 (round_nonempty hbuffer hnext).1
      · rename_i next ending hnext
        exact absurd (congrArg some h) (round_nonempty hbuffer hnext).2

theorem receiveRequest_closed {maxRequestBytes : Nat} {client : Client} :
    receiveRequest maxRequestBytes client = .closed ↔ Silent client := by
  have hloop := @loop_closed_iff maxRequestBytes (freshReception client)
  change parseReceived _ (receiveLoop maxRequestBytes (freshReception client)).2 = _ ↔ _
  have hfresh : (freshReception client).requestBuffer = [] := rfl
  rw [show Silent client ↔ _ from ⟨fun h => hloop.mpr ⟨hfresh, h⟩, fun h => (hloop.mp h).2⟩]
  cases (receiveLoop maxRequestBytes (freshReception client)).2 with
  | waiting => exact ⟨(fun h => by cases h), fun h => by cases h⟩
  | closed => exact ⟨fun _ => rfl, fun _ => rfl⟩
  | rejected statusCode errorCode message => exact ⟨(fun h => by cases h), fun h => by cases h⟩
  | complete n =>
    refine ⟨fun h => ?_, fun h => by cases h⟩
    rw [parseReceived] at h
    split at h <;> cases h

theorem errorText_length (error : Bytes) : (errorText error).bytes.length ≤ 255 := by
  have hclip : (clip 256 error).length < 256 := clip_length_lt error (by decide)
  have hstring := (List.takeWhile_prefix (l := clip 256 error) (· != nul)).length_le
  change (cString (clip 256 error)).length ≤ 255
  rw [cString]
  omega

/-- The rejection of a request is one of few kinds, and short. -/
def Rejects {α : Type} : ReceiveEnd α → Prop
  | .rejected statusCode errorCode message =>
    statusCode ∈ [400, 404, 405, 413, 415, 500] ∧ errorCode ≠ text "query_failed" ∧
      Bounded (text "") errorCode message
  | _ => True

theorem rejects_tooLarge {α : Type} : Rejects (payloadTooLarge : ReceiveEnd α) := by
  refine ⟨by decide, by decide, ?_, ?_, ?_⟩ <;> decide

theorem rejects_invalid {α : Type} (error : Bytes) :
    Rejects (invalidRequest error : ReceiveEnd α) := by
  refine ⟨by decide, by decide, by decide, by decide, errorText_length error⟩

theorem judge_rejects {maxRequestBytes : Nat} {probe : HttpProbe} {ending : ReceiveEnd Nat}
    (h : judgeProbe maxRequestBytes probe = some ending) : Rejects ending := by
  rw [judgeProbe] at h
  split at h
  · cases h
    exact rejects_tooLarge
  · split at h
    · cases h
      exact rejects_invalid _
    · cases h
      trivial
    · cases h

theorem round_rejects {maxRequestBytes : Nat} {reception next : Reception} {ending : ReceiveEnd Nat}
    (h : receiveRound maxRequestBytes reception = (next, some ending)) : Rejects ending := by
  rw [receiveRound] at h
  split at h
  · split at h
    · cases h
      exact rejects_tooLarge
    · cases h
      refine ⟨by decide, by decide, ?_, ?_, ?_⟩ <;> decide
  · split at h
    · cases h
      trivial
    · cases h
    · cases h
      refine ⟨by decide, by decide, ?_, ?_, ?_⟩ <;> decide
    · cases h
      split
      · trivial
      · refine ⟨by decide, by decide, ?_, ?_, ?_⟩ <;> decide
    · obtain ⟨-, hjudge⟩ := Prod.mk.inj h
      exact judge_rejects hjudge

theorem loop_rejects (maxRequestBytes : Nat) (reception : Reception) :
    Rejects (receiveLoop maxRequestBytes reception).2 := by
  induction hweight : reception.client.weight using Nat.strongRecOn generalizing reception with
  | ind weight ih =>
    rw [receiveLoop]
    split
    · rename_i next hnext
      exact ih _ (hweight ▸ receiveRound_weight hnext) next rfl
    · rename_i next ending hnext
      exact round_rejects hnext

theorem receiveRequest_rejects (maxRequestBytes : Nat) (client : Client) :
    Rejects (receiveRequest maxRequestBytes client) := by
  have hloop := loop_rejects maxRequestBytes (freshReception client)
  change Rejects (parseReceived _ (receiveLoop maxRequestBytes (freshReception client)).2)
  cases hending : (receiveLoop maxRequestBytes (freshReception client)).2 with
  | waiting => trivial
  | closed => trivial
  | rejected statusCode errorCode message =>
    rw [hending] at hloop
    exact hloop
  | complete n =>
    rw [parseReceived]
    split
    · exact rejects_invalid _
    · trivial

theorem copySpan_length {size : Nat} {span fieldName copied : Bytes}
    (h : httpCopySpan size span fieldName = .ok copied) : copied.length < size := by
  rw [httpCopySpan] at h
  split at h
  · cases h
  · split at h
    · cases h
    · cases h
      omega

theorem requestLine_path {line : Bytes} {request parsed : HttpRequest}
    (h : httpParseRequestLine line request = .ok parsed) : parsed.path.length < 128 := by
  obtain ⟨⟨methodSpan, pathSpan, versionSpan⟩, -, h⟩ := except_bind_ok.mp h
  obtain ⟨method, -, h⟩ := except_bind_ok.mp h
  obtain ⟨path, hpath, h⟩ := except_bind_ok.mp h
  obtain ⟨version, -, h⟩ := except_bind_ok.mp h
  split at h
  · cases h
  · split at h
    · cases h
    · cases h
      exact copySpan_length hpath

theorem header_path {state next : HeaderState} {name value : Bytes}
    (h : parseHeader state name value = .ok next) : next.request.path = state.request.path := by
  rw [parseHeader] at h
  split_ifs at h
  · rw [parseContentLengthHeader] at h
    split at h
    · cases h
    · obtain ⟨_, -, h⟩ := except_bind_ok.mp h
      cases h
      rfl
  · rw [parseContentTypeHeader] at h
    split at h
    · cases h
    · split at h
      · cases h
        rfl
      · obtain ⟨_, -, h⟩ := except_bind_ok.mp h
        cases h
        rfl
  · rw [parseDebugSleepMsHeader] at h
    split at h
    · cases h
    · obtain ⟨_, -, h⟩ := except_bind_ok.mp h
      cases h
      rfl
  · cases h
    rfl

theorem headerLine_path {state next : HeaderState} {line : Bytes}
    (h : parseHeaderLine state line = .ok next) : next.request.path = state.request.path := by
  rw [parseHeaderLine] at h
  split at h
  · cases h
    rfl
  · split at h
    · cases h
    · exact header_path h

theorem headerLines_path {state next : HeaderState} {lines : List Bytes}
    (h : parseHeaderLines state lines = .ok next) : next.request.path = state.request.path := by
  induction lines generalizing state with
  | nil =>
    cases h
    rfl
  | cons line lines ih =>
    cases lines with
    | nil =>
      rw [parseHeaderLines] at h
      split at h <;> cases h
      rfl
    | cons following lines =>
      obtain ⟨middle, hline, hrest⟩ := except_bind_ok.mp h
      rw [ih hrest, headerLine_path hline]

theorem parseHead_path {buffer : Bytes} {request : HttpRequest} {headerLength : Nat}
    (h : parseHead buffer = .ok (request, headerLength)) : request.path.length < 128 := by
  rw [parseHead] at h
  split at h
  · cases h
  · split at h
    · cases h
    · obtain ⟨first, hline, h⟩ := except_bind_ok.mp h
      obtain ⟨parsed, hheaders, h⟩ := except_bind_ok.mp h
      cases h
      obtain ⟨state, hstate, rfl⟩ := except_map_ok.mp hheaders
      rw [headerLines_path hstate]
      exact requestLine_path hline

theorem IsRequest.path_length {maxRequestBytes : Nat} {buffer : Bytes} {request : HttpRequest}
    (h : IsRequest maxRequestBytes buffer request) :
    (CString.of request.path).bytes.length ≤ 255 := by
  obtain ⟨-, parsed, headerLength, hhead, -, rfl⟩ := h
  have hpath := parseHead_path hhead
  have hstring := (List.takeWhile_prefix (l := parsed.path) (· != nul)).length_le
  change (cString parsed.path).length ≤ 255
  rw [cString]
  omega

/-- A statement to execute: what the headers and the body of a request for it say. -/
structure IsQuery (request : HttpRequest) : Prop where
  path : cString request.path = ascii "/query"
  method : cString request.method = ascii "POST"
  contentType : httpContentTypeIsSql request.contentType = true
  contentLength : request.contentLength ≠ 0
  body : ∃ b ∈ cString request.body, isSpace b = false
  debugSleepMs : request.debugSleepMsPresent = true →
    cString request.debugSleepMs ≠ [] ∧
      (∀ b ∈ cString request.debugSleepMs, isDigit b = true) ∧
      digitsValue (cString request.debugSleepMs) ≤ HTTP_DEBUG_SLEEP_MAX_MS

theorem value_grows (digits : Bytes) (n : Nat) :
    n ≤ digits.foldl (fun n d => 10 * n + (d.toNat - 48)) n := by
  induction digits generalizing n with
  | nil => exact le_rfl
  | cons d digits ih =>
    have := ih (10 * n + (d.toNat - 48))
    rw [List.foldl_cons]
    omega

theorem digit_value {b : UInt8} (h : isDigit b = true) : b.toNat - 48 ≤ 9 := by
  revert b
  decide +kernel

/-- The value is taken where it keeps within the limit. -/
theorem parseSleep_ok {parsedValue : Nat} {digits : Bytes} :
    (∃ sleepMs, parseSleep parsedValue digits = .ok sleepMs) ↔
      digits = [] ∨ (∀ b ∈ digits, isDigit b = true) ∧
        digits.foldl (fun n d => 10 * n + (d.toNat - 48)) parsedValue ≤ HTTP_DEBUG_SLEEP_MAX_MS := by
  induction digits generalizing parsedValue with
  | nil => exact ⟨fun _ => .inl rfl, fun _ => ⟨_, rfl⟩⟩
  | cons d digits ih =>
    have hgrows := value_grows digits (10 * parsedValue + (d.toNat - 48))
    rw [parseSleep, List.forall_mem_cons, List.foldl_cons]
    by_cases hdigit : isDigit d = true
    · have hvalue := digit_value hdigit
      rw [if_neg (by simp [hdigit])]
      by_cases hlarge : (HTTP_DEBUG_SLEEP_MAX_MS - (d.toNat - 48)) / 10 < parsedValue
      · rw [if_pos hlarge]
        rw [HTTP_DEBUG_SLEEP_MAX_MS] at hlarge ⊢
        refine ⟨(fun ⟨_, h⟩ => by cases h), fun h => ?_⟩
        obtain ⟨-, h⟩ := h.resolve_left (List.cons_ne_nil _ _)
        omega
      · rw [if_neg hlarge, Nat.mul_comm parsedValue 10, ih]
        rw [HTTP_DEBUG_SLEEP_MAX_MS] at hlarge ⊢
        constructor
        · rintro (rfl | ⟨hall, hle⟩)
          · refine .inr ⟨⟨hdigit, fun _ h => absurd h List.not_mem_nil⟩, ?_⟩
            rw [List.foldl_nil]
            omega
          · exact .inr ⟨⟨hdigit, hall⟩, hle⟩
        · intro h
          obtain ⟨⟨-, hall⟩, hle⟩ := h.resolve_left (List.cons_ne_nil _ _)
          exact .inr ⟨hall, hle⟩
    · rw [if_pos (by simpa using hdigit)]
      refine ⟨(fun ⟨_, h⟩ => by cases h), fun h => ?_⟩
      exact absurd (h.resolve_left (List.cons_ne_nil _ _)).1.1 hdigit

theorem parseDebugSleepMs_ok {request : HttpRequest} :
    (∃ sleepMs, httpParseDebugSleepMs request = .ok sleepMs) ↔
      (request.debugSleepMsPresent = true →
        cString request.debugSleepMs ≠ [] ∧
          (∀ b ∈ cString request.debugSleepMs, isDigit b = true) ∧
          digitsValue (cString request.debugSleepMs) ≤ HTTP_DEBUG_SLEEP_MAX_MS) := by
  rw [httpParseDebugSleepMs]
  cases request.debugSleepMsPresent with
  | false => exact ⟨(fun _ h => by cases h), fun _ => ⟨0, rfl⟩⟩
  | true =>
    rw [if_neg (by decide)]
    cases hdigits : cString request.debugSleepMs with
    | nil => exact ⟨(fun ⟨_, h⟩ => by cases h), fun h => absurd rfl (h rfl).1⟩
    | cons d digits =>
      dsimp only
      rw [parseSleep_ok]
      constructor
      · intro h _
        exact ⟨List.cons_ne_nil _ _, h.resolve_left (List.cons_ne_nil _ _)⟩
      · intro h
        exact .inr (h rfl).2

variable {σ : Type}

/-- The router executes the statements, and answers everything else in short. -/
theorem routeQuery_execute {request : HttpRequest}
    {dependencies : Option (HttpServerDependencies σ)} {call : CString → σ → Execution × σ}
    {sql : CString} (hpath : cString request.path = ascii "/query") :
    routeQuery request dependencies = .execute call sql ↔
      IsQuery request ∧ queryExecutor dependencies = some call ∧ sql = .of request.body := by
  have hblank : httpTextIsBlank (.of request.body) = true ↔
      ∀ b ∈ cString request.body, isSpace b = true := List.all_eq_true
  rw [routeQuery]
  by_cases hmethod : cString request.method = ascii "POST"
  · rw [if_neg (not_not.mpr hmethod)]
    by_cases htype : httpContentTypeIsSql request.contentType = true
    · rw [if_neg (by simp [htype])]
      by_cases hempty : request.contentLength = 0 ∨ httpTextIsBlank (.of request.body) = true
      · rw [if_pos hempty]
        refine ⟨(fun h => by cases h), fun ⟨hquery, _⟩ => ?_⟩
        rcases hempty with hzero | hall
        · exact absurd hzero hquery.contentLength
        · obtain ⟨b, hb, hspace⟩ := hquery.body
          rw [hblank.mp hall b hb] at hspace
          cases hspace
      · rw [if_neg hempty]
        rw [not_or, hblank] at hempty
        obtain ⟨hlength, hbody⟩ := hempty
        cases hcall : queryExecutor dependencies with
        | none => exact ⟨(fun h => by cases h), fun h => by cases h.2.1⟩
        | some executor =>
          dsimp only
          cases hsleep : httpParseDebugSleepMs request with
          | error error =>
            refine ⟨(fun h => by cases h), fun ⟨hquery, _⟩ => ?_⟩
            obtain ⟨sleepMs, hok⟩ := parseDebugSleepMs_ok.mpr hquery.debugSleepMs
            rw [hsleep] at hok
            cases hok
          | ok sleepMs =>
            have hquery : IsQuery request := by
              refine ⟨hpath, hmethod, htype, hlength, ?_, parseDebugSleepMs_ok.mp ⟨_, hsleep⟩⟩
              push Not at hbody
              simpa using hbody
            simp only [Route.execute.injEq, Option.some.injEq]
            exact ⟨fun ⟨hcall, hsql⟩ => ⟨hquery, hcall, hsql.symm⟩,
              fun ⟨_, hcall, hsql⟩ => ⟨hcall, hsql.symm⟩⟩
    · rw [if_pos (by simpa using htype)]
      exact ⟨(fun h => by cases h), fun h => absurd h.1.contentType htype⟩
  · rw [if_pos hmethod]
    exact ⟨(fun h => by cases h), fun h => absurd h.1.method hmethod⟩

theorem route_execute {request : HttpRequest} {dependencies : Option (HttpServerDependencies σ)}
    {call : CString → σ → Execution × σ} {sql : CString} :
    route request dependencies = .execute call sql ↔
      IsQuery request ∧ queryExecutor dependencies = some call ∧ sql = .of request.body := by
  rw [route]
  by_cases hhealth : cString request.path = ascii "/health"
  · rw [if_pos hhealth]
    refine ⟨(fun h => by cases h), fun h => ?_⟩
    rw [h.1.path] at hhealth
    exact absurd hhealth (by decide)
  · rw [if_neg hhealth]
    by_cases hpath : cString request.path = ascii "/query"
    · rw [if_pos hpath]
      exact routeQuery_execute hpath
    · rw [if_neg hpath]
      exact ⟨(fun h => by cases h), fun h => absurd h.1.path hpath⟩

theorem route_answer_fits {request : HttpRequest}
    {dependencies : Option (HttpServerDependencies σ)} {answer : Answer}
    (hpath : (CString.of request.path).bytes.length ≤ 255)
    (h : route request dependencies = .answer answer) : answer.text.length ≤ INT_MAX := by
  have hshort : ∀ statusCode ∈ [400, 404, 405, 413, 415, 500], ∀ errorCode message : CString,
      errorCode.bytes.length ≤ 255 → message.bytes.length ≤ 255 →
      (Answer.error statusCode (.of request.path) errorCode message).text.length ≤ INT_MAX :=
    fun statusCode hstatus errorCode message hcode hmessage =>
      error_fits hstatus ⟨hpath, hcode, hmessage⟩
  rw [route] at h
  split_ifs at h
  · cases h
    rw [routeHealth]
    split_ifs
    · exact hshort 405 (by decide) _ _ (by decide) (by decide)
    · exact hshort 400 (by decide) _ _ (by decide) (by decide)
    · exact health_fits
  · rw [routeQuery] at h
    split_ifs at h
    · cases h
      exact hshort 405 (by decide) _ _ (by decide) (by decide)
    · cases h
      exact hshort 415 (by decide) _ _ (by decide) (by decide)
    · cases h
      exact hshort 400 (by decide) _ _ (by decide) (by decide)
    · split at h
      · cases h
        exact hshort 500 (by decide) _ _ (by decide) (by decide)
      · split at h
        · cases h
          exact hshort 400 (by decide) _ _ (by decide) (errorText_length _)
        · cases h
  · cases h
    exact hshort 404 (by decide) _ _ (by decide) (by decide)

/-- The effects of an executed statement, from its answer on. -/
def executedEffects (dependencies : Option (HttpServerDependencies σ)) (sendings : List Sending)
    (path : CString) (execution : Execution) : List Effect :=
  (sendAnswer sendings (executionAnswer path execution)).1 ++
    ((dependencies.bind HttpServerDependencies.cleanupQueryResult).elim []
      fun _ => [.cleaned execution.result]) ++ [.closed]

/-- What the handling of a connection can be. -/
inductive Handling (maxRequestBytes : Nat) (dependencies : Option (HttpServerDependencies σ))
    (client : Client) (sendings : List Sending) (engine : σ) : Handled σ → Prop where
  | silent (silent : Silent client)
      (no_request : ∀ request,
        ¬ IsRequest maxRequestBytes (receivedBytes maxRequestBytes client) request) :
      Handling maxRequestBytes dependencies client sendings engine
        { effects := [.closed], success := true, engine }
  | answered {answer success} (speaks : ¬ Silent client)
      (short : answer.text.length ≤ INT_MAX)
      (no_query : ∀ request,
        IsRequest maxRequestBytes (receivedBytes maxRequestBytes client) request →
          IsQuery request → queryExecutor dependencies = none) :
      Handling maxRequestBytes dependencies client sendings engine
        { effects := [.answered answer answer.text (httpSendAll sendings answer.text).1, .closed]
          success
          engine }
  | executed {request call handled} (speaks : ¬ Silent client)
      (is_request : IsRequest maxRequestBytes (receivedBytes maxRequestBytes client) request)
      (is_query : IsQuery request) (executor : queryExecutor dependencies = some call)
      (effects : handled.effects =
        .executed (.of request.body) (call (.of request.body) engine).1 ::
          executedEffects dependencies sendings (.of request.path)
            (call (.of request.body) engine).1) :
      Handling maxRequestBytes dependencies client sendings engine handled

theorem routed_effects {request : HttpRequest}
    {dependencies : Option (HttpServerDependencies σ)} {call : CString → σ → Execution × σ}
    {sql : CString} {sendings : List Sending} {engine : σ}
    (hroute : route request dependencies = .execute call sql) :
    (httpRouteRequest request dependencies sendings engine).effects ++ [.closed] =
      .executed sql (call sql engine).1 ::
        executedEffects dependencies sendings (.of request.path) (call sql engine).1 := by
  rw [httpRouteRequest, hroute, executedEffects]
  dsimp only
  cases dependencies.bind HttpServerDependencies.cleanupQueryResult with
  | none =>
    rw [Option.elim_none, List.append_nil]
    rfl
  | some cleanup =>
    rw [Option.elim_some]
    rfl

theorem handling {config : Option Nat} (hconfig : ∀ n ∈ config, n ≤ SIZE_MAX)
    {dependencies : Option (HttpServerDependencies σ)} {client : Client} {sendings : List Sending}
    {engine : σ} {handled : Handled σ}
    (h : httpServerHandleClient config dependencies client sendings engine = some handled) :
    Handling (effectiveMax (config.getD 0)) dependencies client sendings engine handled := by
  have hpos : 0 < effectiveMax (config.getD 0) := by
    rw [effectiveMax, HTTP_DEFAULT_MAX_REQUEST_BYTES]
    split <;> omega
  have hsize : effectiveMax (config.getD 0) ≤ SIZE_MAX := by
    rw [effectiveMax]
    split
    · decide
    · cases config with
      | none => exact Nat.zero_le _
      | some n => exact hconfig n rfl
  have hclosed := @receiveRequest_closed (effectiveMax (config.getD 0)) client
  have hcomplete := receiveRequest_complete hpos hsize client
  have hrejects := receiveRequest_rejects (effectiveMax (config.getD 0)) client
  rw [httpServerHandleClient] at h
  generalize hreceived : receiveRequest (effectiveMax (config.getD 0)) client = received at *
  cases received with
  | waiting => cases h
  | closed =>
    cases h
    exact .silent (hclosed.mp rfl) fun request hrequest => nomatch (hcomplete request).mpr hrequest
  | rejected statusCode errorCode message =>
    obtain ⟨hstatus, -, hbounded⟩ := hrejects
    cases h
    rw [sendAnswer_fits (error_fits hstatus hbounded)]
    refine .answered (fun hsilent => by cases hclosed.mpr hsilent) (error_fits hstatus hbounded)
      fun request hrequest _ => nomatch (hcomplete request).mpr hrequest
  | complete request =>
    have hrequest := (hcomplete request).mp rfl
    have hspeaks : ¬ Silent client := fun hsilent => by cases hclosed.mpr hsilent
    cases h
    cases hroute : route request dependencies with
    | answer answer =>
      have hfits := route_answer_fits hrequest.path_length hroute
      rw [httpRouteRequest, hroute]
      dsimp only
      rw [sendAnswer_fits hfits]
      refine .answered hspeaks hfits fun other hother hquery => ?_
      have hsame := (hcomplete other).mpr hother
      cases hsame
      cases hexecutor : queryExecutor dependencies with
      | none => rfl
      | some call =>
        rw [route_execute.mpr ⟨hquery, hexecutor, rfl⟩] at hroute
        cases hroute
    | execute call sql =>
      obtain ⟨hquery, hexecutor, rfl⟩ := route_execute.mp hroute
      exact .executed hspeaks hrequest hquery hexecutor (routed_effects hroute)

theorem query_path {request : HttpRequest} (h : IsQuery request) :
    CString.of request.path = text "/query" :=
  CString.ext h.path

/-- An engine that answers each statement with the same output. -/
def constantEngine (outputText : CString) (cleans : Bool) : HttpServerDependencies Unit where
  executeQuery := some fun _ engine =>
    ({ returned := true
       result := { ok := true, affectedRows := 0, message := none, outputText := some outputText }
       error := [] }, engine)
  cleanupQueryResult := if cleans then some fun _ engine => engine else none

def selectRequest (path : Bytes) : HttpRequest where
  method := ascii "POST"
  path := path
  version := ascii "HTTP/1.1"
  contentType := []
  debugSleepMs := []
  debugSleepMsPresent := false
  contentLength := 8
  body := ascii "SELECT 1"

theorem selectRequest_query {path : Bytes} (h : cString path = ascii "/query") :
    IsQuery (selectRequest path) where
  path := h
  method := (by decide : cString (ascii "POST") = ascii "POST")
  contentType := (by decide : httpContentTypeIsSql [] = true)
  contentLength := (by decide : 8 ≠ 0)
  body := ⟨83, (by decide : 83 ∈ cString (ascii "SELECT 1")), rfl⟩
  debugSleepMs := fun h => by cases h

end DbApi.Http
