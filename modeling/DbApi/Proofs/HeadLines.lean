import DbApi.Proofs.RequestRoundTrip
import DbApi.Proofs.SizeLimit

/-! A head as the lines that a client sends, and the verdict on a client that sends one
message and nothing else. -/

namespace DbApi.Http

open DbApi.Library

def freshState (request : HttpRequest) : HeaderState where
  request := request
  sawContentLength := false
  sawContentType := false
  sawDebugSleepMs := false

/-- A message as its lines. -/
def messageBytes (requestLine : Bytes) (lines : List Bytes) (body : Bytes) : Bytes :=
  joinLines requestLine lines ++ blankLine ++ body

theorem parseHeaderLines_ended (state : HeaderState) (lines : List Bytes) :
    parseHeaderLines state (lines ++ [[]]) = lines.foldlM parseHeaderLine state := by
  induction lines generalizing state with
  | nil => rfl
  | cons line lines ih =>
    rw [List.cons_append, parseHeaderLines_cons (by simp), List.foldlM_cons]
    exact congrArg (parseHeaderLine state line >>= ·) (funext ih)

section Lines

variable {requestLine : Bytes} {lines : List Bytes}

theorem messageBytes_ended (requestLine : Bytes) (lines : List Bytes) (body : Bytes) :
    messageBytes requestLine lines body =
      requestLine ++ (crlf ++ (lines.flatMap (· ++ crlf) ++ (crlf ++ body))) := by
  have hends := flatMap_crlf lines
  simp only [messageBytes, joinLines, blankLine, List.append_assoc]
  rw [← List.append_assoc (lines.flatMap _), hends]
  simp only [List.append_assoc]

theorem joinLines_length (requestLine : Bytes) (lines : List Bytes) :
    (joinLines requestLine lines).length + 2 =
      requestLine.length + 2 + (lines.flatMap (· ++ crlf)).length := by
  have hends := congrArg List.length (flatMap_crlf lines)
  simp only [List.length_append] at hends
  change _ + 2 = 2 + _ at hends
  rw [joinLines, List.length_append]
  omega

theorem messageBytes_lines (requestLine : Bytes) (lines : List Bytes) (body : Bytes) :
    ((messageBytes requestLine lines body).take ((joinLines requestLine lines).length + 2)).drop
      (requestLine.length + 2) = lines.flatMap (· ++ crlf) := by
  have hdrop : (messageBytes requestLine lines body).drop (requestLine.length + 2) =
      lines.flatMap (· ++ crlf) ++ (crlf ++ body) := by
    rw [messageBytes_ended, ← List.append_assoc requestLine]
    exact List.drop_left' (by simp [crlf])
  rw [List.drop_take, hdrop, joinLines_length]
  exact List.take_left' (by omega)

theorem messageBytes_body (requestLine : Bytes) (lines : List Bytes) (body : Bytes) :
    (messageBytes requestLine lines body).drop ((joinLines requestLine lines).length + 4) = body :=
  List.drop_left' (by simp [blankLine, crlf])

theorem messageBytes_length (requestLine : Bytes) (lines : List Bytes) (body : Bytes) :
    (messageBytes requestLine lines body).length =
      (joinLines requestLine lines).length + 4 + body.length := by
  rw [messageBytes, List.length_append, List.length_append]
  rfl

/-- The head is read line by line. -/
theorem parseHead_lines (hr : Unbroken requestLine)
    (hl : ∀ line ∈ lines, line ≠ [] ∧ Unbroken line) (body : Bytes) :
    parseHead (messageBytes requestLine lines body) = (do
      let request ← httpParseRequestLine requestLine emptyRequest
      let state ← lines.foldlM parseHeaderLine (freshState request)
      return (state.request, (joinLines requestLine lines).length + 4)) := by
  have hend : httpFindHeaderEnd (messageBytes requestLine lines body) =
      some ((joinLines requestLine lines).length + 4) := by
    rw [httpFindHeaderEnd, messageBytes, findFirst_blankLine hr hl]
    rfl
  have hfirst : httpFindCrlf ((messageBytes requestLine lines body).take
      ((joinLines requestLine lines).length + 4)) = some requestLine.length := by
    have hlength := joinLines_length requestLine lines
    have hcrlf := findFirst_crlf hr (lines.flatMap (· ++ crlf) ++ (crlf ++ body))
    rw [← messageBytes_ended] at hcrlf
    refine findFirst_take_of_le hcrlf ?_
    change _ + 2 ≤ _
    omega
  have hline : (messageBytes requestLine lines body).take requestLine.length = requestLine := by
    rw [messageBytes_ended]
    exact List.take_left
  have hended := splitLines_ended fun line hmem => (hl line hmem).2
  rw [parseHead, hend]
  dsimp only
  rw [hfirst]
  dsimp only
  rw [hline]
  cases httpParseRequestLine requestLine emptyRequest with
  | error error => rfl
  | ok request =>
    rw [except_ok_bind, except_ok_bind, httpParseHeaders, Nat.add_sub_assoc (by decide),
      messageBytes_lines, hended, parseHeaderLines_ended]
    change Except.map _ (lines.foldlM parseHeaderLine (freshState request)) >>= _ = _
    cases lines.foldlM parseHeaderLine (freshState request) with
    | error error => rfl
    | ok state => rfl

end Lines

section Whole

variable {maxRequestBytes : Nat} {client : Client}

theorem recv_stream {room : Nat} {client next : Client} {chunk : Bytes}
    (h : recv room client = some (.bytes chunk, next)) :
    arrived client.arrivals = chunk ++ arrived next.arrivals := by
  rw [recv] at h
  split at h
  · cases h
    rfl
  · split at h
    · rename_i hnil
      split at h
      · cases h
        rw [hnil]
        rfl
      · cases h
    · cases h
    · cases h
    · rename_i first more arrivals hfirst
      rw [hfirst]
      dsimp only at h
      split at h
      · rename_i hrest
        cases h
        rw [arrived, List.take_of_length_le (List.drop_eq_nil_iff.mp hrest)]
      · rename_i b rest hrest
        cases h
        have hsplit := List.take_append_drop (room - 1) more
        rw [hrest] at hsplit
        rw [arrived, arrived, ← List.append_assoc, List.cons_append, List.cons_append, hsplit]
        rfl

/-- What the server holds of a client is a front of what the client sends. -/
theorem round_front {reception next : Reception} {ending : Option (ReceiveEnd Nat)}
    (h : receiveRound maxRequestBytes reception = (next, ending)) :
    next.requestBuffer <+: reception.stream ∧ (ending = none → next.stream = reception.stream) := by
  have hhere : reception.requestBuffer <+: reception.stream := List.prefix_append _ _
  rw [receiveRound] at h
  split at h
  · split at h
    · cases h
      exact ⟨hhere, fun hnone => by cases hnone⟩
    · cases h
      exact ⟨hhere, fun hnone => by cases hnone⟩
  · split at h
    · cases h
      exact ⟨hhere, fun hnone => by cases hnone⟩
    · rename_i hrecv
      cases h
      refine ⟨hhere, fun _ => ?_⟩
      rw [Reception.stream, Reception.stream, recv_interrupted hrecv]
      rfl
    · cases h
      exact ⟨hhere, fun hnone => by cases hnone⟩
    · cases h
      exact ⟨hhere, fun hnone => by cases hnone⟩
    · rename_i hrecv
      obtain ⟨rfl, -⟩ := Prod.mk.inj h
      have hstream := recv_stream hrecv
      rw [Reception.stream, Reception.stream, hstream, ← List.append_assoc]
      exact ⟨List.prefix_append _ _, fun _ => rfl⟩

theorem loop_front (reception : Reception) :
    (receiveLoop maxRequestBytes reception).1.requestBuffer <+: reception.stream := by
  induction hweight : reception.client.weight using Nat.strongRecOn generalizing reception with
  | ind weight ih =>
    rw [receiveLoop]
    split
    · rename_i next hnext
      rw [← (round_front hnext).2 rfl]
      exact ih _ (hweight ▸ receiveRound_weight hnext) next rfl
    · rename_i next ending hnext
      exact (round_front hnext).1

/-- A verdict on all that a client sends is the end of the loop. -/
theorem loop_decided (hpos : 0 < maxRequestBytes) (hsize : maxRequestBytes ≤ SIZE_MAX)
    (hlimit : (arrived client.arrivals).length ≤ maxRequestBytes) {ending : ReceiveEnd Nat}
    (h : judgeProbe maxRequestBytes (httpRequestProbe (arrived client.arrivals) maxRequestBytes) =
      some ending) :
    (receiveLoop maxRequestBytes (freshReception client)).2 = ending := by
  have houtcome := fresh_outcome hpos hsize client
  have htake := take_reach_all hlimit
  have hdecides : Decides maxRequestBytes
      ((arrived client.arrivals).take (reach maxRequestBytes 0 client.arrivals)) := by
    intro hnone
    rw [htake, h] at hnone
    cases hnone
  generalize (receiveLoop maxRequestBytes (freshReception client)).2 = last at houtcome ⊢
  cases houtcome with
  | decided verdict held =>
    rw [htake, h] at verdict
    exact (Option.some.inj verdict).symm
  | full undecided large limit long held => exact absurd hdecides undecided
  | beyond undecided small long past other => exact absurd hdecides undecided
  | stopped undecided short held other => exact absurd hdecides undecided

/-- A client that sends a request that cannot be read. -/
theorem receive_invalid (hpos : 0 < maxRequestBytes) (hsize : maxRequestBytes ≤ SIZE_MAX)
    (hlimit : (arrived client.arrivals).length ≤ maxRequestBytes) {error : Bytes}
    (hend : ∃ headerLength, httpFindHeaderEnd (arrived client.arrivals) = some headerLength)
    (h : parseHead (arrived client.arrivals) = .error error) :
    receiveRequest maxRequestBytes client = invalidRequest error := by
  have heff : effectiveMax maxRequestBytes = maxRequestBytes := if_neg (by omega)
  obtain ⟨headerLength, hend⟩ := hend
  have hjudge : judgeProbe maxRequestBytes
      (httpRequestProbe (arrived client.arrivals) maxRequestBytes) =
        some (invalidRequest error) := by
    rw [probe_some (hlimit.trans_eq heff.symm) hend, httpExtractHeadMetadata, h]
    change judgeProbe _ (probeHead _ _ (.error error)) = _
    rw [probeHead, judgeProbe, if_neg (Nat.not_lt_zero _)]
  have hloop := loop_decided hpos hsize hlimit hjudge
  rw [receiveRequest]
  change parseReceived _ (receiveLoop maxRequestBytes (freshReception client)).2 = _
  rw [hloop]
  rfl

/-- A client that sends one request, whole and alone. -/
theorem receive_alone (hpos : 0 < maxRequestBytes) (hsize : maxRequestBytes ≤ SIZE_MAX)
    (hlimit : (arrived client.arrivals).length ≤ maxRequestBytes) {request : HttpRequest}
    {headerLength : Nat}
    (h : parseHead (arrived client.arrivals) = .ok (request, headerLength))
    (hfits : headerLength + request.contentLength = (arrived client.arrivals).length) :
    receiveRequest maxRequestBytes client =
      .complete { request with body := (arrived client.arrivals).drop headerLength } := by
  have heff : effectiveMax maxRequestBytes = maxRequestBytes := if_neg (by omega)
  have hmeta : httpExtractHeadMetadata (arrived client.arrivals) =
      .ok { headerLength, contentLength := request.contentLength } := by
    rw [httpExtractHeadMetadata, h]
    rfl
  have hprobe : httpRequestProbe (arrived client.arrivals) maxRequestBytes =
      { result := .complete, requestLength := (arrived client.arrivals).length } := by
    rw [probe_some (hlimit.trans_eq heff.symm) (parseHead_length h), hmeta]
    exact probeHead_complete.mpr
      ⟨_, rfl, hfits.symm, by dsimp only; omega, heff.symm ▸ hlimit, le_rfl⟩
  have hjudge := (judge_request hpos hprobe).2
  have hloop := loop_decided hpos hsize hlimit hjudge
  have hfront : (receiveLoop maxRequestBytes (freshReception client)).1.requestBuffer <+:
      arrived client.arrivals := loop_front (freshReception client)
  have hjudged := @loop_judged maxRequestBytes (freshReception client) (judge_fresh maxRequestBytes)
  rw [hloop] at hjudged
  rw [receiveRequest]
  change parseReceived (receiveLoop maxRequestBytes (freshReception client)).1.requestBuffer
    (receiveLoop maxRequestBytes (freshReception client)).2 = _
  rw [hloop]
  rcases hjudged with hcomplete | ⟨-, hnone⟩
  · have hwhole := (probe_complete (judge_complete hcomplete).1).2.1
    rw [hfront.eq_of_length_le hwhole, parseReceived, ← hfits, parse_complete h hfits.le]
    have hbody : ((arrived client.arrivals).drop headerLength).take request.contentLength =
        (arrived client.arrivals).drop headerLength := by
      refine List.take_of_length_le ?_
      rw [List.length_drop]
      omega
    rw [hbody]
  · exact absurd rfl (hnone _)

end Whole

end DbApi.Http
