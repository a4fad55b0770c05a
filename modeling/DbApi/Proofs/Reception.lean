import DbApi.Http.Server

namespace DbApi.Http

open DbApi.Library

theorem findHeaderEnd_fits {buffer : Bytes} {headerLength : Nat}
    (h : httpFindHeaderEnd buffer = some headerLength) :
    4 ≤ headerLength ∧ headerLength ≤ buffer.length := by
  obtain ⟨n, hn, rfl⟩ := Option.map_eq_some_iff.mp h
  have := findFirst_fits hn
  change n + 4 ≤ buffer.length at this
  change 4 ≤ n + 4 ∧ n + 4 ≤ buffer.length
  omega

theorem findHeaderEnd_append {buffer : Bytes} {headerLength : Nat}
    (h : httpFindHeaderEnd buffer = some headerLength) (more : Bytes) :
    httpFindHeaderEnd (buffer ++ more) = some headerLength := by
  obtain ⟨n, hn, rfl⟩ := Option.map_eq_some_iff.mp h
  rw [httpFindHeaderEnd, findFirst_append hn more]
  rfl

theorem findHeaderEnd_take {buffer : Bytes} {headerLength n : Nat}
    (h : httpFindHeaderEnd buffer = some headerLength) (hn : headerLength ≤ n) :
    httpFindHeaderEnd (buffer.take n) = some headerLength := by
  obtain ⟨k, hk, rfl⟩ := Option.map_eq_some_iff.mp h
  rw [httpFindHeaderEnd, findFirst_take_of_le hk hn]
  rfl

/-- The head is read from its own bytes alone. -/
theorem parseHead_append {buffer : Bytes} {headerLength : Nat}
    (h : httpFindHeaderEnd buffer = some headerLength) (more : Bytes) :
    parseHead (buffer ++ more) = parseHead buffer := by
  have hfits := (findHeaderEnd_fits h).2
  have htake : ∀ k ≤ headerLength, (buffer ++ more).take k = buffer.take k := fun k hk =>
    List.take_append_of_le_length (hk.trans hfits)
  rw [parseHead, parseHead, findHeaderEnd_append h, h]
  dsimp only
  rw [htake headerLength le_rfl, htake (headerLength - 2) (Nat.sub_le _ _)]
  cases hcrlf : httpFindCrlf (buffer.take headerLength) with
  | none => rfl
  | some requestLineEnd =>
    have hline : requestLineEnd ≤ headerLength := by
      have := findFirst_fits hcrlf
      rw [List.length_take] at this
      omega
    dsimp only
    rw [htake requestLineEnd hline]

theorem parseHead_length {buffer : Bytes} {request : HttpRequest} {headerLength : Nat}
    (h : parseHead buffer = .ok (request, headerLength)) :
    httpFindHeaderEnd buffer = some headerLength := by
  rw [parseHead] at h
  split at h
  · cases h
  · rename_i heq
    split at h
    · cases h
    · simp only [except_bind_ok] at h
      obtain ⟨_, -, _, -, h⟩ := h
      cases h
      exact heq

theorem metadata_append {buffer : Bytes} {headerLength : Nat}
    (h : httpFindHeaderEnd buffer = some headerLength) (more : Bytes) :
    httpExtractHeadMetadata (buffer ++ more) = httpExtractHeadMetadata buffer := by
  rw [httpExtractHeadMetadata, httpExtractHeadMetadata, parseHead_append h]

theorem probe_none {maxRequestBytes : Nat} {buffer : Bytes}
    (hlength : buffer.length ≤ effectiveMax maxRequestBytes)
    (h : httpFindHeaderEnd buffer = none) :
    httpRequestProbe buffer maxRequestBytes = { result := .incomplete, requestLength := 0 } := by
  rw [httpRequestProbe, if_neg (Nat.not_lt.mpr hlength), h]

theorem probe_some {maxRequestBytes headerLength : Nat} {buffer : Bytes}
    (hlength : buffer.length ≤ effectiveMax maxRequestBytes)
    (h : httpFindHeaderEnd buffer = some headerLength) :
    httpRequestProbe buffer maxRequestBytes =
      probeHead (effectiveMax maxRequestBytes) buffer.length (httpExtractHeadMetadata buffer) := by
  rw [httpRequestProbe, if_neg (Nat.not_lt.mpr hlength), h]

/-- With more bytes behind a head, an incomplete request may have become complete. -/
theorem probeHead_longer {maxBytes short long : Nat} (h : short ≤ long)
    (head : Except Bytes HttpHeadMetadata) :
    probeHead maxBytes long head = probeHead maxBytes short head ∨
      (probeHead maxBytes short head).result = .incomplete ∧
        (probeHead maxBytes short head).requestLength =
          (probeHead maxBytes long head).requestLength := by
  cases head with
  | error error => exact .inl rfl
  | ok metadata =>
    simp only [probeHead]
    by_cases hoverflow : SIZE_MAX - metadata.contentLength < metadata.headerLength
    · exact .inl (by rw [if_pos hoverflow, if_pos hoverflow])
    · rw [if_neg hoverflow, if_neg hoverflow]
      by_cases hlarge : maxBytes < metadata.headerLength + metadata.contentLength
      · exact .inl (by rw [if_pos hlarge, if_pos hlarge])
      · rw [if_neg hlarge, if_neg hlarge]
        by_cases hcomplete : metadata.headerLength + metadata.contentLength ≤ short
        · exact .inl (by rw [if_pos hcomplete, if_pos (hcomplete.trans h)])
        · rw [if_neg hcomplete]
          refine .inr ⟨rfl, ?_⟩
          split <;> rfl

/-- A verdict on what has come holds whatever may still come. -/
theorem judge_append {maxRequestBytes : Nat} {buffer more : Bytes} {ending : ReceiveEnd Nat}
    (hlength : (buffer ++ more).length ≤ effectiveMax maxRequestBytes)
    (h : judgeProbe maxRequestBytes (httpRequestProbe buffer maxRequestBytes) = some ending) :
    judgeProbe maxRequestBytes (httpRequestProbe (buffer ++ more) maxRequestBytes) =
      some ending := by
  have hle : buffer.length ≤ (buffer ++ more).length := by simp
  cases hend : httpFindHeaderEnd buffer with
  | none =>
    rw [probe_none (hle.trans hlength) hend] at h
    cases h
  | some headerLength =>
    rw [probe_some (hle.trans hlength) hend] at h
    rw [probe_some hlength (findHeaderEnd_append hend more), metadata_append hend]
    rcases probeHead_longer hle (httpExtractHeadMetadata buffer) with hsame | ⟨hresult, hrequest⟩
    · rw [hsame]
      exact h
    · -- What is too large for the server is rejected before it has come.
      rw [judgeProbe, hresult, hrequest] at h
      rw [judgeProbe]
      split at h
      · rename_i hlimit
        rw [if_pos hlimit]
        exact h
      · cases h

theorem metadata_ok {buffer : Bytes} {metadata : HttpHeadMetadata}
    (h : httpExtractHeadMetadata buffer = .ok metadata) :
    ∃ request, parseHead buffer = .ok (request, metadata.headerLength) ∧
      metadata.contentLength = request.contentLength := by
  obtain ⟨⟨request, headerLength⟩, hhead, hpure⟩ := except_bind_ok.mp h
  cases hpure
  exact ⟨request, hhead, rfl⟩

theorem probeHead_complete {maxBytes bufferLength n : Nat} {head : Except Bytes HttpHeadMetadata} :
    probeHead maxBytes bufferLength head = { result := .complete, requestLength := n } ↔
      ∃ metadata, head = .ok metadata ∧ n = metadata.headerLength + metadata.contentLength ∧
        metadata.headerLength ≤ SIZE_MAX - metadata.contentLength ∧ n ≤ maxBytes ∧
        n ≤ bufferLength := by
  constructor
  · intro h
    cases head with
    | error error => cases h
    | ok metadata =>
      rw [probeHead] at h
      split at h
      · cases h
      · rename_i hsize
        dsimp only at h
        split at h
        · cases h
        · rename_i hmax
          split at h
          · cases h
            exact ⟨metadata, rfl, rfl, Nat.not_lt.mp hsize, Nat.not_lt.mp hmax, ‹_›⟩
          · cases h
  · rintro ⟨metadata, rfl, rfl, hsize, hmax, hfits⟩
    rw [probeHead, if_neg (Nat.not_lt.mpr hsize)]
    dsimp only
    rw [if_neg (Nat.not_lt.mpr hmax), if_pos hfits]

theorem probe_complete {maxRequestBytes n : Nat} {buffer : Bytes}
    (h : httpRequestProbe buffer maxRequestBytes = { result := .complete, requestLength := n }) :
    buffer.length ≤ effectiveMax maxRequestBytes ∧ n ≤ buffer.length ∧
      ∃ request headerLength, parseHead buffer = .ok (request, headerLength) ∧
        n = headerLength + request.contentLength := by
  rw [httpRequestProbe] at h
  split at h
  · cases h
  · rename_i hlength
    split at h
    · cases h
    · obtain ⟨metadata, hmeta, hn, -, -, hfits⟩ := probeHead_complete.mp h
      obtain ⟨request, hhead, hcontent⟩ := metadata_ok hmeta
      exact ⟨Nat.not_lt.mp hlength, hfits, request, _, hhead, hcontent ▸ hn⟩

/-- The bytes of a complete request parse to what its head says and the rest of them. -/
theorem parse_complete {buffer : Bytes} {request : HttpRequest} {headerLength : Nat}
    (h : parseHead buffer = .ok (request, headerLength))
    (hfits : headerLength + request.contentLength ≤ buffer.length) :
    httpParseRequest (buffer.take (headerLength + request.contentLength)) =
      .ok { request with body := (buffer.drop headerLength).take request.contentLength } := by
  have hend := parseHead_length h
  have hhead : parseHead (buffer.take (headerLength + request.contentLength)) =
      .ok (request, headerLength) := by
    rw [← h, ← parseHead_append (findHeaderEnd_take hend (Nat.le_add_right _ _)) (buffer.drop _),
      List.take_append_drop]
  rw [httpParseRequest, hhead, except_ok_bind]
  dsimp only
  rw [List.length_take, Nat.min_eq_left hfits, if_neg (by omega), List.drop_take,
    Nat.add_sub_cancel_left, List.take_take, Nat.min_self]
  rfl

/-- What comes of the bytes of a client until it fails. -/
def arrived : List Arrival → Bytes
  | [] => []
  | .bytes first more :: arrivals => first :: more ++ arrived arrivals
  | .interrupted :: arrivals => arrived arrivals
  | .failed :: _ => []

/-- What a read with room can return. -/
inductive Reads (room : Nat) (client : Client) : Option (Received × Client) → Prop where
  | silent (none_left : client.arrivals = []) (stays : client.closes = false) : Reads room client none
  | closed (none_left : client.arrivals = []) (closes : client.closes = true) :
      Reads room client (some (.bytes [], client))
  | interrupted {next} (first : client.arrivals = .interrupted :: next.arrivals)
      (closes : next.closes = client.closes) : Reads room client (some (.interrupted, next))
  | failed {next} (failed : .failed ∈ client.arrivals) : Reads room client (some (.failed, next))
  | bytes {first more next} (fits : (first :: more).length ≤ room)
      (front : arrived client.arrivals = first :: more ++ arrived next.arrivals)
      (closes : next.closes = client.closes)
      (alive : .failed ∉ client.arrivals → .failed ∉ next.arrivals) :
      Reads room client (some (.bytes (first :: more), next))

theorem recv_reads {room : Nat} (hr : 0 < room) (client : Client) :
    Reads room client (recv room client) := by
  obtain ⟨arrivals, closes⟩ := client
  rw [recv, if_neg (by omega)]
  cases arrivals with
  | nil =>
    cases closes with
    | true => exact .closed rfl rfl
    | false => exact .silent rfl rfl
  | cons arrival arrivals =>
    cases arrival with
    | interrupted => exact .interrupted rfl rfl
    | failed => exact .failed List.mem_cons_self
    | bytes first more =>
      dsimp only
      split
      · rename_i hrest
        have hall : more.take (room - 1) = more :=
          List.take_of_length_le (List.drop_eq_nil_iff.mp hrest)
        refine .bytes (by simp; omega) ?_ rfl fun hf hmem => hf (List.mem_cons_of_mem _ hmem)
        rw [hall]
        rfl
      · rename_i b left hrest
        refine .bytes (by simp; omega) ?_ rfl fun hf hmem => ?_
        · change first :: more ++ arrived arrivals =
            first :: more.take (room - 1) ++ (b :: left ++ arrived arrivals)
          rw [← hrest, List.cons_append, List.cons_append, ← List.append_assoc,
            List.take_append_drop]
        · rcases List.mem_cons.mp hmem with hmem | hmem
          · cases hmem
          · exact hf (List.mem_cons_of_mem _ hmem)

theorem growCapacity_spec {rounds newCapacity minimumCapacity maximumCapacity : Nat}
    (hpos : 0 < newCapacity) (hle : newCapacity ≤ maximumCapacity)
    (hrounds : minimumCapacity ≤ newCapacity + rounds) :
    newCapacity ≤ growCapacity rounds newCapacity minimumCapacity maximumCapacity ∧
      growCapacity rounds newCapacity minimumCapacity maximumCapacity ≤ maximumCapacity ∧
      (minimumCapacity ≤ maximumCapacity →
        minimumCapacity ≤ growCapacity rounds newCapacity minimumCapacity maximumCapacity) := by
  induction rounds generalizing newCapacity with
  | zero => exact ⟨le_rfl, hle, fun _ => hrounds⟩
  | succ rounds ih =>
    rw [growCapacity]
    split
    · rename_i hlt
      split
      · exact ⟨hle, le_rfl, id⟩
      · rename_i hmax
        split
        · obtain ⟨hlow, hhigh, hmin⟩ := @ih maximumCapacity (by omega) le_rfl (by omega)
          exact ⟨hle.trans hlow, hhigh, hmin⟩
        · obtain ⟨hlow, hhigh, hmin⟩ := @ih (newCapacity * 2) (by omega) (by omega) (by omega)
          exact ⟨by omega, hhigh, hmin⟩
    · exact ⟨le_rfl, hle, fun _ => by omega⟩

/-- The buffer grows to any size that the limit allows, and to no other. -/
theorem httpGrowBuffer_spec {capacity maximumCapacity : Nat}
    (hmax : HTTP_RECEIVE_CHUNK_BYTES ≤ maximumCapacity) (hle : capacity ≤ maximumCapacity)
    (minimumCapacity : Nat) :
    (minimumCapacity ≤ maximumCapacity →
      ∃ newCapacity, httpGrowBuffer capacity minimumCapacity maximumCapacity = some newCapacity ∧
        minimumCapacity ≤ newCapacity ∧ newCapacity ≤ maximumCapacity) ∧
    (maximumCapacity < minimumCapacity →
      httpGrowBuffer capacity minimumCapacity maximumCapacity = none) := by
  rw [HTTP_RECEIVE_CHUNK_BYTES] at hmax
  obtain ⟨start, hstart, hpos, hfits⟩ :
      ∃ start, (if capacity = 0 then HTTP_RECEIVE_CHUNK_BYTES else capacity) = start ∧ 0 < start ∧
        start ≤ maximumCapacity := by
    rw [HTTP_RECEIVE_CHUNK_BYTES]
    split
    · exact ⟨_, rfl, by omega, hmax⟩
    · exact ⟨_, rfl, by omega, hle⟩
  obtain ⟨-, hhigh, hgrown⟩ :=
    @growCapacity_spec (minimumCapacity + 1) start minimumCapacity maximumCapacity hpos hfits (by omega)
  constructor
  · intro hmin
    refine ⟨_, ?_, hgrown hmin, hhigh⟩
    rw [httpGrowBuffer, hstart, if_neg (Nat.not_lt.mpr (hgrown hmin))]
  · intro hmin
    rw [httpGrowBuffer, hstart, if_pos (by omega)]

/-- What becomes of a stream of bytes, however it arrives: the verdict on as much of it as
the server takes, else what follows from its end. -/
def streamEnd (maxRequestBytes : Nat) (stream : Bytes) (closes : Bool) : ReceiveEnd Nat :=
  match judgeProbe maxRequestBytes
      (httpRequestProbe (stream.take maxRequestBytes) maxRequestBytes) with
  | some ending => ending
  | none =>
    if maxRequestBytes ≤ stream.length ∧ maxRequestBytes < SIZE_MAX then payloadTooLarge
    else if maxRequestBytes ≤ stream.length ∨ closes = true then
      if stream.length = 0 then .closed
      else .rejected 400 (text "incomplete_request")
        (text "client closed the connection before the request completed")
    else .waiting

theorem streamEnd_full {maxRequestBytes : Nat} {buffer : Bytes}
    (hmax : HTTP_RECEIVE_CHUNK_BYTES ≤ maxRequestBytes) (hfull : buffer.length = maxRequestBytes)
    (hnone : judgeProbe maxRequestBytes (httpRequestProbe buffer maxRequestBytes) = none)
    (more : Bytes) (closes : Bool) :
    streamEnd maxRequestBytes (buffer ++ more) closes =
      if maxRequestBytes < SIZE_MAX then payloadTooLarge
      else .rejected 400 (text "incomplete_request")
        (text "client closed the connection before the request completed") := by
  rw [HTTP_RECEIVE_CHUNK_BYTES] at hmax
  have htake : (buffer ++ more).take maxRequestBytes = buffer := by rw [← hfull, List.take_left]
  have hlong : maxRequestBytes ≤ (buffer ++ more).length := by
    rw [List.length_append]
    omega
  rw [streamEnd, htake, hnone]
  dsimp only
  by_cases hsize : maxRequestBytes < SIZE_MAX
  · rw [if_pos ⟨hlong, hsize⟩, if_pos hsize]
  · rw [if_neg (fun h => hsize h.2), if_neg hsize, if_pos (.inl hlong), if_neg (by omega)]

theorem streamEnd_stops {maxRequestBytes : Nat} {buffer : Bytes}
    (hlength : buffer.length < maxRequestBytes)
    (hnone : judgeProbe maxRequestBytes (httpRequestProbe buffer maxRequestBytes) = none)
    (closes : Bool) :
    streamEnd maxRequestBytes buffer closes =
      if closes = true then
        if buffer.length = 0 then .closed
        else .rejected 400 (text "incomplete_request")
          (text "client closed the connection before the request completed")
      else .waiting := by
  rw [streamEnd, List.take_of_length_le hlength.le, hnone]
  dsimp only
  rw [if_neg (by omega)]
  cases closes with
  | true => rw [if_pos (.inr rfl), if_pos rfl]
  | false => rw [if_neg (by simp; omega), if_neg (by simp)]

theorem streamEnd_decided {maxRequestBytes : Nat} {buffer : Bytes} {ending : ReceiveEnd Nat}
    (hpos : 0 < maxRequestBytes) (hlength : buffer.length ≤ maxRequestBytes)
    (h : judgeProbe maxRequestBytes (httpRequestProbe buffer maxRequestBytes) = some ending)
    (more : Bytes) (closes : Bool) :
    streamEnd maxRequestBytes (buffer ++ more) closes = ending := by
  have heff : effectiveMax maxRequestBytes = maxRequestBytes := if_neg (by omega)
  have htake : (buffer ++ more).take maxRequestBytes =
      buffer ++ more.take (maxRequestBytes - buffer.length) := by
    rw [List.take_append, List.take_of_length_le hlength]
  rw [streamEnd, htake, judge_append (by rw [heff]; simp; omega) h]

/-- The receive loop as long as it has not decided. -/
structure Receiving (maxRequestBytes : Nat) (reception : Reception) : Prop where
  fits : reception.requestBuffer.length ≤ maxRequestBytes
  capacity : reception.bufferCapacity ≤ maxRequestBytes
  undecided : judgeProbe maxRequestBytes (httpRequestProbe reception.requestBuffer maxRequestBytes) =
    none
  alive : .failed ∉ reception.client.arrivals

/-- The bytes received, and those to come. -/
def Reception.stream (reception : Reception) : Bytes :=
  reception.requestBuffer ++ arrived reception.client.arrivals

/-- What a round leads to: a like state of the loop, or the end that the stream has. -/
def RoundEnd (maxRequestBytes : Nat) (reception : Reception) :
    Reception × Option (ReceiveEnd Nat) → Prop
  | (next, none) =>
    Receiving maxRequestBytes next ∧ next.stream = reception.stream ∧
      next.client.closes = reception.client.closes
  | (next, some ending) =>
    ending = streamEnd maxRequestBytes reception.stream reception.client.closes ∧
      next.requestBuffer <+: reception.stream ∧
      ∀ n, ending = .complete n → n ≤ next.requestBuffer.length

theorem judge_complete {maxRequestBytes n : Nat} {probe : HttpProbe}
    (h : judgeProbe maxRequestBytes probe = some (.complete n)) :
    probe = { result := .complete, requestLength := n } ∧ n ≤ maxRequestBytes := by
  obtain ⟨result, requestLength⟩ := probe
  rw [judgeProbe] at h
  split at h
  · cases h
  · rename_i hlimit
    cases result with
    | invalid error => cases h
    | incomplete => cases h
    | complete =>
      cases h
      exact ⟨rfl, Nat.not_lt.mp hlimit⟩

theorem sizeAdd_one {n : Nat} (h : n < SIZE_MAX) : sizeAdd n 1 = n + 1 :=
  Nat.mod_eq_of_lt (Nat.succ_lt_succ h)

theorem round_full {maxRequestBytes : Nat} (hmax : HTTP_RECEIVE_CHUNK_BYTES ≤ maxRequestBytes)
    (hsize : maxRequestBytes ≤ SIZE_MAX) {reception : Reception}
    (h : Receiving maxRequestBytes reception)
    (hfull : reception.requestBuffer.length = maxRequestBytes) :
    RoundEnd maxRequestBytes reception (receiveRound maxRequestBytes reception) := by
  obtain ⟨hgrow, hdeny⟩ := httpGrowBuffer_spec hmax h.capacity
    (sizeAdd reception.requestBuffer.length 1)
  have hstream := streamEnd_full hmax hfull h.undecided (arrived reception.client.arrivals)
    reception.client.closes
  rw [receiveRound]
  dsimp only
  rcases hsize.lt_or_eq with hlt | hwrap
  · rw [hdeny (by rw [sizeAdd_one (by omega)]; omega)]
    dsimp only
    rw [if_pos hfull.ge]
    refine ⟨?_, List.prefix_append _ _, fun n hn => by cases hn⟩
    rw [Reception.stream, hstream, if_pos hlt]
  · -- The size that the buffer would need wraps around, and the read has no room.
    obtain ⟨capacity, hcapacity, -, hhigh⟩ := hgrow (by
      rw [hfull, hwrap]
      exact Nat.le_of_lt_succ (Nat.mod_lt _ (Nat.succ_pos _)))
    have hread : recv (capacity - reception.requestBuffer.length) reception.client =
        some (.bytes [], reception.client) := by
      rw [recv, if_pos (by omega)]
    have hne : reception.requestBuffer.length ≠ 0 := by
      rw [HTTP_RECEIVE_CHUNK_BYTES] at hmax
      omega
    rw [hcapacity]
    dsimp only
    rw [hread]
    dsimp only
    rw [if_neg hne]
    refine ⟨?_, List.prefix_append _ _, fun n hn => by cases hn⟩
    rw [Reception.stream, hstream, if_neg (by omega)]

theorem round_stream {maxRequestBytes : Nat} (hmax : HTTP_RECEIVE_CHUNK_BYTES ≤ maxRequestBytes)
    (hsize : maxRequestBytes ≤ SIZE_MAX) {reception : Reception}
    (h : Receiving maxRequestBytes reception) :
    RoundEnd maxRequestBytes reception (receiveRound maxRequestBytes reception) := by
  rcases h.fits.lt_or_eq with hlt | hfull
  · have hadd : sizeAdd reception.requestBuffer.length 1 = reception.requestBuffer.length + 1 :=
      sizeAdd_one (by omega)
    obtain ⟨capacity, hcapacity, hlow, hhigh⟩ :=
      (httpGrowBuffer_spec hmax h.capacity (reception.requestBuffer.length + 1)).1 hlt
    have hroom : 0 < capacity - reception.requestBuffer.length := by omega
    have hpos : 0 < maxRequestBytes := by omega
    have hreads := recv_reads hroom reception.client
    rw [receiveRound]
    dsimp only
    rw [hadd, hcapacity]
    dsimp only
    generalize recv (capacity - reception.requestBuffer.length) reception.client = read at hreads ⊢
    have hstops : reception.client.arrivals = [] → reception.stream = reception.requestBuffer := by
      intro hnil
      rw [Reception.stream, hnil]
      exact List.append_nil _
    cases hreads with
    | silent hnil hstays =>
      refine ⟨?_, List.prefix_append _ _, fun n hn => by cases hn⟩
      rw [hstops hnil, streamEnd_stops hlt h.undecided, hstays]
      rfl
    | closed hnil hcloses =>
      refine ⟨?_, List.prefix_append _ _, fun n hn => ?_⟩
      · rw [hstops hnil, streamEnd_stops hlt h.undecided, if_pos hcloses]
      · split at hn <;> cases hn
    | interrupted hfirst hcloses =>
      refine ⟨⟨h.fits, hhigh, h.undecided, fun hmem => h.alive ?_⟩, ?_, hcloses⟩
      · rw [hfirst]
        exact List.mem_cons_of_mem _ hmem
      · rw [Reception.stream, Reception.stream, hfirst]
        rfl
    | failed hfailed => exact absurd hfailed h.alive
    | @bytes first more next hfits hfront hcloses halive =>
      have hlength : (reception.requestBuffer ++ first :: more).length ≤ maxRequestBytes := by
        rw [List.length_append]
        omega
      have hstream : reception.stream =
          reception.requestBuffer ++ first :: more ++ arrived next.arrivals := by
        rw [Reception.stream, hfront, List.append_assoc]
      dsimp only
      cases hjudge : judgeProbe maxRequestBytes
          (httpRequestProbe (reception.requestBuffer ++ first :: more) maxRequestBytes) with
      | none => exact ⟨⟨hlength, hhigh, hjudge, halive h.alive⟩, hstream.symm, hcloses⟩
      | some ending =>
        refine ⟨?_, ?_, ?_⟩
        · rw [hstream, streamEnd_decided hpos hlength hjudge]
        · rw [hstream]
          exact List.prefix_append _ _
        · rintro n rfl
          exact (probe_complete (judge_complete hjudge).1).2.1
  · exact round_full hmax hsize h hfull

theorem receiveLoop_stream {maxRequestBytes : Nat} (hmax : HTTP_RECEIVE_CHUNK_BYTES ≤ maxRequestBytes)
    (hsize : maxRequestBytes ≤ SIZE_MAX) {reception : Reception}
    (h : Receiving maxRequestBytes reception) :
    (receiveLoop maxRequestBytes reception).2 =
        streamEnd maxRequestBytes reception.stream reception.client.closes ∧
      (receiveLoop maxRequestBytes reception).1.requestBuffer <+: reception.stream ∧
      ∀ n, (receiveLoop maxRequestBytes reception).2 = .complete n →
        n ≤ (receiveLoop maxRequestBytes reception).1.requestBuffer.length := by
  induction hweight : reception.client.weight using Nat.strongRecOn generalizing reception with
  | ind weight ih =>
    have hround := round_stream hmax hsize h
    rw [receiveLoop]
    split
    · rename_i next hnext
      rw [hnext] at hround
      obtain ⟨hreceiving, hstream, hcloses⟩ := hround
      rw [← hstream, ← hcloses]
      exact ih _ (hweight ▸ receiveRound_weight hnext) hreceiving rfl
    · rename_i next ending hnext
      rw [hnext] at hround
      exact hround

/-- The request in a stream of bytes. -/
def streamRequest (maxRequestBytes : Nat) (stream : Bytes) (closes : Bool) : ReceiveEnd HttpRequest :=
  parseReceived stream (streamEnd maxRequestBytes stream closes)

theorem parseReceived_front {front whole : Bytes} {ending : ReceiveEnd Nat} (h : front <+: whole)
    (hfits : ∀ n, ending = .complete n → n ≤ front.length) :
    parseReceived front ending = parseReceived whole ending := by
  cases ending with
  | waiting => rfl
  | closed => rfl
  | rejected statusCode errorCode message => rfl
  | complete n =>
    obtain ⟨rest, rfl⟩ := h
    rw [parseReceived, parseReceived, List.take_append_of_le_length (hfits n rfl)]

theorem fresh_receiving (maxRequestBytes : Nat) {client : Client}
    (h : .failed ∉ client.arrivals) : Receiving maxRequestBytes (freshReception client) := by
  refine ⟨Nat.zero_le _, Nat.zero_le _, ?_, h⟩
  change judgeProbe maxRequestBytes (httpRequestProbe [] maxRequestBytes) = none
  rw [probe_none (Nat.zero_le _) rfl]
  rfl

theorem receiveRequest_stream {maxRequestBytes : Nat}
    (hmax : HTTP_RECEIVE_CHUNK_BYTES ≤ maxRequestBytes) (hsize : maxRequestBytes ≤ SIZE_MAX)
    {client : Client} (h : .failed ∉ client.arrivals) :
    receiveRequest maxRequestBytes client =
      streamRequest maxRequestBytes (arrived client.arrivals) client.closes := by
  obtain ⟨hend, hfront, hfits⟩ :=
    receiveLoop_stream hmax hsize (fresh_receiving maxRequestBytes h)
  rw [receiveRequest, streamRequest]
  change parseReceived (receiveLoop _ _).1.requestBuffer (receiveLoop _ _).2 = _
  rw [parseReceived_front hfront hfits, hend]
  rfl

theorem streamRequest_ends {maxRequestBytes : Nat} (stream : Bytes) :
    streamRequest maxRequestBytes stream true ≠ .waiting := by
  have hend : streamEnd maxRequestBytes stream true ≠ .waiting := by
    rw [streamEnd]
    split
    · rename_i ending hjudge
      rintro rfl
      rw [judgeProbe] at hjudge
      split at hjudge
      · cases hjudge
      · split at hjudge <;> cases hjudge
    · split_ifs <;> simp_all [payloadTooLarge]
  rw [streamRequest]
  cases h : streamEnd maxRequestBytes stream true with
  | waiting => exact absurd h hend
  | closed => exact fun heq => by cases heq
  | rejected statusCode errorCode message => exact fun heq => by cases heq
  | complete n =>
    rw [parseReceived]
    split <;> exact fun heq => by cases heq

/-- The bytes of a complete request are complete by themselves. -/
theorem probe_request {maxRequestBytes n : Nat} {buffer : Bytes}
    (h : httpRequestProbe buffer maxRequestBytes = { result := .complete, requestLength := n }) :
    httpRequestProbe (buffer.take n) maxRequestBytes =
      { result := .complete, requestLength := n } := by
  obtain ⟨hlength, hn, request, headerLength, hhead, hrequest⟩ := probe_complete h
  have hend := parseHead_length hhead
  have hshort := findHeaderEnd_take hend (Nat.le.intro hrequest.symm)
  have hmeta := metadata_append hshort (buffer.drop n)
  rw [List.take_append_drop] at hmeta
  rw [probe_some hlength hend, hmeta] at h
  obtain ⟨metadata, hok, hsum, hsize, hmax, -⟩ := probeHead_complete.mp h
  have htake : (buffer.take n).length = n := List.length_take_of_le hn
  rw [probe_some (htake.trans_le hmax) hshort, htake]
  exact probeHead_complete.mpr ⟨metadata, hok, hsum, hsize, hmax, le_rfl⟩

theorem judge_request {maxRequestBytes n : Nat} (hpos : 0 < maxRequestBytes) {buffer : Bytes}
    (h : httpRequestProbe buffer maxRequestBytes = { result := .complete, requestLength := n }) :
    n ≤ maxRequestBytes ∧
      judgeProbe maxRequestBytes (httpRequestProbe buffer maxRequestBytes) = some (.complete n) := by
  have heff : effectiveMax maxRequestBytes = maxRequestBytes := if_neg (by omega)
  obtain ⟨hlength, hn, -⟩ := probe_complete h
  have hmax : n ≤ maxRequestBytes := heff ▸ hn.trans hlength
  exact ⟨hmax, by rw [h, judgeProbe, if_neg (Nat.not_lt.mpr hmax)]⟩

/-- The bytes that a probe found complete are the request, whatever stands behind them. -/
theorem streamRequest_complete {maxRequestBytes n : Nat} (hpos : 0 < maxRequestBytes)
    {buffer : Bytes}
    (h : httpRequestProbe buffer maxRequestBytes = { result := .complete, requestLength := n })
    {request : HttpRequest} (hparse : httpParseRequest (buffer.take n) = .ok request)
    (rest : Bytes) (closes : Bool) :
    streamRequest maxRequestBytes (buffer.take n ++ rest) closes = .complete request := by
  have htake : (buffer.take n).length = n := List.length_take_of_le (probe_complete h).2.1
  obtain ⟨hmax, hjudge⟩ := judge_request hpos (probe_request h)
  have hfirst : (buffer.take n ++ rest).take n = buffer.take n := by
    rw [List.take_append_of_le_length htake.ge, List.take_take, Nat.min_self]
  rw [streamRequest, streamEnd_decided hpos (htake.trans_le hmax) hjudge, parseReceived, hfirst,
    hparse]

/-- How the bytes of a client arrive has no part in what becomes of them, and a request
found complete is its head, as much body as that says, and nothing behind it. -/
theorem reception_of_stream {maxRequestBytes : Nat}
    (hmax : HTTP_RECEIVE_CHUNK_BYTES ≤ maxRequestBytes) (hsize : maxRequestBytes ≤ SIZE_MAX) :
    (∀ first second : Client, .failed ∉ first.arrivals → .failed ∉ second.arrivals →
      arrived first.arrivals = arrived second.arrivals → first.closes = second.closes →
      receiveRequest maxRequestBytes first = receiveRequest maxRequestBytes second) ∧
    (∀ client : Client, .failed ∉ client.arrivals → client.closes = true →
      receiveRequest maxRequestBytes client ≠ .waiting) ∧
    ∀ (buffer : Bytes) (n : Nat),
      httpRequestProbe buffer maxRequestBytes = { result := .complete, requestLength := n } →
      ∃ request headerLength, httpFindHeaderEnd buffer = some headerLength ∧ headerLength ≤ n ∧
        httpParseRequest (buffer.take n) = .ok request ∧
        request.contentLength = n - headerLength ∧
        request.body = (buffer.take n).drop headerLength ∧
        ∀ client : Client, .failed ∉ client.arrivals →
          buffer.take n <+: arrived client.arrivals →
          receiveRequest maxRequestBytes client = .complete request := by
  refine ⟨fun first second hfirst hsecond hbytes hcloses => ?_, fun client hclient hcloses => ?_,
    fun buffer n h => ?_⟩
  · rw [receiveRequest_stream hmax hsize hfirst, receiveRequest_stream hmax hsize hsecond, hbytes,
      hcloses]
  · rw [receiveRequest_stream hmax hsize hclient, hcloses]
    exact streamRequest_ends _
  · obtain ⟨-, hn, request, headerLength, hhead, rfl⟩ := probe_complete h
    have hparse := parse_complete hhead hn
    refine ⟨_, headerLength, parseHead_length hhead, Nat.le_add_right _ _, hparse,
      (Nat.add_sub_cancel_left _ _).symm, ?_, fun client hclient hfront => ?_⟩
    · rw [List.drop_take, Nat.add_sub_cancel_left]
    · obtain ⟨rest, hrest⟩ := hfront
      have hpos : 0 < maxRequestBytes := lt_of_lt_of_le (by decide) hmax
      rw [receiveRequest_stream hmax hsize hclient, ← hrest]
      exact streamRequest_complete hpos h hparse rest client.closes

theorem reception_of_stream_split :
    receiveRequest 65536 { arrivals := [.bytes 71 (ascii "ET /he"), .interrupted, .bytes 97 []]
                           closes := true } =
      receiveRequest 65536 { arrivals := [.bytes 71 (ascii "ET /hea")], closes := true } :=
  (reception_of_stream (by decide) (by decide)).1 _ _ (by decide) (by decide) rfl rfl

end DbApi.Http
