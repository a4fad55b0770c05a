import DbApi.Proofs.DeclaredHead

namespace DbApi.Http

open DbApi.Library

/-- As many of the bytes to come as arrive up to the last read that stays within the
limit, `length` of them being there. -/
def within (limit : Nat) : Nat → List Arrival → Nat
  | length, [] => length
  | length, .bytes _ more :: arrivals =>
    if length + (more.length + 1) ≤ limit then within limit (length + (more.length + 1)) arrivals
    else length
  | length, .interrupted :: arrivals => within limit length arrivals
  | length, .failed :: _ => length

/-- How much of the stream the verdict of the server is about. A buffer that grows up to the
limit is filled to the limit; the first buffer may be larger than the limit, and then a read
may go beyond. -/
def reach (maxRequestBytes : Nat) (length : Nat) (arrivals : List Arrival) : Nat :=
  if HTTP_RECEIVE_CHUNK_BYTES ≤ maxRequestBytes then maxRequestBytes
  else within maxRequestBytes length arrivals

def Decides (maxRequestBytes : Nat) (buffer : Bytes) : Prop :=
  judgeProbe maxRequestBytes (httpRequestProbe buffer maxRequestBytes) ≠ none

/-- The receive loop before its verdict, after a client that may still fail. -/
structure Watched (maxRequestBytes : Nat) (reception : Reception) : Prop where
  fits : reception.requestBuffer.length ≤ maxRequestBytes
  large : HTTP_RECEIVE_CHUNK_BYTES ≤ maxRequestBytes → reception.bufferCapacity ≤ maxRequestBytes
  small : maxRequestBytes < HTTP_RECEIVE_CHUNK_BYTES →
    reception.bufferCapacity = 0 ∨ reception.bufferCapacity = HTTP_RECEIVE_CHUNK_BYTES
  undecided : ¬ Decides maxRequestBytes reception.requestBuffer

theorem growCapacity_enough {rounds capacity minimum maximum : Nat} (h : minimum ≤ capacity) :
    growCapacity rounds capacity minimum maximum = capacity := by
  cases rounds with
  | zero => rfl
  | succ rounds => rw [growCapacity, if_neg (Nat.not_lt.mpr h)]

/-- The first buffer is of a fixed size, whatever the limit is. -/
theorem grow_small {maxRequestBytes : Nat} {reception : Reception}
    (hsmall : maxRequestBytes < HTTP_RECEIVE_CHUNK_BYTES) (h : Watched maxRequestBytes reception) :
    httpGrowBuffer reception.bufferCapacity (sizeAdd reception.requestBuffer.length 1)
      maxRequestBytes = some HTTP_RECEIVE_CHUNK_BYTES := by
  have hfits := h.fits
  have hadd : sizeAdd reception.requestBuffer.length 1 = reception.requestBuffer.length + 1 := by
    apply sizeAdd_one
    rw [HTTP_RECEIVE_CHUNK_BYTES] at hsmall
    rw [SIZE_MAX]
    omega
  have hstart : (if reception.bufferCapacity = 0 then HTTP_RECEIVE_CHUNK_BYTES
      else reception.bufferCapacity) = HTTP_RECEIVE_CHUNK_BYTES := by
    rcases h.small hsmall with hzero | hchunk
    · rw [if_pos hzero]
    · rw [hchunk]
      rfl
  rw [httpGrowBuffer, hstart, hadd, growCapacity_enough (by omega), if_neg (by omega)]

theorem recv_failed {room : Nat} {client next : Client}
    (h : recv room client = some (.failed, next)) : arrived client.arrivals = [] := by
  rw [recv] at h
  split at h
  · cases h
  · split at h
    · split at h <;> cases h
    · cases h
    · rename_i hfirst
      rw [hfirst]
      rfl
    · dsimp only at h
      split at h <;> cases h

theorem recv_interrupted {room : Nat} {client next : Client}
    (h : recv room client = some (.interrupted, next)) :
    client.arrivals = .interrupted :: next.arrivals := by
  rw [recv] at h
  split at h
  · cases h
  · split at h
    · split at h <;> cases h
    · rename_i hfirst
      cases h
      exact hfirst
    · cases h
    · dsimp only at h
      split at h <;> cases h

/-- A read into a room that reaches beyond the limit. -/
theorem recv_within {limit length room : Nat} {client next : Client} {b : UInt8} {chunk : Bytes}
    (hroom : limit < length + room) (h : recv room client = some (.bytes (b :: chunk), next)) :
    within limit length client.arrivals =
      if length + (chunk.length + 1) ≤ limit then
        within limit (length + (chunk.length + 1)) next.arrivals
      else length := by
  rw [recv] at h
  split at h
  · cases h
  · rename_i hpos
    split at h
    · split at h <;> cases h
    · cases h
    · cases h
    · rename_i first more arrivals hfirst
      dsimp only at h
      rw [hfirst, within]
      split at h
      · rename_i hrest
        have hall := List.take_of_length_le (List.drop_eq_nil_iff.mp hrest)
        cases h
        rw [hall]
      · rename_i hrest
        cases h
        have hlong : room - 1 < more.length := by
          by_contra hle
          rw [List.drop_eq_nil_iff.mpr (Nat.not_lt.mp hle)] at hrest
          cases hrest
        rw [List.length_take, if_neg (by omega), if_neg (by omega)]

/-- An end that is not a rejection for size. -/
def NotTooLarge {α : Type} (ending : ReceiveEnd α) : Prop :=
  ∀ statusCode errorCode message, ending = .rejected statusCode errorCode message → statusCode ≠ 413

/-- How the receive loop ends, by what the first `n` bytes of the stream decide. -/
inductive Outcome (maxRequestBytes : Nat) (stream : Bytes) (n : Nat) : Bytes → ReceiveEnd Nat → Prop where
  | decided {buffer ending}
      (verdict : judgeProbe maxRequestBytes
        (httpRequestProbe (stream.take n) maxRequestBytes) = some ending)
      (held : buffer.length ≤ maxRequestBytes) : Outcome maxRequestBytes stream n buffer ending
  | full {buffer} (undecided : ¬ Decides maxRequestBytes (stream.take n))
      (large : HTTP_RECEIVE_CHUNK_BYTES ≤ maxRequestBytes) (limit : maxRequestBytes < SIZE_MAX)
      (long : maxRequestBytes ≤ stream.length) (held : buffer.length ≤ maxRequestBytes) :
      Outcome maxRequestBytes stream n buffer payloadTooLarge
  | beyond {buffer ending} (undecided : ¬ Decides maxRequestBytes (stream.take n))
      (small : maxRequestBytes < HTTP_RECEIVE_CHUNK_BYTES)
      (long : maxRequestBytes < stream.length) (past : maxRequestBytes < buffer.length)
      (other : NotTooLarge ending) : Outcome maxRequestBytes stream n buffer ending
  | stopped {buffer ending} (undecided : ¬ Decides maxRequestBytes (stream.take n))
      (short : stream.length < maxRequestBytes ∨
        (maxRequestBytes < HTTP_RECEIVE_CHUNK_BYTES ∧ stream.length = maxRequestBytes) ∨
        maxRequestBytes = SIZE_MAX ∧ SIZE_MAX ≤ stream.length)
      (held : buffer.length ≤ maxRequestBytes) (other : NotTooLarge ending) :
      Outcome maxRequestBytes stream n buffer ending

/-- What a round leads to: a like state of the loop with the same bytes before it, or an
end. -/
def RoundOutcome (maxRequestBytes : Nat) (reception : Reception) :
    Reception × Option (ReceiveEnd Nat) → Prop
  | (next, none) =>
    Watched maxRequestBytes next ∧ next.stream = reception.stream ∧
      reach maxRequestBytes next.requestBuffer.length next.client.arrivals =
        reach maxRequestBytes reception.requestBuffer.length reception.client.arrivals
  | (next, some ending) =>
    Outcome maxRequestBytes reception.stream
      (reach maxRequestBytes reception.requestBuffer.length reception.client.arrivals)
      next.requestBuffer ending

theorem within_bounds {limit length : Nat} (h : length ≤ limit) (arrivals : List Arrival) :
    length ≤ within limit length arrivals ∧ within limit length arrivals ≤ limit := by
  induction arrivals generalizing length with
  | nil => exact ⟨le_rfl, h⟩
  | cons arrival arrivals ih =>
    cases arrival with
    | bytes first more =>
      rw [within]
      split
      · rename_i hle
        obtain ⟨hlow, hhigh⟩ := ih hle
        exact ⟨(Nat.le_add_right _ _).trans hlow, hhigh⟩
      · exact ⟨le_rfl, h⟩
    | interrupted => exact ih h
    | failed => exact ⟨le_rfl, h⟩

theorem reach_bounds {maxRequestBytes length : Nat} (h : length ≤ maxRequestBytes)
    (arrivals : List Arrival) :
    length ≤ reach maxRequestBytes length arrivals ∧
      reach maxRequestBytes length arrivals ≤ maxRequestBytes := by
  rw [reach]
  split
  · exact ⟨h, le_rfl⟩
  · exact within_bounds h arrivals

theorem within_all {limit length : Nat} {arrivals : List Arrival}
    (h : length + (arrived arrivals).length ≤ limit) :
    within limit length arrivals = length + (arrived arrivals).length := by
  induction arrivals generalizing length with
  | nil => rfl
  | cons arrival arrivals ih =>
    cases arrival with
    | bytes first more =>
      have hlength : (arrived (.bytes first more :: arrivals)).length =
          more.length + 1 + (arrived arrivals).length := by
        rw [arrived, List.length_append, List.length_cons]
      rw [hlength] at h ⊢
      rw [within, if_pos (by omega), ih (by omega)]
      omega
    | interrupted => exact ih h
    | failed => rfl

/-- A stream that does not exceed the limit is looked at as a whole. -/
theorem take_reach_all {maxRequestBytes : Nat} {client : Client}
    (h : (arrived client.arrivals).length ≤ maxRequestBytes) :
    (arrived client.arrivals).take (reach maxRequestBytes 0 client.arrivals) =
      arrived client.arrivals := by
  rw [reach]
  split
  · exact List.take_of_length_le h
  · rw [within_all (by omega), Nat.zero_add, List.take_length]

/-- Where nothing more is to come, the verdict is about the buffer. -/
theorem take_reach {maxRequestBytes : Nat} {reception : Reception}
    (hfits : reception.requestBuffer.length ≤ maxRequestBytes)
    (h : arrived reception.client.arrivals = []) :
    reception.stream = reception.requestBuffer ∧
      reception.stream.take (reach maxRequestBytes reception.requestBuffer.length
        reception.client.arrivals) = reception.requestBuffer := by
  have hstream : reception.stream = reception.requestBuffer := by
    rw [Reception.stream, h, List.append_nil]
  rw [hstream]
  exact ⟨rfl, List.take_of_length_le (reach_bounds hfits _).1⟩

/-- A loop that ends because nothing more comes has rejected nothing for its size. -/
theorem stops {maxRequestBytes : Nat} {reception : Reception} {ending : ReceiveEnd Nat}
    (h : Watched maxRequestBytes reception)
    (hroom : reception.requestBuffer.length < maxRequestBytes ∨
      maxRequestBytes < HTTP_RECEIVE_CHUNK_BYTES)
    (hnone : arrived reception.client.arrivals = []) (hending : NotTooLarge ending) :
    Outcome maxRequestBytes reception.stream
      (reach maxRequestBytes reception.requestBuffer.length reception.client.arrivals)
      reception.requestBuffer ending := by
  have hfits := h.fits
  obtain ⟨hstream, htake⟩ := take_reach hfits hnone
  refine .stopped ?_ ?_ hfits hending
  · rw [htake]
    exact h.undecided
  · rw [hstream]
    omega

theorem Watched.undecided_none {maxRequestBytes : Nat} {reception : Reception}
    (h : Watched maxRequestBytes reception) :
    judgeProbe maxRequestBytes (httpRequestProbe reception.requestBuffer maxRequestBytes) = none :=
  not_not.mp h.undecided

/-- A read within the limit, by what has been read then. -/
theorem chunk_within {maxRequestBytes : Nat} (hpos : 0 < maxRequestBytes) {reception next : Reception}
    (hfits : next.requestBuffer.length ≤ maxRequestBytes)
    (hstream : next.stream = reception.stream)
    (hreach : reach maxRequestBytes next.requestBuffer.length next.client.arrivals =
      reach maxRequestBytes reception.requestBuffer.length reception.client.arrivals)
    (hlarge : HTTP_RECEIVE_CHUNK_BYTES ≤ maxRequestBytes → next.bufferCapacity ≤ maxRequestBytes)
    (hsmall : maxRequestBytes < HTTP_RECEIVE_CHUNK_BYTES →
      next.bufferCapacity = HTTP_RECEIVE_CHUNK_BYTES) :
    RoundOutcome maxRequestBytes reception (next, judgeProbe maxRequestBytes
      (httpRequestProbe next.requestBuffer maxRequestBytes)) := by
  have heff : effectiveMax maxRequestBytes = maxRequestBytes := if_neg (by omega)
  cases hjudge : judgeProbe maxRequestBytes
      (httpRequestProbe next.requestBuffer maxRequestBytes) with
  | none =>
    exact ⟨⟨hfits, hlarge, fun h => .inr (hsmall h), fun hd => hd hjudge⟩, hstream, hreach⟩
  | some ending =>
    refine .decided ?_ hfits
    obtain ⟨hlow, hhigh⟩ := reach_bounds hfits next.client.arrivals
    rw [← hstream, ← hreach, Reception.stream, List.take_append, List.take_of_length_le hlow]
    refine judge_append ?_ hjudge
    rw [heff, List.length_append, List.length_take]
    omega

theorem outcome_full {maxRequestBytes : Nat} (hsize : maxRequestBytes ≤ SIZE_MAX)
    {reception : Reception} (h : Watched maxRequestBytes reception)
    (hlarge : HTTP_RECEIVE_CHUNK_BYTES ≤ maxRequestBytes)
    (hfull : reception.requestBuffer.length = maxRequestBytes) :
    RoundOutcome maxRequestBytes reception (receiveRound maxRequestBytes reception) := by
  have hreach : reach maxRequestBytes reception.requestBuffer.length reception.client.arrivals =
      reception.requestBuffer.length := by
    rw [reach, if_pos hlarge, hfull]
  have hundecided : ¬ Decides maxRequestBytes (reception.stream.take
      (reach maxRequestBytes reception.requestBuffer.length reception.client.arrivals)) := by
    rw [hreach, Reception.stream, List.take_left]
    exact h.undecided
  have hlong : maxRequestBytes ≤ reception.stream.length := by
    rw [Reception.stream, List.length_append]
    omega
  obtain ⟨hgrow, hdeny⟩ := httpGrowBuffer_spec hlarge (h.large hlarge)
    (sizeAdd reception.requestBuffer.length 1)
  rw [receiveRound]
  dsimp only
  rcases hsize.lt_or_eq with hlt | hwrap
  · rw [hdeny (by rw [sizeAdd_one (by omega)]; omega)]
    dsimp only
    rw [if_pos hfull.ge]
    exact .full hundecided hlarge hlt hlong hfull.le
  · -- The size that the buffer would need wraps around, and the read has no room.
    obtain ⟨capacity, hcapacity, -, hhigh⟩ := hgrow (by
      rw [hfull, hwrap]
      exact Nat.le_of_lt_succ (Nat.mod_lt _ (Nat.succ_pos _)))
    have hread : recv (capacity - reception.requestBuffer.length) reception.client =
        some (.bytes [], reception.client) := by
      rw [recv, if_pos (by omega)]
    have hne : reception.requestBuffer.length ≠ 0 := by
      rw [HTTP_RECEIVE_CHUNK_BYTES] at hlarge
      omega
    rw [hcapacity]
    dsimp only
    rw [hread]
    dsimp only
    rw [if_neg hne]
    refine .stopped hundecided (.inr (.inr ⟨hwrap, hwrap ▸ hlong⟩)) hfull.le ?_
    rintro _ _ _ ⟨⟩
    decide

theorem grow_room {maxRequestBytes : Nat} (hsize : maxRequestBytes ≤ SIZE_MAX)
    {reception : Reception} (h : Watched maxRequestBytes reception)
    (hroom : reception.requestBuffer.length < maxRequestBytes ∨
      maxRequestBytes < HTTP_RECEIVE_CHUNK_BYTES) :
    ∃ capacity, httpGrowBuffer reception.bufferCapacity
        (sizeAdd reception.requestBuffer.length 1) maxRequestBytes = some capacity ∧
      reception.requestBuffer.length < capacity ∧
      (HTTP_RECEIVE_CHUNK_BYTES ≤ maxRequestBytes → capacity ≤ maxRequestBytes) ∧
      (maxRequestBytes < HTTP_RECEIVE_CHUNK_BYTES → capacity = HTTP_RECEIVE_CHUNK_BYTES) := by
  have hfits := h.fits
  by_cases hlarge : HTTP_RECEIVE_CHUNK_BYTES ≤ maxRequestBytes
  · have hlt : reception.requestBuffer.length < maxRequestBytes :=
      hroom.resolve_right (Nat.not_lt.mpr hlarge)
    have hadd : sizeAdd reception.requestBuffer.length 1 = reception.requestBuffer.length + 1 :=
      sizeAdd_one (by omega)
    obtain ⟨capacity, hcapacity, hlow, hhigh⟩ :=
      (httpGrowBuffer_spec hlarge (h.large hlarge) (reception.requestBuffer.length + 1)).1 hlt
    rw [hadd]
    exact ⟨capacity, hcapacity, hlow, fun _ => hhigh, fun hsmall => absurd hlarge (by omega)⟩
  · have hsmall := Nat.not_le.mp hlarge
    exact ⟨_, grow_small hsmall h, by omega, fun hle => absurd hle hlarge, fun _ => rfl⟩

theorem reach_large {maxRequestBytes : Nat} (h : HTTP_RECEIVE_CHUNK_BYTES ≤ maxRequestBytes)
    (first second : Nat) (before after : List Arrival) :
    reach maxRequestBytes first before = reach maxRequestBytes second after := by
  rw [reach, reach, if_pos h, if_pos h]

/-- A read that goes beyond a small limit. -/
theorem chunk_over {maxRequestBytes : Nat} (hpos : 0 < maxRequestBytes) {reception next : Reception}
    (h : Watched maxRequestBytes reception)
    (hsmall : maxRequestBytes < HTTP_RECEIVE_CHUNK_BYTES)
    (hover : maxRequestBytes < next.requestBuffer.length)
    (hstream : next.stream = reception.stream)
    (hreach : reach maxRequestBytes reception.requestBuffer.length reception.client.arrivals =
      reception.requestBuffer.length) :
    RoundOutcome maxRequestBytes reception (next, judgeProbe maxRequestBytes
      (httpRequestProbe next.requestBuffer maxRequestBytes)) := by
  have heff : effectiveMax maxRequestBytes = maxRequestBytes := if_neg (by omega)
  rw [httpRequestProbe, heff, if_pos hover, judgeProbe, if_neg (Nat.not_lt_zero _)]
  refine .beyond ?_ hsmall ?_ hover ?_
  · rw [hreach, Reception.stream, List.take_left]
    exact h.undecided
  · rw [← hstream, Reception.stream, List.length_append]
    omega
  · rintro _ _ _ ⟨⟩
    decide

theorem round_outcome {maxRequestBytes : Nat} (hpos : 0 < maxRequestBytes)
    (hsize : maxRequestBytes ≤ SIZE_MAX) {reception : Reception}
    (h : Watched maxRequestBytes reception) :
    RoundOutcome maxRequestBytes reception (receiveRound maxRequestBytes reception) := by
  by_cases hroom : reception.requestBuffer.length < maxRequestBytes ∨
      maxRequestBytes < HTTP_RECEIVE_CHUNK_BYTES
  · obtain ⟨capacity, hcapacity, hlt, hlarge, hsmall⟩ := grow_room hsize h hroom
    have hreads := recv_reads (Nat.sub_pos_of_lt hlt) reception.client
    rw [receiveRound]
    dsimp only
    rw [hcapacity]
    dsimp only
    generalize hrecv : recv (capacity - reception.requestBuffer.length) reception.client = read
      at hreads ⊢
    cases hreads with
    | silent hnil hstays => exact stops h hroom (by rw [hnil]; rfl) fun _ _ _ he => by cases he
    | closed hnil hcloses =>
      refine stops h hroom (by rw [hnil]; rfl) ?_
      split
      · exact fun _ _ _ he => by cases he
      · rintro _ _ _ ⟨⟩
        decide
    | @interrupted next hfirst hcloses =>
      refine ⟨⟨h.fits, hlarge, fun hs => .inr (hsmall hs), h.undecided⟩, ?_, ?_⟩
      · rw [Reception.stream, Reception.stream, hfirst]
        rfl
      · rw [reach, reach, hfirst]
        rfl
    | failed hfailed =>
      refine stops h hroom (recv_failed hrecv) ?_
      rintro _ _ _ ⟨⟩
      decide
    | @bytes first more next hfits hfront hcloses halive =>
      dsimp only
      have hstream : reception.requestBuffer ++ first :: more ++ arrived next.arrivals =
          reception.stream := by
        rw [Reception.stream, hfront, List.append_assoc]
      have hlength : (reception.requestBuffer ++ first :: more).length =
          reception.requestBuffer.length + (more.length + 1) := by
        rw [List.length_append, List.length_cons]
      have hread : (first :: more).length = more.length + 1 := List.length_cons
      by_cases hle : reception.requestBuffer.length + (more.length + 1) ≤ maxRequestBytes
      · refine @chunk_within _ hpos reception
          ⟨reception.requestBuffer ++ first :: more, capacity, next⟩ (hlength.trans_le hle) hstream
          ?_ hlarge hsmall
        by_cases hchunk : HTTP_RECEIVE_CHUNK_BYTES ≤ maxRequestBytes
        · exact reach_large hchunk _ _ _ _
        · have hwithin := @recv_within maxRequestBytes reception.requestBuffer.length _ _ _ _ _
            (by have := hsmall (by omega); omega) hrecv
          rw [reach, reach, if_neg hchunk, if_neg hchunk, hlength, hwithin, if_pos hle]
      · have hchunk : maxRequestBytes < HTTP_RECEIVE_CHUNK_BYTES := by
          by_contra hlarge'
          have := hlarge (Nat.not_lt.mp hlarge')
          omega
        have hwithin := @recv_within maxRequestBytes reception.requestBuffer.length _ _ _ _ _
          (by have := hsmall hchunk; omega) hrecv
        rw [if_neg hle] at hwithin
        refine @chunk_over _ hpos reception
          ⟨reception.requestBuffer ++ first :: more, capacity, next⟩ h hchunk
          (by rw [hlength]; omega) hstream ?_
        rw [reach, if_neg (Nat.not_le.mpr hchunk), hwithin]
  · have hfits := h.fits
    exact outcome_full hsize h (by omega) (by omega)

theorem loop_outcome {maxRequestBytes : Nat} (hpos : 0 < maxRequestBytes)
    (hsize : maxRequestBytes ≤ SIZE_MAX) {reception : Reception}
    (h : Watched maxRequestBytes reception) :
    Outcome maxRequestBytes reception.stream
      (reach maxRequestBytes reception.requestBuffer.length reception.client.arrivals)
      (receiveLoop maxRequestBytes reception).1.requestBuffer
      (receiveLoop maxRequestBytes reception).2 := by
  induction hweight : reception.client.weight using Nat.strongRecOn generalizing reception with
  | ind weight ih =>
    have hround := round_outcome hpos hsize h
    rw [receiveLoop]
    split
    · rename_i next hnext
      rw [hnext] at hround
      obtain ⟨hwatched, hstream, hreach⟩ := hround
      rw [← hstream, ← hreach]
      exact ih _ (hweight ▸ receiveRound_weight hnext) hwatched rfl
    · rename_i next ending hnext
      rw [hnext] at hround
      exact hround

/-- A buffer that has a verdict has a head. -/
theorem Decides.head {maxRequestBytes : Nat} {buffer : Bytes} (hpos : 0 < maxRequestBytes)
    (hlength : buffer.length ≤ maxRequestBytes) (h : Decides maxRequestBytes buffer) :
    ∃ headerLength, httpFindHeaderEnd buffer = some headerLength := by
  have heff : effectiveMax maxRequestBytes = maxRequestBytes := if_neg (by omega)
  cases hend : httpFindHeaderEnd buffer with
  | some headerLength => exact ⟨headerLength, rfl⟩
  | none =>
    refine absurd ?_ h
    rw [probe_none (hlength.trans_eq heff.symm) hend]
    rfl

/-- A full buffer without a verdict has none. -/
theorem undecided_full {maxRequestBytes : Nat} {buffer : Bytes} (hpos : 0 < maxRequestBytes)
    (hlength : buffer.length = maxRequestBytes) (h : ¬ Decides maxRequestBytes buffer) :
    httpFindHeaderEnd buffer = none := by
  have heff : effectiveMax maxRequestBytes = maxRequestBytes := if_neg (by omega)
  have hnone := not_not.mp h
  cases hend : httpFindHeaderEnd buffer with
  | none => rfl
  | some headerLength =>
    rw [probe_some (hlength.trans heff.symm).le hend, heff] at hnone
    exfalso
    cases hmeta : httpExtractHeadMetadata buffer with
    | error error =>
      rw [hmeta] at hnone
      cases hnone
    | ok metadata =>
      rw [hmeta, probeHead] at hnone
      split at hnone
      · cases hnone
      · dsimp only at hnone
        split at hnone
        · rename_i hover
          rw [judgeProbe, if_pos hover] at hnone
          cases hnone
        · rename_i hmax
          rw [if_pos (by omega), judgeProbe, if_neg hmax] at hnone
          cases hnone

theorem metadata_declared {buffer : Bytes} {request : HttpRequest} {headerLength : Nat}
    (h : declaredHead buffer = .ok (request, headerLength)) :
    httpExtractHeadMetadata buffer = limited request.contentLength
      { headerLength, contentLength := request.contentLength } := by
  rw [httpExtractHeadMetadata, declared_parsed h, limited, limited]
  split
  · rfl
  · rfl

/-- The verdict on a well-formed head, by the size that it declares. -/
theorem judge_declared {maxRequestBytes : Nat} {buffer : Bytes} {request : HttpRequest}
    {headerLength : Nat} (hpos : 0 < maxRequestBytes) (hlength : buffer.length ≤ maxRequestBytes)
    (h : declaredHead buffer = .ok (request, headerLength)) :
    (SIZE_MAX < headerLength + request.contentLength → ∃ error,
      judgeProbe maxRequestBytes (httpRequestProbe buffer maxRequestBytes) =
        some (invalidRequest error)) ∧
    (headerLength + request.contentLength ≤ SIZE_MAX →
      judgeProbe maxRequestBytes (httpRequestProbe buffer maxRequestBytes) =
        if maxRequestBytes < headerLength + request.contentLength then some payloadTooLarge
        else if headerLength + request.contentLength ≤ buffer.length then
          some (.complete (headerLength + request.contentLength))
        else none) := by
  have heff : effectiveMax maxRequestBytes = maxRequestBytes := if_neg (by omega)
  rw [probe_some (hlength.trans_eq heff.symm) (declaredHead_length h), heff, metadata_declared h,
    limited]
  constructor
  · intro hlarge
    split
    · rw [probeHead, if_pos (by dsimp only; omega), judgeProbe, if_neg (Nat.not_lt_zero _)]
      exact ⟨_, rfl⟩
    · rw [probeHead, judgeProbe, if_neg (Nat.not_lt_zero _)]
      exact ⟨_, rfl⟩
  · intro hfits
    rw [if_pos (by omega), probeHead, if_neg (by dsimp only; omega)]
    dsimp only
    split
    · rename_i hover
      rw [judgeProbe, if_pos hover]
    · rename_i hmax
      split
      · rw [judgeProbe, if_neg hmax]
      · rw [judgeProbe, if_neg hmax]

/-- The states that the receive loop passes through. -/
inductive Passes (maxRequestBytes : Nat) : Reception → Reception → Prop where
  | here {reception} : Passes maxRequestBytes reception reception
  | last {reception next ending}
      (round : receiveRound maxRequestBytes reception = (next, some ending)) :
      Passes maxRequestBytes reception next
  | next {reception next later} (round : receiveRound maxRequestBytes reception = (next, none))
      (rest : Passes maxRequestBytes next later) : Passes maxRequestBytes reception later

theorem round_grows {maxRequestBytes : Nat} {reception next : Reception}
    {ending : Option (ReceiveEnd Nat)}
    (h : receiveRound maxRequestBytes reception = (next, ending)) :
    reception.requestBuffer.length ≤ next.requestBuffer.length := by
  rw [receiveRound] at h
  split at h
  · split at h <;> cases h <;> exact le_rfl
  · split at h
    · cases h
      exact le_rfl
    · cases h
      exact le_rfl
    · cases h
      exact le_rfl
    · cases h
      exact le_rfl
    · obtain ⟨rfl, -⟩ := Prod.mk.inj h
      rw [List.length_append]
      exact Nat.le_add_right _ _

theorem loop_grows (maxRequestBytes : Nat) (reception : Reception) :
    reception.requestBuffer.length ≤
      (receiveLoop maxRequestBytes reception).1.requestBuffer.length := by
  induction hweight : reception.client.weight using Nat.strongRecOn generalizing reception with
  | ind weight ih =>
    rw [receiveLoop]
    split
    · rename_i next hnext
      exact (round_grows hnext).trans (ih _ (hweight ▸ receiveRound_weight hnext) next rfl)
    · rename_i next ending hnext
      exact round_grows hnext

/-- The loop holds most at its end. -/
theorem Passes.length_le {maxRequestBytes : Nat} {reception later : Reception}
    (h : Passes maxRequestBytes reception later) :
    later.requestBuffer.length ≤
      (receiveLoop maxRequestBytes reception).1.requestBuffer.length := by
  induction h with
  | here => exact loop_grows _ _
  | @last reception next ending round =>
    rw [receiveLoop]
    split
    · rename_i other hother
      rw [round] at hother
      cases hother
    · rename_i other _ hother
      rw [round] at hother
      cases hother
      exact le_rfl
  | @next reception next later round rest ih =>
    rw [receiveLoop]
    split
    · rename_i other hother
      rw [round] at hother
      cases hother
      exact ih
    · rename_i other _ hother
      rw [round] at hother
      cases hother

end DbApi.Http
