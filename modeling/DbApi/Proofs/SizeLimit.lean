import DbApi.Proofs.ReceiveOutcome

namespace DbApi.Http

open DbApi.Library

variable {σ : Type} {maxRequestBytes : Nat} {dependencies : Option (HttpServerDependencies σ)}
variable {client : Client} {sendings : List Sending} {engine : σ}

/-- The bytes of a client are beyond the limit, by what their head declares or because
their head does not end within it. -/
def TooLarge (maxRequestBytes : Nat) (stream : Bytes) : Prop :=
  (∃ request headerLength, declaredHead stream = .ok (request, headerLength) ∧
    maxRequestBytes < headerLength + request.contentLength) ∨
  (maxRequestBytes ≤ stream.length ∧ httpFindHeaderEnd (stream.take maxRequestBytes) = none)

/-- They begin with a whole well-formed request within the limit. -/
def Fitting (maxRequestBytes : Nat) (stream : Bytes) : Prop :=
  ∃ request headerLength, declaredHead stream = .ok (request, headerLength) ∧
    headerLength + request.contentLength ≤ maxRequestBytes ∧
    headerLength + request.contentLength ≤ stream.length

/-- No length overflows, and the reads that stay within a limit below the size of the first
buffer bring a verdict. -/
structure Measured (maxRequestBytes : Nat) (client : Client) : Prop where
  length : ∀ request headerLength,
    declaredHead ((arrived client.arrivals).take maxRequestBytes) = .ok (request, headerLength) →
      headerLength + request.contentLength ≤ SIZE_MAX
  reads : (arrived client.arrivals).length < maxRequestBytes ∨
    (HTTP_RECEIVE_CHUNK_BYTES ≤ maxRequestBytes ∧ maxRequestBytes < SIZE_MAX) ∨
    Decides maxRequestBytes
      ((arrived client.arrivals).take (reach maxRequestBytes 0 client.arrivals))

theorem fresh_outcome (hpos : 0 < maxRequestBytes) (hsize : maxRequestBytes ≤ SIZE_MAX)
    (client : Client) :
    Outcome maxRequestBytes (arrived client.arrivals) (reach maxRequestBytes 0 client.arrivals)
      (receivedBytes maxRequestBytes client)
      (receiveLoop maxRequestBytes (freshReception client)).2 := by
  have hwatched : Watched maxRequestBytes (freshReception client) :=
    ⟨Nat.zero_le _, fun _ => Nat.zero_le _, fun _ => .inl rfl, fun hd => hd (judge_fresh _)⟩
  exact loop_outcome hpos hsize hwatched

section Answers

end Answers

theorem parseReceived_other {buffer : Bytes} {ending : ReceiveEnd Nat} (h : NotTooLarge ending) :
    NotTooLarge (parseReceived buffer ending) := by
  cases ending with
  | waiting => exact fun _ _ _ he => by cases he
  | closed => exact fun _ _ _ he => by cases he
  | rejected statusCode errorCode message =>
    rintro _ _ _ ⟨⟩
    exact h statusCode errorCode message rfl
  | complete n =>
    rw [parseReceived]
    split
    · rintro _ _ _ ⟨⟩
      decide
    · exact fun _ _ _ he => by cases he

theorem judge_not_tooLarge {request : HttpRequest} {headerLength : Nat} {buffer : Bytes}
    {ending : ReceiveEnd Nat} (hpos : 0 < maxRequestBytes)
    (hlength : buffer.length ≤ maxRequestBytes)
    (h : declaredHead buffer = .ok (request, headerLength))
    (hsize : SIZE_MAX < headerLength + request.contentLength ∨
      headerLength + request.contentLength ≤ maxRequestBytes ∧ maxRequestBytes ≤ SIZE_MAX)
    (hjudge : judgeProbe maxRequestBytes (httpRequestProbe buffer maxRequestBytes) = some ending) :
    NotTooLarge ending := by
  obtain ⟨hover, hjudged⟩ := judge_declared hpos hlength h
  rcases hsize with hlarge | ⟨hfits, hmax⟩
  · obtain ⟨error, herror⟩ := hover hlarge
    rw [herror] at hjudge
    cases hjudge
    rintro _ _ _ ⟨⟩
    decide
  · rw [hjudged (hfits.trans hmax), if_neg (Nat.not_lt.mpr hfits)] at hjudge
    split at hjudge
    · cases hjudge
      exact fun _ _ _ he => by cases he
    · cases hjudge

/-- The head of a stream is the head of as much of it as reaches behind it. -/
theorem declared_take {stream : Bytes} {n : Nat} {found : Nat}
    (h : httpFindHeaderEnd (stream.take n) = some found) :
    declaredHead stream = declaredHead (stream.take n) := by
  have := declaredHead_append h (stream.drop n)
  rwa [List.take_append_drop] at this

theorem headEnd_take {stream : Bytes} {n found : Nat}
    (h : httpFindHeaderEnd (stream.take n) = some found) : httpFindHeaderEnd stream = some found := by
  have := findHeaderEnd_append h (stream.drop n)
  rwa [List.take_append_drop] at this

theorem received_end (client : Client) :
    receiveRequest maxRequestBytes client =
      parseReceived (receivedBytes maxRequestBytes client)
        (receiveLoop maxRequestBytes (freshReception client)).2 := rfl

/-- An answer for size is one to bytes that are beyond the limit. -/
theorem served (hpos : 0 < maxRequestBytes) (hsize : maxRequestBytes ≤ SIZE_MAX)
    (h : Fitting maxRequestBytes (arrived client.arrivals)) :
    NotTooLarge (receiveRequest maxRequestBytes client) := by
  obtain ⟨request, headerLength, hhead, hlimit, hlength⟩ := h
  have hend := declaredHead_length hhead
  have houtcome := fresh_outcome hpos hsize client
  rw [received_end]
  apply parseReceived_other
  generalize (receiveLoop maxRequestBytes (freshReception client)).2 = ending at houtcome ⊢
  have hreach := (reach_bounds hpos.le client.arrivals).2
  cases houtcome with
  | decided verdict held =>
    have htake : ((arrived client.arrivals).take
        (reach maxRequestBytes 0 client.arrivals)).length ≤ maxRequestBytes :=
      (List.length_take_le _ _).trans hreach
    obtain ⟨found, hfound⟩ := Decides.head hpos htake (by rw [Decides, verdict]; exact nofun)
    rw [declared_take hfound] at hhead
    exact judge_not_tooLarge hpos htake hhead (.inr ⟨hlimit, hsize⟩) verdict
  | full undecided large limit long held =>
    -- The whole request would have been there.
    exfalso
    have hn : reach maxRequestBytes 0 client.arrivals = maxRequestBytes := by rw [reach, if_pos large]
    rw [hn] at undecided
    have hfound := findHeaderEnd_take hend ((Nat.le_add_right _ _).trans hlimit)
    have htake : ((arrived client.arrivals).take maxRequestBytes).length = maxRequestBytes :=
      List.length_take_of_le long
    rw [undecided_full hpos htake undecided] at hfound
    cases hfound
  | beyond undecided small long past other => exact other
  | stopped undecided short held other => exact other

theorem held (hpos : 0 < maxRequestBytes) (hsize : maxRequestBytes ≤ SIZE_MAX)
    (h : Measured maxRequestBytes client) :
    (receivedBytes maxRequestBytes client).length ≤ maxRequestBytes := by
  have houtcome := fresh_outcome hpos hsize client
  generalize (receiveLoop maxRequestBytes (freshReception client)).2 = ending at houtcome
  cases houtcome with
  | decided verdict held => exact held
  | full undecided large limit long held => exact held
  | beyond undecided small long past other =>
    rcases h.reads with hshort | ⟨hlarge, -⟩ | hdecides
    · omega
    · omega
    · exact absurd hdecides undecided
  | stopped undecided short held other => exact held

theorem rejected (hpos : 0 < maxRequestBytes) (hsize : maxRequestBytes ≤ SIZE_MAX)
    (h : Measured maxRequestBytes client)
    (hlarge : TooLarge maxRequestBytes (arrived client.arrivals)) :
    receiveRequest maxRequestBytes client = payloadTooLarge := by
  have houtcome := fresh_outcome hpos hsize client
  rw [received_end]
  generalize (receiveLoop maxRequestBytes (freshReception client)).2 = ending at houtcome ⊢
  have hreach := (reach_bounds hpos.le client.arrivals).2
  have htake : ((arrived client.arrivals).take
      (reach maxRequestBytes 0 client.arrivals)).length ≤ maxRequestBytes :=
    (List.length_take_le _ _).trans hreach
  cases houtcome with
  | decided verdict held =>
    obtain ⟨found, hfound⟩ := Decides.head hpos htake (by rw [Decides, verdict]; exact nofun)
    have hwithin : httpFindHeaderEnd ((arrived client.arrivals).take maxRequestBytes) =
        some found := by
      refine findHeaderEnd_take (headEnd_take hfound) ?_
      exact (findHeaderEnd_fits hfound).2.trans htake
    rcases hlarge with ⟨request, headerLength, hhead, hover⟩ | ⟨-, hnone⟩
    · have hfits := h.length request headerLength (by rw [← declared_take hwithin, hhead])
      rw [declared_take hfound] at hhead
      rw [(judge_declared hpos htake hhead).2 hfits, if_pos hover] at verdict
      cases verdict
      rfl
    · rw [hwithin] at hnone
      cases hnone
  | full undecided large limit long held => rfl
  | beyond undecided small long past other =>
    rcases h.reads with hshort | ⟨hchunk, -⟩ | hdecides
    · omega
    · omega
    · exact absurd hdecides undecided
  | stopped undecided short held other =>
    exfalso
    have hshort : (arrived client.arrivals).length < maxRequestBytes := by
      rcases h.reads with hshort | ⟨hchunk, hmax⟩ | hdecides
      · exact hshort
      · omega
      · exact absurd hdecides undecided
    rw [take_reach_all hshort.le] at undecided
    rcases hlarge with ⟨request, headerLength, hhead, hover⟩ | ⟨hlong, -⟩
    · have hfits := h.length request headerLength (by rw [List.take_of_length_le hshort.le, hhead])
      apply undecided
      rw [Decides, (judge_declared hpos hshort.le hhead).2 hfits, if_pos hover]
      exact nofun
    · omega

end DbApi.Http
