import DbApi.Http.SizeWidth
import DbApi.Proofs.DeclaredHead

namespace DbApi.Http.Sized

open DbApi.Library

variable {w : Nat}

/-- A computation that does not wrap around, and gives a result just where `R` has one. -/
def Exact {α : Type} (computed : Option (Except Bytes α)) (R : α → Prop) : Prop :=
  ∃ read, computed = some read ∧ ∀ a, read = .ok a ↔ R a

theorem Exact.error {α : Type} {R : α → Prop} (error : Bytes) (h : ∀ a, ¬ R a) :
    Exact (some (.error error)) R := by
  refine ⟨_, rfl, fun a => ?_⟩
  constructor
  · intro ha
    cases ha
  · intro ha
    exact absurd ha (h a)

theorem Exact.ok {α : Type} {R : α → Prop} (a : α) (h : ∀ b, a = b ↔ R b) :
    Exact (some (.ok a)) R := by
  refine ⟨_, rfl, fun b => ?_⟩
  rw [← h b]
  exact ⟨Except.ok.inj, congrArg _⟩

theorem Exact.congr {α : Type} {computed : Option (Except Bytes α)} {R S : α → Prop}
    (h : Exact computed R) (hrs : ∀ a, R a ↔ S a) : Exact computed S := by
  obtain ⟨read, hread, hr⟩ := h
  exact ⟨read, hread, fun a => (hr a).trans (hrs a)⟩

theorem Exact.map {α β : Type} {computed : Option (Except Bytes α)} {R : α → Prop}
    (h : Exact computed R) (f : α → β) :
    Exact (computed.map fun read => read.map f) fun b => ∃ a, R a ∧ f a = b := by
  obtain ⟨read, rfl, hr⟩ := h
  refine ⟨_, rfl, fun b => ?_⟩
  rw [except_map_ok]
  simp only [hr]

theorem Exact.andThen {α β : Type} {computed : Option (Except Bytes α)} {R : α → Prop}
    {next : α → Option (Except Bytes β)} {S : α → β → Prop} (h : Exact computed R)
    (hnext : ∀ a, R a → Exact (next a) (S a)) :
    Exact (andThen computed next) fun b => ∃ a, R a ∧ S a b := by
  obtain ⟨read, rfl, hr⟩ := h
  cases read with
  | error error =>
    apply Exact.error
    rintro b ⟨a, ha, -⟩
    cases (hr a).mpr ha
  | ok a =>
    obtain ⟨result, hresult, hs⟩ := hnext a ((hr a).mp rfl)
    refine ⟨result, hresult, fun b => (hs b).trans ?_⟩
    constructor
    · intro hb
      exact ⟨a, (hr a).mp rfl, hb⟩
    · rintro ⟨a', ha', hb⟩
      cases (hr a').mpr ha'
      exact hb

/-- A character is taken just where the number still has `w` bits. -/
theorem parseDigits_exact (hw : 16 ≤ w) {parsedValue : Nat} (hvalue : parsedValue < 2 ^ w)
    (digits : Bytes) :
    Exact (parseDigits w parsedValue digits) fun n => (∀ b ∈ digits, isDigit b = true) ∧
      n = digits.foldl (fun n d => 10 * n + (d.toNat - 48)) parsedValue ∧ n ≤ maxUnsigned w := by
  have hmax := maxUnsigned_succ w
  induction digits generalizing parsedValue with
  | nil =>
    apply Exact.ok
    intro n
    simp only [List.not_mem_nil, false_imp_iff, implies_true, true_and, List.foldl_nil]
    omega
  | cons d digits ih =>
    rw [parseDigits]
    by_cases hdigit : isDigit d = true
    · have hsmall : d.toNat - 48 ≤ maxUnsigned w := by
        have hnine := digit_value hdigit
        have hroom : 2 ^ 16 ≤ 2 ^ w := Nat.pow_le_pow_right (by simp) hw
        omega
      rw [if_neg (by simp [hdigit]), subUnsigned_le hsmall]
      simp only [Option.bind_eq_bind, Option.bind_some]
      by_cases hlarge : (maxUnsigned w - (d.toNat - 48)) / 10 < parsedValue
      · rw [if_pos hlarge]
        have hover := (decimal_guard hsmall).mp hlarge
        apply Exact.error
        rintro n ⟨-, hn, hle⟩
        have hgrows := value_grows digits (10 * parsedValue + (d.toNat - 48))
        rw [List.foldl_cons] at hn
        omega
      · have hfits := not_not.mp (mt (decimal_guard hsmall).mpr hlarge)
        rw [if_neg hlarge, mulUnsigned_fits (by omega), Option.bind_some, addUnsigned_fits hfits,
          Option.bind_some]
        apply (ih hfits).congr
        intro n
        rw [List.forall_mem_cons, List.foldl_cons, Nat.mul_comm 10 parsedValue]
        simp [hdigit]
    · rw [if_pos (by simpa using hdigit)]
      apply Exact.error
      rintro n ⟨hall, -⟩
      exact hdigit (hall d List.mem_cons_self)

theorem contentLength_exact (hw : 16 ≤ w) (value : Bytes) :
    Exact (httpParseContentLength w value) fun n => httpTrimSpan value ≠ [] ∧
      (∀ b ∈ httpTrimSpan value, isDigit b = true) ∧ n = digitsValue (httpTrimSpan value) ∧
      n ≤ maxUnsigned w := by
  rw [httpParseContentLength]
  cases hdigits : httpTrimSpan value with
  | nil =>
    apply Exact.error
    rintro n ⟨hne, -⟩
    exact hne rfl
  | cons d digits =>
    apply (parseDigits_exact hw (Nat.two_pow_pos w) (d :: digits)).congr
    intro n
    rw [digitsValue]
    simp

theorem declaredLength_ok {value : Bytes} {n : Nat} :
    declaredLength value = .ok n ↔ httpTrimSpan value ≠ [] ∧
      (∀ b ∈ httpTrimSpan value, isDigit b = true) ∧ n = digitsValue (httpTrimSpan value) := by
  rw [declaredLength]
  cases httpTrimSpan value with
  | nil => simp
  | cons d digits =>
    dsimp only
    split
    · rename_i hall
      rw [List.all_eq_true] at hall
      constructor
      · intro h
        exact ⟨by simp, hall, (Except.ok.inj h).symm⟩
      · rintro ⟨-, -, rfl⟩
        rfl
    · rename_i hall
      rw [List.all_eq_true] at hall
      constructor
      · intro h
        cases h
      · intro h
        exact absurd h.2.1 hall

/-- The length that a header line sets has `w` bits; the other lines keep the one there was. -/
theorem parseHeader_exact (hw : 16 ≤ w) {state : HeaderState}
    (hsize : state.request.contentLength < 2 ^ w) (name value : Bytes) :
    Exact (parseHeader w state name value) fun next =>
      declaredHeader state name value = .ok next ∧ next.request.contentLength < 2 ^ w := by
  have hmax := maxUnsigned_succ w
  rw [parseHeader, declaredHeader]
  split
  · rw [parseContentLengthHeader]
    split
    · apply Exact.error
      rintro next ⟨h, -⟩
      cases h
    · apply ((contentLength_exact hw value).map _).congr
      intro next
      rw [except_map_ok]
      simp only [declaredLength_ok]
      constructor
      · rintro ⟨n, ⟨hne, hall, hn, hle⟩, rfl⟩
        refine ⟨⟨n, ⟨hne, hall, hn⟩, rfl⟩, ?_⟩
        change n < 2 ^ w
        omega
      · rintro ⟨⟨n, ⟨hne, hall, hn⟩, rfl⟩, hlt⟩
        change n < 2 ^ w at hlt
        exact ⟨n, ⟨hne, hall, hn, by omega⟩, rfl⟩
  · rename_i hname
    refine ⟨_, rfl, fun next => ?_⟩
    rw [iff_self_and]
    intro h
    rw [(parseHeader_length hname h).1]
    exact hsize

theorem parseHeaderLine_exact (hw : 16 ≤ w) {state : HeaderState}
    (hsize : state.request.contentLength < 2 ^ w) (line : Bytes) :
    Exact (parseHeaderLine w state line) fun next =>
      declaredHeaderLine state line = .ok next ∧ next.request.contentLength < 2 ^ w := by
  rw [parseHeaderLine, declaredHeaderLine]
  split
  · apply Exact.ok
    intro next
    rw [Except.ok.injEq, iff_self_and]
    rintro rfl
    exact hsize
  · cases memchr 58 line with
    | none =>
      apply Exact.error
      rintro next ⟨h, -⟩
      cases h
    | some colon => exact parseHeader_exact hw hsize _ _

/-- A later line does not set the length anew. -/
theorem declaredLines_first {state middle final : HeaderState} {line : Bytes} {lines : List Bytes}
    (hline : declaredHeaderLine state line = .ok middle)
    (hrest : declaredHeaderLines middle lines = .ok final) :
    middle.request.contentLength = state.request.contentLength ∨
      middle.request.contentLength = final.request.contentLength := by
  rcases declaredHeaderLine_cases hline with ⟨-, hlength, -⟩ | ⟨-, -, hset⟩
  · exact .inl hlength
  · exact .inr (declared_set hrest hset).symm

theorem parseHeaderLines_exact (hw : 16 ≤ w) {state : HeaderState}
    (hsize : state.request.contentLength < 2 ^ w) (lines : List Bytes) :
    Exact (parseHeaderLines w state lines) fun final =>
      declaredHeaderLines state lines = .ok final ∧ final.request.contentLength < 2 ^ w := by
  induction lines generalizing state with
  | nil =>
    apply Exact.ok
    intro final
    rw [declaredHeaderLines, Except.ok.injEq, iff_self_and]
    intro h
    rw [← h]
    exact hsize
  | cons line lines ih =>
    cases lines with
    | nil =>
      rw [parseHeaderLines, declaredHeaderLines]
      split
      · apply Exact.ok
        intro final
        rw [Except.ok.injEq, iff_self_and]
        intro h
        rw [← h]
        exact hsize
      · apply Exact.error
        intro final h
        cases h.1
    | cons following lines =>
      have hread : declaredHeaderLines state (line :: following :: lines) =
          declaredHeaderLine state line >>= fun state =>
            declaredHeaderLines state (following :: lines) := rfl
      apply ((parseHeaderLine_exact hw hsize line).andThen fun middle h => ih h.2).congr
      intro final
      rw [hread, except_bind_ok]
      constructor
      · intro h
        obtain ⟨middle, ⟨hline, -⟩, hrest, hfinal⟩ := h
        exact ⟨⟨middle, hline, hrest⟩, hfinal⟩
      · intro h
        obtain ⟨⟨middle, hline, hrest⟩, hfinal⟩ := h
        refine ⟨middle, ⟨hline, ?_⟩, hrest, hfinal⟩
        rcases declaredLines_first hline hrest with hlength | hlength
        · rw [hlength]
          exact hsize
        · rw [hlength]
          exact hfinal

/-- The head is read where the length that it declares has `w` bits. -/
theorem parseHead_exact (hw : 16 ≤ w) (buffer : Bytes) :
    Exact (parseHead w buffer) fun head =>
      declaredHead buffer = .ok head ∧ head.1.contentLength < 2 ^ w := by
  rw [parseHead, declaredHead]
  cases httpFindHeaderEnd buffer with
  | none =>
    apply Exact.error
    intro head h
    cases h.1
  | some headerLength =>
    dsimp only
    cases httpFindCrlf (buffer.take headerLength) with
    | none =>
      apply Exact.error
      intro head h
      cases h.1
    | some requestLineEnd =>
      dsimp only
      have hline : Exact (some (httpParseRequestLine (buffer.take requestLineEnd) emptyRequest))
          fun request =>
            httpParseRequestLine (buffer.take requestLineEnd) emptyRequest = .ok request :=
        ⟨_, rfl, fun _ => Iff.rfl⟩
      apply (hline.andThen (S := fun request head => ∃ state, (declaredHeaderLines
        { request
          sawContentLength := false
          sawContentType := false
          sawDebugSleepMs := false }
        (splitLines ((buffer.take (headerLength - 2)).drop (requestLineEnd + 2))) = .ok state ∧
          state.request.contentLength < 2 ^ w) ∧ (state.request, headerLength) = head) ?_).congr
      · intro head
        rw [except_bind_ok]
        constructor
        · intro h
          obtain ⟨request, hrequest, state, ⟨hlines, hlt⟩, rfl⟩ := h
          refine ⟨⟨request, hrequest, ?_⟩, hlt⟩
          rw [hlines]
          rfl
        · intro h
          obtain ⟨⟨request, hrequest, h⟩, hlt⟩ := h
          obtain ⟨state, hlines, h⟩ := except_bind_ok.mp h
          cases h
          exact ⟨request, hrequest, state, ⟨hlines, hlt⟩, rfl⟩
      · intro request hrequest
        refine (parseHeaderLines_exact hw ?_ _).andThen fun state _ => Exact.ok _ fun _ => Iff.rfl
        rw [show HttpRequest.contentLength _ = _ from requestLine_length hrequest]
        exact Nat.two_pow_pos w

/-- A probe does not wrap around, and the length it sets is the sum of the two lengths. -/
theorem probe_exact (hw : 16 ≤ w) (buffer : Bytes) (maxRequestBytes : Nat) :
    ∃ probe, httpRequestProbe w buffer maxRequestBytes = some probe ∧
      (probe.requestLength ≠ 0 → ∃ request headerLength,
        declaredHead buffer = .ok (request, headerLength) ∧
        probe.requestLength = headerLength + request.contentLength ∧
        headerLength + request.contentLength ≤ maxUnsigned w) := by
  have hmax := maxUnsigned_succ w
  rw [httpRequestProbe]
  split
  · exact ⟨_, rfl, fun h => absurd rfl h⟩
  · cases httpFindHeaderEnd buffer with
    | none => exact ⟨_, rfl, fun h => absurd rfl h⟩
    | some _ =>
      obtain ⟨read, hread, hhead⟩ := parseHead_exact hw buffer
      dsimp only
      rw [hread, Option.bind_some]
      cases read with
      | error error => exact ⟨_, rfl, fun h => absurd rfl h⟩
      | ok head =>
        obtain ⟨request, headerLength⟩ := head
        obtain ⟨hdeclared, hlt⟩ := (hhead _).mp rfl
        have hle : request.contentLength ≤ maxUnsigned w := by
          dsimp only at hlt
          omega
        rw [probeHead, subUnsigned_le hle]
        simp only [Option.bind_eq_bind, Option.bind_some]
        split
        · exact ⟨_, rfl, fun h => absurd rfl h⟩
        · rename_i hguard
          have hfits := not_not.mp (mt (add_guard hle).mpr hguard)
          rw [addUnsigned_fits (by omega)]
          simp only [Option.bind_some]
          split
          · exact ⟨_, rfl, fun _ => ⟨_, _, hdeclared, rfl, by omega⟩⟩
          · split
            · exact ⟨_, rfl, fun _ => ⟨_, _, hdeclared, rfl, by omega⟩⟩
            · exact ⟨_, rfl, fun _ => ⟨_, _, hdeclared, rfl, by omega⟩⟩

/-- What is left after the head is no less than nothing, and a body that is there has a size. -/
theorem parseRequest_exact (hw : 16 ≤ w) {buffer : Bytes} (hbuffer : buffer.length ≤ maxUnsigned w) :
    Exact (httpParseRequest w buffer) fun parsed => ∃ request headerLength,
      declaredHead buffer = .ok (request, headerLength) ∧ headerLength ≤ buffer.length ∧
      request.contentLength ≤ buffer.length - headerLength ∧
      parsed = { request with body := (buffer.drop headerLength).take request.contentLength } := by
  have hmax := maxUnsigned_succ w
  apply ((parseHead_exact hw buffer).andThen (S := fun head parsed =>
    head.2 ≤ buffer.length ∧ head.1.contentLength ≤ buffer.length - head.2 ∧
      parsed = { head.1 with body := (buffer.drop head.2).take head.1.contentLength }) ?_).congr
  · intro parsed
    constructor
    · intro h
      obtain ⟨⟨request, headerLength⟩, ⟨hhead, -⟩, h⟩ := h
      exact ⟨request, headerLength, hhead, h⟩
    · intro h
      obtain ⟨request, headerLength, hhead, hfits, hbody, rfl⟩ := h
      refine ⟨(request, headerLength), ⟨hhead, ?_⟩, hfits, hbody, rfl⟩
      change request.contentLength < 2 ^ w
      omega
  · intro head h
    obtain ⟨request, headerLength⟩ := head
    obtain ⟨hfour, hfits⟩ := findHeaderEnd_fits (declaredHead_length h.1)
    dsimp only
    rw [subUnsigned_le hfits]
    simp only [Option.bind_eq_bind, Option.bind_some]
    split
    · rename_i hshort
      apply Exact.error
      intro parsed hparsed
      omega
    · rename_i hlong
      rw [addUnsigned_fits (by omega), Option.bind_some]
      apply Exact.ok
      intro parsed
      constructor
      · rintro rfl
        exact ⟨hfits, by omega, rfl⟩
      · intro hparsed
        exact hparsed.2.2.symm

/-- The doubling stops, at a capacity that the two bounds enclose. -/
theorem growCapacity_exact {rounds newCapacity minimumCapacity maximumCapacity : Nat}
    (hsize : maximumCapacity ≤ maxUnsigned w) (hpos : 0 < newCapacity)
    (hle : minimumCapacity ≤ maximumCapacity) (hrounds : minimumCapacity ≤ newCapacity + rounds) :
    ∃ capacity,
      growCapacity w (rounds + 1) newCapacity minimumCapacity maximumCapacity = some capacity ∧
      minimumCapacity ≤ capacity ∧ capacity ≤ max maximumCapacity newCapacity := by
  have hmax := maxUnsigned_succ w
  induction rounds generalizing newCapacity with
  | zero =>
    rw [growCapacity, if_neg (by omega)]
    exact ⟨_, rfl, hrounds, le_max_right _ _⟩
  | succ rounds ih =>
    rw [growCapacity]
    split
    · split
      · exact ⟨_, rfl, hle, le_max_left _ _⟩
      · split
        · obtain ⟨capacity, hgrown, hmin, hbound⟩ :=
            @ih maximumCapacity (by omega) (by omega)
          exact ⟨capacity, hgrown, hmin, by omega⟩
        · rw [mulUnsigned_fits (by omega)]
          obtain ⟨capacity, hgrown, hmin, hbound⟩ :=
            @ih (newCapacity * 2) (by omega) (by omega)
          exact ⟨capacity, hgrown, hmin, by omega⟩
    · exact ⟨_, rfl, by omega, le_max_right _ _⟩

theorem growBuffer_exact (hw : 16 ≤ w) {capacity minimumCapacity maximumCapacity rounds : Nat}
    (hsize : maximumCapacity ≤ maxUnsigned w) (hle : minimumCapacity ≤ maximumCapacity)
    (hcapacity : capacity ≤ maximumCapacity) (hrounds : minimumCapacity < rounds) :
    ∃ newCapacity,
      httpGrowBuffer w rounds capacity minimumCapacity maximumCapacity = some (some newCapacity) ∧
      minimumCapacity ≤ newCapacity ∧
      newCapacity ≤ max maximumCapacity HTTP_RECEIVE_CHUNK_BYTES := by
  obtain ⟨rounds, rfl⟩ := Nat.exists_eq_succ_of_ne_zero (Nat.ne_zero_of_lt hrounds)
  have hchunk : HTTP_RECEIVE_CHUNK_BYTES % 2 ^ w = HTTP_RECEIVE_CHUNK_BYTES := by
    apply Nat.mod_eq_of_lt
    have hroom : 2 ^ 16 ≤ 2 ^ w := Nat.pow_le_pow_right (by simp) hw
    rw [HTTP_RECEIVE_CHUNK_BYTES]
    omega
  obtain ⟨start, hstart, hpos, hbound⟩ :
      ∃ start, (if capacity = 0 then HTTP_RECEIVE_CHUNK_BYTES % 2 ^ w else capacity) = start ∧
        0 < start ∧ start ≤ max maximumCapacity HTTP_RECEIVE_CHUNK_BYTES := by
    rw [hchunk]
    split
    · exact ⟨_, rfl, by rw [HTTP_RECEIVE_CHUNK_BYTES]; omega, le_max_right _ _⟩
    · exact ⟨_, rfl, by omega, hcapacity.trans (le_max_left _ _)⟩
  obtain ⟨newCapacity, hgrown, hmin, hmost⟩ :=
    @growCapacity_exact w rounds _ _ _ hsize hpos hle (by omega)
  refine ⟨newCapacity, ?_, hmin, by omega⟩
  rw [httpGrowBuffer, hstart, hgrown, Option.map_some, if_neg (by omega)]

theorem size_max : maxUnsigned 64 = SIZE_MAX := rfl

theorem parseDigits_word {parsedValue : Nat} (hvalue : parsedValue ≤ SIZE_MAX) (digits : Bytes) :
    parseDigits 64 parsedValue digits = some (Http.parseDigits parsedValue digits) := by
  have hmax := maxUnsigned_succ 64
  induction digits generalizing parsedValue with
  | nil => rfl
  | cons d digits ih =>
    rw [parseDigits, Http.parseDigits]
    split
    · rfl
    · rename_i hdigit
      have hsmall : d.toNat - 48 ≤ maxUnsigned 64 := by
        have hnine := digit_value (by simpa using hdigit)
        omega
      rw [subUnsigned_le hsmall, ← size_max]
      simp only [Option.bind_eq_bind, Option.bind_some]
      split
      · rfl
      · rename_i hguard
        have hfits := not_not.mp (mt (decimal_guard hsmall).mpr hguard)
        rw [mulUnsigned_fits (by omega), Option.bind_some, addUnsigned_fits hfits, Option.bind_some]
        apply ih
        rw [← size_max]
        omega

theorem parseHeader_word (state : HeaderState) (name value : Bytes) :
    parseHeader 64 state name value = some (Http.parseHeader state name value) := by
  rw [parseHeader]
  split
  · rename_i hname
    have hne : name.length ≠ 0 := by
      intro hzero
      rw [List.length_eq_zero_iff.mp hzero] at hname
      exact absurd hname (by decide)
    rw [Http.parseHeader, if_neg hne, if_pos hname, parseContentLengthHeader,
      Http.parseContentLengthHeader]
    split
    · rfl
    · have hread : httpParseContentLength 64 value = some (Http.httpParseContentLength value) := by
        rw [httpParseContentLength, Http.httpParseContentLength]
        cases httpTrimSpan value with
        | nil => rfl
        | cons d digits => exact parseDigits_word (Nat.zero_le _) _
      rw [hread]
      cases Http.httpParseContentLength value <;> rfl
  · rfl

theorem parseHeaderLine_word (state : HeaderState) (line : Bytes) :
    parseHeaderLine 64 state line = some (Http.parseHeaderLine state line) := by
  rw [parseHeaderLine, Http.parseHeaderLine]
  split
  · rfl
  · cases memchr 58 line with
    | none => rfl
    | some colon => exact parseHeader_word _ _ _

theorem andThen_ok {α β : Type} (a : α) (next : α → Option (Except Bytes β)) :
    andThen (some (.ok a)) next = next a := rfl

theorem andThen_word {α β : Type} {read : Except Bytes α} {next : α → Option (Except Bytes β)}
    {following : α → Except Bytes β} (h : ∀ a, next a = some (following a)) :
    andThen (some read) next = some (read >>= following) := by
  cases read with
  | error error => rfl
  | ok a => exact h a

theorem parseHeaderLines_word (state : HeaderState) (lines : List Bytes) :
    parseHeaderLines 64 state lines = some (Http.parseHeaderLines state lines) := by
  induction lines generalizing state with
  | nil => rfl
  | cons line lines ih =>
    cases lines with
    | nil =>
      rw [parseHeaderLines, Http.parseHeaderLines]
      split <;> rfl
    | cons following lines =>
      rw [parseHeaderLines, parseHeaderLine_word]
      · exact andThen_word ih
      · simp

theorem parseHead_word (buffer : Bytes) : parseHead 64 buffer = some (Http.parseHead buffer) := by
  rw [parseHead, Http.parseHead]
  cases httpFindHeaderEnd buffer with
  | none => rfl
  | some headerLength =>
    dsimp only
    cases httpFindCrlf (buffer.take headerLength) with
    | none => rfl
    | some requestLineEnd =>
      apply andThen_word
      intro request
      rw [parseHeaderLines_word, httpParseHeaders]
      cases Http.parseHeaderLines _ _ <;> rfl

/-- At 64 bits the checked computations are those of the server. -/
theorem probe_word (buffer : Bytes) (maxRequestBytes : Nat) :
    httpRequestProbe 64 buffer maxRequestBytes =
      some (Http.httpRequestProbe buffer maxRequestBytes) := by
  have hmax := maxUnsigned_succ 64
  have hlimit : effectiveMax 64 maxRequestBytes = Http.effectiveMax maxRequestBytes := rfl
  rw [httpRequestProbe, Http.httpRequestProbe, hlimit]
  split
  · rfl
  · cases httpFindHeaderEnd buffer with
    | none => rfl
    | some _ =>
      obtain ⟨read, hread, hhead⟩ := parseHead_exact (by simp : 16 ≤ 64) buffer
      dsimp only
      rw [parseHead_word] at hread ⊢
      rw [Option.bind_some, httpExtractHeadMetadata]
      cases hparse : Http.parseHead buffer with
      | error error => rfl
      | ok head =>
        obtain ⟨request, headerLength⟩ := head
        rw [hparse] at hread
        have hlt := ((hhead _).mp (Option.some.inj hread).symm).2
        have hle : request.contentLength ≤ maxUnsigned 64 := by
          dsimp only at hlt
          omega
        rw [except_ok_bind, probeHead, subUnsigned_le hle]
        simp only [Option.bind_eq_bind, Option.bind_some]
        change _ = some (Http.probeHead _ _ (.ok { headerLength, contentLength := _ }))
        rw [Http.probeHead, ← size_max]
        dsimp only
        split
        · rfl
        · rename_i hguard
          have hfits := not_not.mp (mt (add_guard hle).mpr hguard)
          rw [addUnsigned_fits (by omega), Option.bind_some]
          split_ifs <;> rfl

theorem parseRequest_word {buffer : Bytes} (hbuffer : buffer.length ≤ SIZE_MAX) :
    httpParseRequest 64 buffer = some (Http.httpParseRequest buffer) := by
  have hmax := maxUnsigned_succ 64
  rw [← size_max] at hbuffer
  rw [httpParseRequest, Http.httpParseRequest, parseHead_word]
  cases hparse : Http.parseHead buffer with
  | error error => rfl
  | ok head =>
    obtain ⟨request, headerLength⟩ := head
    obtain ⟨hfour, hfits⟩ := findHeaderEnd_fits (parseHead_length hparse)
    rw [andThen_ok, except_ok_bind]
    dsimp only
    rw [subUnsigned_le hfits]
    simp only [Option.bind_eq_bind, Option.bind_some]
    split
    · rfl
    · rw [addUnsigned_fits (by omega)]
      rfl

theorem growCapacity_word {rounds newCapacity minimumCapacity maximumCapacity : Nat}
    (hsize : maximumCapacity ≤ SIZE_MAX) (hpos : 0 < newCapacity)
    (hrounds : minimumCapacity ≤ newCapacity + rounds) :
    growCapacity 64 (rounds + 1) newCapacity minimumCapacity maximumCapacity =
      some (Http.growCapacity (rounds + 1) newCapacity minimumCapacity maximumCapacity) := by
  have hmax := maxUnsigned_succ 64
  rw [← size_max] at hsize
  induction rounds generalizing newCapacity with
  | zero =>
    rw [growCapacity, Http.growCapacity, if_neg (by omega), if_neg (by omega)]
  | succ rounds ih =>
    rw [growCapacity, Http.growCapacity]
    split
    · split
      · rfl
      · split
        · exact ih (by omega) (by omega)
        · rw [mulUnsigned_fits (by omega)]
          exact ih (by omega) (by omega)
    · rfl

theorem growBuffer_word {capacity minimumCapacity maximumCapacity : Nat}
    (hsize : maximumCapacity ≤ SIZE_MAX) :
    httpGrowBuffer 64 (minimumCapacity + 1) capacity minimumCapacity maximumCapacity =
      some (Http.httpGrowBuffer capacity minimumCapacity maximumCapacity) := by
  have hstart : 0 < if capacity = 0 then HTTP_RECEIVE_CHUNK_BYTES % 2 ^ 64 else capacity := by
    split
    · exact Nat.zero_lt_succ _
    · omega
  rw [httpGrowBuffer, growCapacity_word hsize hstart (by omega)]
  rfl

/-- The lengths of a request are computed without wrapping around in a `size_t` of `w` bits:
the length that a head declares, the length of the request, what is left for the body, and
the capacity of the buffer. -/
structure LengthsExact (w : Nat) : Prop where
  contentLength : ∀ value : Bytes, Exact (httpParseContentLength w value) fun n =>
    httpTrimSpan value ≠ [] ∧ (∀ b ∈ httpTrimSpan value, isDigit b = true) ∧
    n = digitsValue (httpTrimSpan value) ∧ n ≤ maxUnsigned w
  requestLength : ∀ (buffer : Bytes) (maxRequestBytes : Nat),
    ∃ probe, httpRequestProbe w buffer maxRequestBytes = some probe ∧
      (probe.requestLength ≠ 0 → ∃ request headerLength,
        declaredHead buffer = .ok (request, headerLength) ∧
        probe.requestLength = headerLength + request.contentLength ∧
        headerLength + request.contentLength ≤ maxUnsigned w)
  body : ∀ buffer : Bytes, buffer.length ≤ maxUnsigned w →
    Exact (httpParseRequest w buffer) fun parsed => ∃ request headerLength,
      declaredHead buffer = .ok (request, headerLength) ∧ headerLength ≤ buffer.length ∧
      request.contentLength ≤ buffer.length - headerLength ∧
      parsed = { request with body := (buffer.drop headerLength).take request.contentLength }
  capacity : ∀ capacity minimumCapacity maximumCapacity : Nat,
    maximumCapacity ≤ maxUnsigned w → minimumCapacity ≤ maximumCapacity →
    capacity ≤ maximumCapacity → ∀ rounds > minimumCapacity, ∃ newCapacity,
      httpGrowBuffer w rounds capacity minimumCapacity maximumCapacity = some (some newCapacity) ∧
      minimumCapacity ≤ newCapacity ∧
      newCapacity ≤ max maximumCapacity HTTP_RECEIVE_CHUNK_BYTES

theorem lengths_exact (hw : 16 ≤ w) : LengthsExact w where
  contentLength := contentLength_exact hw
  requestLength := probe_exact hw
  body _ hbuffer := parseRequest_exact hw hbuffer
  capacity _ _ _ hsize hle hcapacity _ hrounds := growBuffer_exact hw hsize hle hcapacity hrounds

theorem lengths_exact_word : LengthsExact 64 := lengths_exact (by decide)

end DbApi.Http.Sized
