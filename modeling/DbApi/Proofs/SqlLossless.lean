import DbApi.Proofs.SqlLexing

namespace DbApi.Proofs.SqlLossless
open Library Common Sql SqlLexing

/-- The piece of the input that a token stands for. -/
def sourceOf (token : Token) : Bytes :=
  match token.type with
  | .string => quoted token.text
  | _ => token.text

/-- From `position` on, the input is the pieces of the tokens at their recorded
positions with blanks between them. -/
inductive Lossless : Nat → Bytes → List Token → Prop where
  | done {position : Nat} {gap : Bytes} (blank : Blank gap) :
    Lossless position gap [{ type := .end, text := [], position := position + gap.length }]
  | next {gap text : Bytes} {token : Token} {tokens : List Token} {position : Nat}
      (blank : Blank gap) (at_ : token.position = position + gap.length)
      (rest : Lossless (token.position + (sourceOf token).length) text tokens) :
    Lossless position (gap ++ sourceOf token ++ text) (token :: tokens)

def doubled (value : Bytes) : Bytes :=
  value.flatMap fun b => if b = apostrophe then [apostrophe, apostrophe] else [b]

theorem Lossless.blank {b : UInt8} (hb : isSpace b = true) {position : Nat} {input : Bytes}
    {tokens : List Token} (h : Lossless (position + 1) input tokens) :
    Lossless position (b :: input) tokens := by
  have hcons : ∀ {gap : Bytes}, Blank gap → Blank (b :: gap) := by
    intro gap hg c hc
    rcases List.mem_cons.mp hc with rfl | hc
    · exact hb
    · exact hg c hc
  cases h with
  | done blank =>
    have hposition : position + 1 + input.length = position + (b :: input).length := by
      rw [List.length_cons]
      omega
    rw [hposition]
    exact .done (hcons blank)
  | @next gap text token tokens _ blank at_ rest =>
    have hposition : token.position = position + (b :: gap).length := by
      rw [at_, List.length_cons]
      omega
    exact .next (hcons blank) hposition rest

theorem Lossless.token {type : TokenType} {text source input : Bytes} {tokens : List Token}
    {position : Nat} (hs : sourceOf { type, text, position } = source)
    (h : Lossless (position + source.length) input tokens) :
    Lossless position (source ++ input) ({ type, text, position } :: tokens) := by
  subst hs
  have hnone : Blank [] := fun _ hb => by cases hb
  exact .next hnone rfl h

theorem doubled_cons (b : UInt8) (value : Bytes) :
    doubled (b :: value) =
      (if b = apostrophe then [apostrophe, apostrophe] else [b]) ++ doubled value := rfl

/-- The scan of a literal ends past a closing quote, or at the end of the input. -/
theorem scan_cases (last : UInt8) (buffer input : Bytes) :
    ∃ value, (scanString last buffer input).buffer = buffer ++ value ∧
      (input = doubled value ++ apostrophe :: (scanString last buffer input).rest ∨
        input = doubled value ∧ (scanString last buffer input).rest = []) := by
  fun_induction scanString last buffer input with
  | case1 last buffer => exact ⟨[], by simp, .inr ⟨rfl, rfl⟩⟩
  | case2 last buffer => exact ⟨[], by simp, .inl rfl⟩
  | case3 last buffer rest ih =>
    obtain ⟨value, hbuffer, hinput⟩ := ih
    refine ⟨apostrophe :: value, by rw [hbuffer, List.append_assoc]; rfl, ?_⟩
    rcases hinput with hclosed | ⟨hopen, hrest⟩
    · exact .inl (congrArg (apostrophe :: apostrophe :: ·) hclosed)
    · exact .inr ⟨congrArg (apostrophe :: apostrophe :: ·) hopen, hrest⟩
  | case4 last buffer next rest hn => exact ⟨[], by simp, .inl rfl⟩
  | case5 last buffer current rest hc ih =>
    obtain ⟨value, hbuffer, hinput⟩ := ih
    have hdoubled : doubled (current :: value) = current :: doubled value := by
      rw [doubled_cons, if_neg hc]
      rfl
    refine ⟨current :: value, by rw [hbuffer, List.append_assoc]; rfl, ?_⟩
    rw [hdoubled]
    rcases hinput with hclosed | ⟨hopen, hrest⟩
    · exact .inl (congrArg (current :: ·) hclosed)
    · exact .inr ⟨congrArg (current :: ·) hopen, hrest⟩

theorem split_word (current : UInt8) (rest : Bytes) :
    current :: rest =
      (current :: rest.takeWhile isIdentifierContinue) ++ rest.dropWhile isIdentifierContinue := by
  rw [List.cons_append, List.takeWhile_append_dropWhile]

theorem map_ok {token : Token} {lexed : Except Bytes (List Token)} {tokens : List Token}
    (h : lexed.map (token :: ·) = .ok tokens) :
    ∃ rest, lexed = .ok rest ∧ tokens = token :: rest := by
  cases lexed with
  | error message => cases h
  | ok rest => exact ⟨rest, rfl, (Except.ok.inj h).symm⟩

end DbApi.Proofs.SqlLossless
