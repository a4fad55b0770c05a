import Mathlib

namespace DbApi.Library

variable {ε δ α β γ : Type}

theorem except_bind_ok {x : Except ε α} {f : α → Except ε β} {b : β} :
    (x >>= f) = .ok b ↔ ∃ a, x = .ok a ∧ f a = .ok b := by
  cases x with
  | error e => exact ⟨(fun h => nomatch h), fun ⟨_, h, _⟩ => nomatch h⟩
  | ok a => exact ⟨fun h => ⟨a, rfl, h⟩, fun ⟨_, h, hf⟩ => Except.ok.inj h ▸ hf⟩

theorem except_ok_bind (a : α) (f : α → Except ε β) : (Except.ok a >>= f) = f a := rfl

theorem except_map_ok {x : Except ε α} {f : α → β} {b : β} :
    x.map f = .ok b ↔ ∃ a, x = .ok a ∧ f a = b := by
  cases x with
  | error e => exact ⟨(fun h => nomatch h), fun ⟨_, h, _⟩ => nomatch h⟩
  | ok a =>
    refine ⟨fun h => ⟨a, rfl, Except.ok.inj h⟩, fun ⟨c, h, hf⟩ => ?_⟩
    rw [← hf, Except.ok.inj h]
    rfl

/-- Two computations end alike: with the same error under `e`, or with results
in relation. -/
inductive Follows (e : δ → ε) (R : α → β → Prop) : Except ε α → Except δ β → Prop where
  | error (d : δ) : Follows e R (.error (e d)) (.error d)
  | ok {a : α} {b : β} (h : R a b) : Follows e R (.ok a) (.ok b)

theorem Follows.bind {e : δ → ε} {R : α → β → Prop} {α' β' : Type} {S : α' → β' → Prop}
    {x : Except ε α} {y : Except δ β} {f : α → Except ε α'} {g : β → Except δ β'}
    (h : Follows e R x y) (hf : ∀ a b, R a b → Follows e S (f a) (g b)) :
    Follows e S (x >>= f) (y >>= g) := by
  cases h with
  | error d => exact .error d
  | ok h => exact hf _ _ h

theorem Follows.map {e : δ → ε} {R : α → β → Prop} {α' β' : Type} {S : α' → β' → Prop}
    {x : Except ε α} {y : Except δ β} {f : α → α'} {g : β → β'}
    (h : Follows e R x y) (hf : ∀ a b, R a b → S (f a) (g b)) :
    Follows e S (x.map f) (y.map g) := by
  cases h with
  | error d => exact .error d
  | ok h => exact .ok (hf _ _ h)

theorem Follows.map_right {e : δ → ε} {R : α → β → Prop} {S : α → γ → Prop}
    {x : Except ε α} {y : Except δ β} {g : β → γ} (h : Follows e R x y)
    (hg : ∀ a b, R a b → S a (g b)) : Follows e S x (y.map g) := by
  cases h with
  | error d => exact .error d
  | ok h => exact .ok (hg _ _ h)

/-- Two computations end alike: with errors that `D` allows, the one printed by `e`, or
with one result that satisfies `R`. -/
inductive Reports (e : δ → ε) (D : δ → Prop) (R : α → Prop) : Except ε α → Except δ α → Prop where
  | error {d : δ} (h : D d) : Reports e D R (.error (e d)) (.error d)
  | ok {a : α} (h : R a) : Reports e D R (.ok a) (.ok a)

theorem Reports.bind {e : δ → ε} {D : δ → Prop} {R : α → Prop} {S : β → Prop} {x : Except ε α}
    {y : Except δ α} {f : α → Except ε β} {g : α → Except δ β} (h : Reports e D R x y)
    (hf : ∀ a, R a → Reports e D S (f a) (g a)) : Reports e D S (x >>= f) (y >>= g) := by
  cases h with
  | error h => exact .error h
  | ok h => exact hf _ h

theorem Reports.map {e : δ → ε} {D : δ → Prop} {R : α → Prop} {S : β → Prop} {x : Except ε α}
    {y : Except δ α} {f : α → β} (h : Reports e D R x y) (hf : ∀ a, R a → S (f a)) :
    Reports e D S (x.map f) (y.map f) := by
  cases h with
  | error h => exact .error h
  | ok h => exact .ok (hf _ h)

/-- Whatever error the computation ends in satisfies `P`. -/
def FailsWith (P : ε → Prop) (x : Except ε α) : Prop := ∀ e, x = .error e → P e

variable {P : ε → Prop}

theorem failsWith_ok (a : α) : FailsWith P (.ok a : Except ε α) := fun _ h => nomatch h

theorem failsWith_error {e : ε} (h : P e) : FailsWith P (.error e : Except ε α) := by
  rintro _ ⟨rfl⟩
  exact h

theorem FailsWith.bind {x : Except ε α} {f : α → Except ε β} (hx : FailsWith P x)
    (hf : ∀ a, x = .ok a → FailsWith P (f a)) : FailsWith P (x >>= f) := by
  cases x with
  | error e => exact failsWith_error (hx e rfl)
  | ok a => exact hf a rfl

theorem FailsWith.map {x : Except ε α} {f : α → β} (hx : FailsWith P x) :
    FailsWith P (x.map f) := by
  cases x with
  | error e => exact failsWith_error (hx e rfl)
  | ok a => exact failsWith_ok (f a)

/-- An error satisfies `P`, a result `Q`. -/
def EndsWith (P : ε → Prop) (Q : α → Prop) : Except ε α → Prop
  | .error e => P e
  | .ok a => Q a

variable {Q : α → Prop} {R : β → Prop}

theorem EndsWith.bind {x : Except ε α} {f : α → Except ε β} (hx : EndsWith P Q x)
    (hf : ∀ a, Q a → EndsWith P R (f a)) : EndsWith P R (x >>= f) := by
  cases x with
  | error e => exact hx
  | ok a => exact hf a hx

theorem EndsWith.map {x : Except ε α} {f : α → β} (hx : EndsWith P Q x) (hf : ∀ a, Q a → R (f a)) :
    EndsWith P R (x.map f) := by
  cases x with
  | error e => exact hx
  | ok a => exact hf a hx

theorem EndsWith.mapM {f : α → Except ε β} {list : List α} (h : ∀ a ∈ list, EndsWith P R (f a)) :
    EndsWith P (fun results => ∀ b ∈ results, R b) (list.mapM f) := by
  induction list with
  | nil => exact fun _ hb => (List.not_mem_nil hb).elim
  | cons a list ih =>
    obtain ⟨hfirst, hrest⟩ := List.forall_mem_cons.mp h
    rw [List.mapM_cons]
    refine hfirst.bind fun b hb => ?_
    refine (ih hrest).bind fun results hresults => ?_
    exact List.forall_mem_cons.mpr ⟨hb, hresults⟩

theorem EndsWith.error {x : Except ε α} (hx : EndsWith P Q x) {e : ε} (h : x = .error e) : P e := by
  subst h
  exact hx

theorem EndsWith.ok {x : Except ε α} (hx : EndsWith P Q x) {a : α} (h : x = .ok a) : Q a := by
  subst h
  exact hx

end DbApi.Library
