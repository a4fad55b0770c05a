import Mathlib

namespace DbApi.Library

variable {ν : Type} {P Q : ν → Nat → List Nat → Prop}

/-- Items side by side, each at its address, with the cells they take up. -/
inductive Row (P : ν → Nat → List Nat → Prop) : List ν → List Nat → List Nat → Prop
  | nil : Row P [] [] []
  | cons {c : ν} {a : Nat} {foot : List Nat} {cs : List ν} {as foots : List Nat}
      (first : P c a foot) (rest : Row P cs as foots) : Row P (c :: cs) (a :: as) (foot ++ foots)

theorem Row.length {cs : List ν} {as foot : List Nat} (h : Row P cs as foot) :
    as.length = cs.length := by
  induction h with
  | nil => rfl
  | cons _ _ ih => simp [ih]

theorem Row.singleton {c : ν} {a : Nat} {foot : List Nat} (h : P c a foot) : Row P [c] [a] foot := by
  have hrow := Row.cons h .nil
  rwa [List.append_nil] at hrow

theorem Row.append {cs ds : List ν} {as bs foot foot' : List Nat} (h : Row P cs as foot)
    (h' : Row P ds bs foot') : Row P (cs ++ ds) (as ++ bs) (foot ++ foot') := by
  induction h with
  | nil => exact h'
  | cons first _ ih =>
    rw [List.append_assoc]
    exact .cons first ih

theorem Row.split {cs ds : List ν} {as foot : List Nat} (h : Row P (cs ++ ds) as foot) :
    ∃ bs bs' front rest, as = bs ++ bs' ∧ foot = front ++ rest ∧ Row P cs bs front ∧
      Row P ds bs' rest := by
  induction cs generalizing as foot with
  | nil => exact ⟨[], as, [], foot, rfl, rfl, .nil, h⟩
  | cons c cs ih =>
    cases h with
    | @cons _ a first _ as foots hfirst hrest =>
      obtain ⟨bs, bs', front, rest, rfl, rfl, hfront, hback⟩ := ih hrest
      exact ⟨a :: bs, bs', first ++ front, rest, rfl, (List.append_assoc _ _ _).symm,
        .cons hfirst hfront, hback⟩

theorem Row.mono {cs : List ν} {as foot : List Nat} (h : Row P cs as foot)
    (hpq : ∀ c a front, (∀ x ∈ front, x ∈ foot) → P c a front → Q c a front) : Row Q cs as foot := by
  induction h with
  | nil => exact .nil
  | @cons c a front cs as foots first _ ih =>
    refine .cons (hpq c a front (fun x hx => List.mem_append_left _ hx) first) (ih ?_)
    intro d b rest hrest
    exact hpq d b rest fun x hx => List.mem_append_right _ (hrest x hx)

/-- The cells of a row are those of its items, one after another. -/
theorem Row.total {cs : List ν} {as foot : List Nat} (h : Row P cs as foot) {size : ν → Nat}
    (hsize : ∀ c a front, P c a front → front.length = size c) :
    foot.length = (cs.map size).sum := by
  induction h with
  | nil => rfl
  | cons first _ ih => simp [ih, hsize _ _ _ first]

/-- Cells in use, each once, after an allocator went from `used` to `used'`: old ones and
ones that it gave out. -/
structure Grown (used used' : Nat) (foot foot' : List Nat) : Prop where
  le : used ≤ used'
  nodup : foot'.Nodup
  origin : ∀ x ∈ foot', x ∈ foot ∨ used ≤ x ∧ x < used'

variable {used used' : Nat} {foot foot' : List Nat}

theorem Grown.same (h : foot.Nodup) (hle : used ≤ used') : Grown used used' foot foot :=
  ⟨hle, h, fun _ hx => .inl hx⟩

theorem Grown.bound (h : Grown used used' foot foot') (hfoot : ∀ x ∈ foot, x < used) :
    ∀ x ∈ foot', x < used' := by
  intro x hx
  rcases h.origin x hx with hold | hnew
  · exact (hfoot x hold).trans_le h.le
  · exact hnew.2

theorem Grown.later (h : Grown used used' foot foot') {later : Nat} (hle : used' ≤ later) :
    Grown used later foot foot' := by
  refine ⟨h.le.trans hle, h.nodup, fun x hx => ?_⟩
  rcases h.origin x hx with hold | hnew
  · exact .inl hold
  · exact .inr ⟨hnew.1, hnew.2.trans_le hle⟩

theorem Grown.trans (h : Grown used used' foot foot') {later : Nat} {last : List Nat}
    (h' : Grown used' later foot' last) : Grown used later foot last := by
  refine ⟨h.le.trans h'.le, h'.nodup, fun x hx => ?_⟩
  rcases h'.origin x hx with hold | hnew
  · exact (h.later h'.le).origin x hold
  · exact .inr ⟨h.le.trans hnew.1, hnew.2⟩

/-- As many cells as there were and were given out are all of them. -/
theorem Grown.covers (h : Grown used used' foot foot')
    (hlength : foot'.length + used = foot.length + used') {x : Nat}
    (hx : x ∈ foot ∨ used ≤ x ∧ x < used') : x ∈ foot' := by
  have hsub : foot'.toFinset ⊆ foot.toFinset ∪ Finset.Ico used used' := by
    intro y hy
    simpa using h.origin y (List.mem_toFinset.mp hy)
  have hcard : (foot.toFinset ∪ Finset.Ico used used').card ≤ foot'.toFinset.card := by
    have hunion := Finset.card_union_le foot.toFinset (Finset.Ico used used')
    have hfirst := List.toFinset_card_le foot
    have hle := h.le
    rw [Nat.card_Ico] at hunion
    rw [List.toFinset_card_of_nodup h.nodup]
    omega
  have heq := Finset.eq_of_subset_of_card_le hsub hcard
  have hmem : x ∈ foot'.toFinset := by
    rw [heq]
    simpa using hx
  exact List.mem_toFinset.mp hmem

/-- The next cell of the allocator, put anywhere. -/
theorem Grown.allocate (h : Grown used used' foot foot') (hfoot : ∀ x ∈ foot, x < used)
    {more : List Nat} (hmore : more.Perm (used' :: foot')) : Grown used (used' + 1) foot more := by
  refine ⟨h.le.trans (Nat.le_succ _), ?_, fun x hx => ?_⟩
  · rw [hmore.nodup_iff, List.nodup_cons]
    refine ⟨fun hmem => ?_, h.nodup⟩
    exact Nat.lt_irrefl _ (h.bound hfoot _ hmem)
  · rcases List.mem_cons.mp (hmore.mem_iff.mp hx) with rfl | hx
    · exact .inr ⟨h.le, Nat.lt_succ_self _⟩
    · exact (h.later (Nat.le_succ _)).origin x hx

/-- A part grows between parts that stay. -/
theorem Grown.around (h : Grown used used' foot foot') {before after : List Nat}
    (hnodup : (before ++ foot ++ after).Nodup) (hbound : ∀ x ∈ before ++ foot ++ after, x < used) :
    Grown used used' (before ++ foot ++ after) (before ++ foot' ++ after) := by
  have hfresh : ∀ x ∈ before ++ foot ++ after, ¬ used ≤ x := fun x hx =>
    Nat.not_le.mpr (hbound x hx)
  refine ⟨h.le, ?_, ?_⟩
  · rw [List.append_assoc, List.nodup_append, List.nodup_append] at hnodup ⊢
    obtain ⟨hbefore, ⟨-, hafter, hright⟩, hleft⟩ := hnodup
    refine ⟨hbefore, ⟨h.nodup, hafter, ?_⟩, ?_⟩
    · intro x hx y hy
      rcases h.origin x hx with hold | hnew
      · exact hright x hold y hy
      · rintro rfl
        exact hfresh x (by simp [hy]) hnew.1
    · intro x hx y hy
      rcases List.mem_append.mp hy with hy | hy
      · rcases h.origin y hy with hold | hnew
        · exact hleft x hx y (List.mem_append_left _ hold)
        · rintro rfl
          exact hfresh x (by simp [hx]) hnew.1
      · exact hleft x hx y (List.mem_append_right _ hy)
  · intro x hx
    simp only [List.mem_append] at hx ⊢
    rcases hx with (hx | hx) | hx
    · exact .inl (.inl (.inl hx))
    · rcases h.origin x hx with hold | hnew
      · exact .inl (.inl (.inr hold))
      · exact .inr hnew
    · exact .inl (.inr hx)

end DbApi.Library
