import DbApi.Library.SortedMap

namespace DbApi.Library.Separators

variable {κ ν : Type} [LinearOrder κ]

/-- `none` is the missing bound on either side. -/
def Above (lo : Option κ) (k : κ) : Prop := ∀ l ∈ lo, l ≤ k

def Past (lo : Option κ) (k : κ) : Prop := ∀ l ∈ lo, l < k

def Below (hi : Option κ) (k : κ) : Prop := ∀ h ∈ hi, k < h

@[simp] theorem above_none (k : κ) : Above none k := by simp [Above]
@[simp] theorem past_none (k : κ) : Past none k := by simp [Past]
@[simp] theorem below_none (k : κ) : Below none k := by simp [Below]
@[simp] theorem above_some (l k : κ) : Above (some l) k ↔ l ≤ k := by simp [Above]
@[simp] theorem past_some (l k : κ) : Past (some l) k ↔ l < k := by simp [Past]
@[simp] theorem below_some (h k : κ) : Below (some h) k ↔ k < h := by simp [Below]

theorem Past.of_above {lo : Option κ} {j k : κ} (h : Above lo j) (hjk : j < k) : Past lo k :=
  fun l hl => (h l hl).trans_lt hjk

theorem Past.trans {lo : Option κ} {j k : κ} (h : Past lo j) (hjk : j < k) : Past lo k :=
  fun l hl => (h l hl).trans hjk

theorem Past.trans_le {lo : Option κ} {j k : κ} (h : Past lo j) (hjk : j ≤ k) : Past lo k :=
  fun l hl => (h l hl).trans_le hjk

theorem Past.above {lo : Option κ} {k : κ} (h : Past lo k) : Above lo k :=
  fun l hl => (h l hl).le

theorem Below.trans {hi : Option κ} {j k : κ} (h : Below hi k) (hjk : j < k) : Below hi j :=
  fun l hl => hjk.trans (h l hl)

theorem Below.of_le {hi : Option κ} {j k : κ} (h : Below hi k) (hjk : j ≤ k) : Below hi j :=
  fun l hl => hjk.trans_lt (h l hl)

/-- Children with strictly increasing separators between them; `P` gets the
half-open interval each child must stay in. -/
inductive Between (P : Option κ → Option κ → ν → Prop) :
    Option κ → List κ → List ν → Option κ → Prop
  | last {lo hi : Option κ} {c : ν} (child : P lo hi c) : Between P lo [] [c] hi
  | cons {lo hi : Option κ} {k : κ} {c : ν} {ks : List κ} {cs : List ν}
      (past : Past lo k) (below : Below hi k) (child : P lo (some k) c)
      (rest : Between P (some k) ks cs hi) : Between P lo (k :: ks) (c :: cs) hi

namespace Between

variable {P Q : Option κ → Option κ → ν → Prop} {lo hi : Option κ} {ks : List κ} {cs : List ν}

theorem length (h : Between P lo ks cs hi) : cs.length = ks.length + 1 := by
  induction h with
  | last _ => rfl
  | cons _ _ _ _ ih => simp [ih]

theorem bounds (h : Between P lo ks cs hi) : ∀ k ∈ ks, Past lo k ∧ Below hi k := by
  induction h with
  | last _ => simp
  | cons past below _ _ ih =>
    intro j hj
    rcases List.mem_cons.mp hj with rfl | hj
    · exact ⟨past, below⟩
    · exact ⟨past.trans (by simpa using (ih j hj).1), (ih j hj).2⟩

/-- Separators of one node increase strictly. -/
theorem sorted (h : Between P lo ks cs hi) : ks.Pairwise (· < ·) := by
  induction h with
  | last _ => exact .nil
  | cons _ _ _ rest ih =>
    exact .cons (fun j hj => by simpa using (rest.bounds j hj).1) ih

theorem child (h : Between P lo ks cs hi) : ∀ c ∈ cs, ∃ a b, P a b c := by
  induction h with
  | last child =>
    intro c hc
    obtain rfl := List.mem_singleton.mp hc
    exact ⟨_, _, child⟩
  | cons _ _ child _ ih =>
    intro c hc
    rcases List.mem_cons.mp hc with rfl | hc
    · exact ⟨_, _, child⟩
    · exact ih c hc

/-- The last child may as well have no bound above. -/
theorem widen (h : Between P lo ks cs hi) (hp : ∀ a c, P a hi c → P a none c) :
    Between P lo ks cs none := by
  induction h with
  | last child => exact .last (hp _ _ child)
  | cons past _ child _ ih => exact .cons past (below_none _) child (ih hp)

/-- Two runs of children around one separator. -/
theorem append {m : κ} {ks' : List κ} {cs' : List ν}
    (h : Between P lo ks cs (some m)) (h' : Between P (some m) ks' cs' hi)
    (past : Past lo m) (below : Below hi m) :
    Between P lo (ks ++ m :: ks') (cs ++ cs') hi := by
  generalize he : some m = top at h
  induction h with
  | last child =>
    subst he
    exact .cons past below child h'
  | cons hp hb child rest ih =>
    subst he
    have hkm := by simpa using hb
    exact .cons hp (below.trans hkm) child (ih (by simpa using hkm) rfl)

/-- The inverse of `append`: a middle separator cuts the node in two. -/
theorem cut {m : κ} {ks' : List κ} {cs' : List ν}
    (h : Between P lo (ks ++ m :: ks') (cs ++ cs') hi) (hl : cs.length = ks.length + 1) :
    Between P lo ks cs (some m) ∧ Between P (some m) ks' cs' hi := by
  induction ks generalizing lo cs with
  | nil =>
    obtain ⟨c, rfl⟩ : ∃ c, cs = [c] := by
      match cs, hl with
      | [c], _ => exact ⟨c, rfl⟩
    cases h with
    | cons _ _ child rest => exact ⟨.last child, rest⟩
  | cons k ks ih =>
    match cs, hl with
    | c :: cs, hl =>
      have hm := (h.bounds m (by simp)).2
      cases h with
      | cons past below child rest =>
        obtain ⟨ha, hb⟩ := ih rest (by simpa using hl)
        have hkm := (rest.bounds m (by simp)).1
        exact ⟨.cons past (by simpa using hkm) child ha, hb⟩

/-- Every child of a run starting at `s` lies at or above `s`. -/
theorem child_after {s k : κ} (h : Between P (some s) ks cs hi) (hk : k < s) :
    ∀ c ∈ cs, ∃ a b, P (some a) b c ∧ k < a := by
  generalize he : some s = low at h
  induction h generalizing s with
  | last child =>
    subst he
    intro c hc
    obtain rfl := List.mem_singleton.mp hc
    exact ⟨s, _, child, hk⟩
  | cons past _ child _ ih =>
    subst he
    intro d hd
    rcases List.mem_cons.mp hd with rfl | hd
    · exact ⟨s, _, child, hk⟩
    · exact ih (hk.trans (by simpa using past)) rfl d hd

theorem each (h : Between P lo ks cs hi) : ∀ c ∈ cs, ∃ a b, P a b c := by
  induction h with
  | last child =>
    intro d hd
    obtain rfl := List.mem_singleton.mp hd
    exact ⟨_, _, child⟩
  | cons _ _ child _ ih =>
    intro d hd
    rcases List.mem_cons.mp hd with rfl | hd
    · exact ⟨_, _, child⟩
    · exact ih d hd

/-- What the children hold, read from left to right, is sorted and in bounds
when that is so of each child. -/
theorem contents {α : Type} (f : ν → List (κ × α))
    (hf : ∀ a b c, P a b c → SortedMap.Sorted (f c) ∧ ∀ e ∈ f c, Above a e.1 ∧ Below b e.1)
    (h : Between P lo ks cs hi) : SortedMap.Sorted (cs.flatMap f) ∧
      ∀ e ∈ cs.flatMap f, Above lo e.1 ∧ Below hi e.1 := by
  induction h with
  | last child => simpa using hf _ _ _ child
  | cons past below child _ ih =>
    obtain ⟨hs, hb⟩ := hf _ _ _ child
    rw [List.flatMap_cons]
    refine ⟨hs.append ih.1 ?_, ?_⟩
    · intro x hx y hy
      have hk := (hb x hx).2
      have hk' := (ih.2 y hy).1
      exact lt_of_lt_of_le (by simpa using hk) (by simpa using hk')
    · intro e he
      rcases List.mem_append.mp he with he | he
      · have hk := (hb e he).2
        exact ⟨(hb e he).1, below.trans (by simpa using hk)⟩
      · have hk := (ih.2 e he).1
        exact ⟨(past.trans_le (by simpa using hk)).above, (ih.2 e he).2⟩

end Between

/-- How many separators a key has passed. -/
def rank (ks : List κ) (k : κ) : Nat := (ks.takeWhile (· ≤ k)).length

@[simp] theorem rank_nil (k : κ) : rank [] k = 0 := rfl

theorem rank_cons (s : κ) (ks : List κ) (k : κ) :
    rank (s :: ks) k = if s ≤ k then rank ks k + 1 else 0 := by
  by_cases h : s ≤ k <;> simp [rank, h]

/-- The child a key is routed to, with everything around it: what lies before
is smaller, what lies behind is larger, and any run of children over the same
interval may take the child's place. -/
structure Route (P : Option κ → Option κ → ν → Prop) (lo : Option κ) (ks : List κ)
    (cs : List ν) (hi : Option κ) (k : κ) where
  keysBefore : List κ
  keysAfter : List κ
  before : List ν
  child : ν
  after : List ν
  low : Option κ
  high : Option κ
  keys_eq : ks = keysBefore ++ keysAfter
  children_eq : cs = before ++ child :: after
  rank_before : before.length = rank ks k
  rank_keys : keysBefore.length = rank ks k
  holds : P low high child
  above : Above low k
  below : Below high k
  smaller : ∀ c ∈ before, ∃ a b, P a (some b) c ∧ b ≤ k
  larger : ∀ c ∈ after, ∃ a b, P (some a) b c ∧ k < a
  refill : ∀ js ds, Between P low js ds high →
    Between P lo (keysBefore ++ js ++ keysAfter) (before ++ ds ++ after) hi

theorem Route.child_mem {P : Option κ → Option κ → ν → Prop} {lo hi : Option κ} {ks : List κ}
    {cs : List ν} {k : κ} (r : Route P lo ks cs hi k) : r.child ∈ cs :=
  (congrArg (r.child ∈ ·) r.children_eq).mpr (by simp)

theorem Between.route {P : Option κ → Option κ → ν → Prop} {lo hi : Option κ} {ks : List κ}
    {cs : List ν} {k : κ} (h : Between P lo ks cs hi) (hlo : Above lo k) (hhi : Below hi k) :
    Nonempty (Route P lo ks cs hi k) := by
  induction h with
  | @last lo hi c child =>
    exact ⟨{ keysBefore := [], keysAfter := [], before := [], child := c, after := [],
             low := lo, high := hi, keys_eq := rfl, children_eq := rfl, rank_before := rfl,
             rank_keys := rfl, holds := child, above := hlo, below := hhi,
             smaller := by simp, larger := by simp, refill := by simp }⟩
  | @cons lo hi s c ks cs past below child rest ih =>
    by_cases hsk : s ≤ k
    · obtain ⟨r⟩ := ih (by simpa using hsk) hhi
      refine ⟨{ keysBefore := s :: r.keysBefore, keysAfter := r.keysAfter,
                before := c :: r.before, child := r.child, after := r.after,
                low := r.low, high := r.high, keys_eq := by simp [r.keys_eq.symm],
                children_eq := by simp [r.children_eq.symm],
                rank_before := by simp [rank_cons, hsk, r.rank_before],
                rank_keys := by simp [rank_cons, hsk, r.rank_keys],
                holds := r.holds, above := r.above, below := r.below,
                smaller := ?_, larger := r.larger, refill := ?_ }⟩
      · intro d hd
        rcases List.mem_cons.mp hd with rfl | hd
        · exact ⟨lo, s, child, hsk⟩
        · exact r.smaller d hd
      · intro js ds hj
        exact .cons past below child (r.refill js ds hj)
    · have hks : k < s := not_le.mp hsk
      have hrank : rank (s :: ks) k = 0 := by simp [rank_cons, hsk]
      refine ⟨{ keysBefore := [], keysAfter := s :: ks, before := [], child := c, after := cs,
                low := lo, high := some s, keys_eq := rfl, children_eq := rfl,
                rank_before := hrank.symm, rank_keys := hrank.symm, holds := child,
                above := hlo, below := by simpa using hks,
                smaller := by simp, larger := ?_, refill := ?_ }⟩
      · intro d hd
        exact rest.child_after hks d hd
      · intro js ds hj
        simpa using hj.append rest past below

end DbApi.Library.Separators
