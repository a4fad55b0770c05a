import DbApi.Runtime.RuntimeConfig

namespace DbApi.Proofs.RepoRoot
open Library DbApi.Runtime

def separatorAt (path : Bytes) (n : Nat) : Bool := path[n]?.any isSeparator

/-- The first `n` bytes name a proper ancestor of the directory `path`: its root,
or what is before a run of separators. -/
def isAncestorAt (path : Bytes) (n : Nat) : Prop :=
  n = 1 ∧ separatorAt path 0 = true ∨
    0 < n ∧ separatorAt path (n - 1) = false ∧ separatorAt path n = true

instance (path : Bytes) (n : Nat) : Decidable (isAncestorAt path n) := by
  unfold isAncestorAt
  infer_instance

/-- The ancestors with names shorter than `n`, the nearest first. -/
def ancestorsBelow (path : Bytes) : Nat → List Bytes
  | 0 => []
  | n + 1 =>
    if isAncestorAt path n then path.take n :: ancestorsBelow path n else ancestorsBelow path n

def properAncestors (path : Bytes) : List Bytes :=
  let name := path.rdropWhile isSeparator
  ancestorsBelow name name.length

/-- The start directory and its proper ancestors, the nearest first. -/
def directoriesOf (startPath : Bytes) : List Bytes :=
  if startPath = [] then []
  else trimTrailingSeparators startPath :: properAncestors startPath

/-- The search ends, and it tested the start directory and then each ancestor up to
the first repository root, which it returns. -/
def FindsNearest (files : FileSystem) (startPath : Bytes) : Prop :=
  ∃ rounds, findRepoRootFromStart files rounds startPath =
    some (Search.through (isRepoRoot files) (directoriesOf startPath))

section Ancestors

variable {path : Bytes}

theorem ancestorsBelow_skip {m k : Nat} (hmk : m ≤ k)
    (h : ∀ n, m ≤ n → n < k → ¬ isAncestorAt path n) :
    ancestorsBelow path k = ancestorsBelow path m := by
  induction k with
  | zero => rw [Nat.le_zero.mp hmk]
  | succ k ih =>
    rcases hmk.lt_or_eq with hlt | rfl
    · rw [ancestorsBelow, if_neg (h k (by omega) (by omega))]
      exact ih (by omega) fun n hm hk => h n hm (by omega)
    · rfl

theorem isAncestorAt_take {m n : Nat} (hn : n < m) :
    isAncestorAt (path.take m) n ↔ isAncestorAt path n := by
  have hget : ∀ i, i < m → separatorAt (path.take m) i = separatorAt path i := by
    intro i hi
    rw [separatorAt, separatorAt, List.getElem?_take_of_lt hi]
  unfold isAncestorAt
  rw [hget 0 (by omega), hget (n - 1) (by omega), hget n hn]

theorem ancestorsBelow_take {m k : Nat} (hk : k ≤ m) :
    ancestorsBelow (path.take m) k = ancestorsBelow path k := by
  induction k with
  | zero => rfl
  | succ k ih =>
    simp only [ancestorsBelow, isAncestorAt_take (show k < m from hk), ih (by omega),
      List.take_take, Nat.min_eq_left (show k ≤ m by omega)]

theorem no_ancestorsBelow {k : Nat} (h : ∀ n < k, ¬ isAncestorAt path n) :
    ancestorsBelow path k = [] :=
  ancestorsBelow_skip (Nat.zero_le k) fun n _ hk => h n hk

theorem mem_ancestorsBelow {k : Nat} {directory : Bytes}
    (h : directory ∈ ancestorsBelow path k) :
    ∃ n < k, isAncestorAt path n ∧ directory = path.take n := by
  induction k with
  | zero => exact absurd h List.not_mem_nil
  | succ k ih =>
    rw [ancestorsBelow] at h
    split at h
    · rename_i hname
      rcases List.mem_cons.mp h with rfl | h
      · exact ⟨k, Nat.lt_succ_self k, hname, rfl⟩
      · obtain ⟨n, hn, hrest⟩ := ih h
        exact ⟨n, by omega, hrest⟩
    · obtain ⟨n, hn, hrest⟩ := ih h
      exact ⟨n, by omega, hrest⟩

end Ancestors

section Trimming

variable {path : Bytes}

theorem ends_iff : endsWithSeparator path = true ↔
    ∃ front value, path = front ++ [value] ∧ isSeparator value = true := by
  unfold endsWithSeparator
  rw [Option.any_eq_true]
  constructor
  · rintro ⟨value, hlast, hvalue⟩
    obtain ⟨front, rfl⟩ := List.getLast?_eq_some_iff.mp hlast
    exact ⟨front, value, rfl, hvalue⟩
  · rintro ⟨front, value, rfl, hvalue⟩
    exact ⟨value, by simp, hvalue⟩

theorem rdrop_dropLast (h : endsWithSeparator path = true) :
    path.dropLast.rdropWhile isSeparator = path.rdropWhile isSeparator := by
  obtain ⟨front, value, rfl, hvalue⟩ := ends_iff.mp h
  rw [List.dropLast_concat, List.rdropWhile_concat_pos _ _ _ hvalue]

theorem single_of_ends (hlength : ¬ 1 < path.length) (h : endsWithSeparator path = true) :
    ∃ value, path = [value] ∧ isSeparator value = true := by
  obtain ⟨front, value, rfl, hvalue⟩ := ends_iff.mp h
  cases front with
  | nil => exact ⟨value, rfl, hvalue⟩
  | cons b front =>
    simp only [List.cons_append, List.length_cons, List.length_append] at hlength
    omega

/-- A drive root: one byte, a colon and a separator. -/
def DriveRoot (path : Bytes) : Prop :=
  path.length = 3 ∧ path[1]? = some colon ∧ endsWithSeparator path = true

/-- A trimmed path ends with a separator only when it is a root. -/
theorem trim_cases (hne : path ≠ []) :
    trimTrailingSeparators path ≠ [] ∧ (trimTrailingSeparators path <+: path) ∧
      (trimTrailingSeparators path).rdropWhile isSeparator = path.rdropWhile isSeparator ∧
      (endsWithSeparator (trimTrailingSeparators path) = false ∨
        (∃ value, trimTrailingSeparators path = [value] ∧ isSeparator value = true) ∨
        DriveRoot (trimTrailingSeparators path)) := by
  fun_induction trimTrailingSeparators path with
  | case1 path hends hdrive =>
    exact ⟨hne, List.prefix_refl path, rfl, .inr (.inr ⟨hdrive.1, hdrive.2, hends.2⟩)⟩
  | case2 path hends hdrive ih =>
    have hdrop : path.dropLast ≠ [] := by
      apply List.ne_nil_of_length_pos
      rw [List.length_dropLast]
      omega
    obtain ⟨hne', hfront, hname, hrest⟩ := ih hdrop
    exact ⟨hne', hfront.trans (List.dropLast_prefix path), hname.trans (rdrop_dropLast hends.2),
      hrest⟩
  | case3 path hends =>
    refine ⟨hne, List.prefix_refl path, rfl, ?_⟩
    cases hlast : endsWithSeparator path with
    | false => exact .inl rfl
    | true => exact .inr (.inl (single_of_ends (fun h => hends ⟨h, hlast⟩) hlast))

theorem trim_eq_self (h : endsWithSeparator path = false) : trimTrailingSeparators path = path := by
  rw [trimTrailingSeparators, if_neg (by simp [h])]

/-- What is left of the separators: the name before them, or the root. -/
theorem shorten_eq (hne : path ≠ []) : shortenSeparators path =
    if path.rdropWhile isSeparator = [] then path.take 1 else path.rdropWhile isSeparator := by
  fun_induction shortenSeparators path with
  | case1 path hends ih =>
    have hdrop : path.dropLast ≠ [] := by
      apply List.ne_nil_of_length_pos
      rw [List.length_dropLast]
      omega
    rw [ih hdrop, rdrop_dropLast hends.2, List.dropLast_eq_take, List.take_take,
      Nat.min_eq_left (by omega)]
  | case2 path hends =>
    cases hlast : endsWithSeparator path with
    | false =>
      have hself : path.rdropWhile isSeparator = path := by
        apply List.rdropWhile_eq_self_iff.mpr
        intro hne
        simpa [endsWithSeparator, List.getLast?_eq_some_getLast hne] using hlast
      rw [hself, if_neg hne]
    | true =>
      obtain ⟨value, rfl, hvalue⟩ := single_of_ends (fun h => hends ⟨h, hlast⟩) hlast
      have hnil : [value].rdropWhile isSeparator = [] := by
        apply List.rdropWhile_eq_nil_iff.mpr
        simpa using hvalue
      rw [if_pos hnil]
      rfl

end Trimming

section Parents

variable {path : Bytes}

theorem separatorAt_mid {front middle back : Bytes} {answer : Bool}
    (hm : ∀ value ∈ middle, isSeparator value = answer) {n : Nat} (hn : front.length ≤ n)
    (hlt : n < front.length + middle.length) :
    separatorAt (front ++ middle ++ back) n = answer := by
  have hget : (front ++ middle ++ back)[n]? = some middle[n - front.length] := by
    rw [List.getElem?_append_left (by simp; omega), List.getElem?_append_right hn,
      List.getElem?_eq_getElem (by omega)]
  rw [separatorAt, hget]
  exact hm _ (List.getElem_mem _)

theorem ends_last (hne : path ≠ []) :
    endsWithSeparator path = isSeparator (path.getLast hne) := by
  simp [endsWithSeparator, List.getLast?_eq_some_getLast hne]

theorem ends_rdrop (path : Bytes) : endsWithSeparator (path.rdropWhile isSeparator) = false := by
  by_cases hne : path.rdropWhile isSeparator = []
  · rw [hne]
    rfl
  · rw [ends_last hne]
    simpa using List.rdropWhile_last_not isSeparator path hne

/-- A path that does not end with a separator: its last component, the separators
before it, and the name before these. -/
structure Split (path name separators component : Bytes) : Prop where
  eq : path = name ++ separators ++ component
  front : path.rdropWhile (fun value => !isSeparator value) = name ++ separators
  rdrop : (name ++ separators).rdropWhile isSeparator = name
  separate : ∀ value ∈ separators, isSeparator value = true
  plain : ∀ value ∈ component, isSeparator value = false
  component_ne : component ≠ []
  name_nil : separators = [] → name = []
  name_end : endsWithSeparator name = false

theorem split_path (hne : path ≠ []) (hend : endsWithSeparator path = false) :
    ∃ name separators component, Split path name separators component := by
  obtain ⟨front, hfront⟩ : ∃ front, front = path.rdropWhile fun value => !isSeparator value :=
    ⟨_, rfl⟩
  have hpath : front ++ path.rtakeWhile (fun value => !isSeparator value) = path := by
    rw [hfront]
    exact List.rdropWhile_append_rtakeWhile
  have hsplit : front.rdropWhile isSeparator ++ front.rtakeWhile isSeparator = front :=
    List.rdropWhile_append_rtakeWhile
  refine ⟨front.rdropWhile isSeparator, front.rtakeWhile isSeparator,
    path.rtakeWhile fun value => !isSeparator value, ?_⟩
  constructor
  · rw [hsplit, hpath]
  · rw [hsplit, hfront]
  · rw [hsplit]
  · exact fun value hv => List.mem_rtakeWhile_imp hv
  · exact fun value hv => by simpa using List.mem_rtakeWhile_imp hv
  · intro hnil
    have hlast := (List.rtakeWhile_eq_nil_iff.mp hnil) hne
    rw [ends_last hne] at hend
    simp [hend] at hlast
  · intro hnil
    by_contra hname
    have hfront_ne : front ≠ [] := by
      rintro rfl
      exact hname rfl
    have hlast := (List.rtakeWhile_eq_nil_iff.mp hnil) hfront_ne
    subst hfront
    have := List.rdropWhile_last_not (fun value => !isSeparator value) path hfront_ne
    simp [hlast] at this
  · exact ends_rdrop front

variable {name separators component : Bytes}

theorem Split.shorten (h : Split path name separators component) (hne : separators ≠ []) :
    shortenSeparators (name ++ separators) = if name = [] then separators.take 1 else name := by
  rw [shorten_eq (by simp [hne]), h.rdrop]
  by_cases hname : name = []
  · rw [if_pos hname, if_pos hname, hname, List.nil_append]
  · rw [if_neg hname, if_neg hname]

theorem Split.not_ancestor (h : Split path name separators component) {n : Nat}
    (hn : (name ++ separators).length < n) (hlt : n < path.length) : ¬ isAncestorAt path n := by
  rintro (⟨rfl, hroot⟩ | ⟨-, -, hat⟩)
  · have hnil : name = [] ∧ separators = [] := by
      rw [List.length_append] at hn
      exact ⟨List.eq_nil_of_length_eq_zero (by omega), List.eq_nil_of_length_eq_zero (by omega)⟩
    rw [h.eq, hnil.1, hnil.2] at hroot
    have hfirst := @separatorAt_mid [] component [] false h.plain 0 (Nat.le_refl 0)
      (by simpa using List.length_pos_of_ne_nil h.component_ne)
    rw [List.append_nil] at hfirst
    rw [List.append_nil, hfirst] at hroot
    cases hroot
  · have hcomponent := @separatorAt_mid (name ++ separators) component [] false h.plain n hn.le
      (by rwa [h.eq, List.length_append] at hlt)
    rw [List.append_nil, ← h.eq, hat] at hcomponent
    cases hcomponent

/-- Among the separators only the root is an ancestor. -/
theorem Split.not_between (h : Split path name separators component) {n : Nat}
    (hn : name.length < n) (hle : n ≤ (name ++ separators).length) (hone : n ≠ 1) :
    ¬ isAncestorAt path n := by
  rintro (⟨rfl, -⟩ | ⟨-, hbefore, -⟩)
  · exact hone rfl
  · have hmid := @separatorAt_mid name separators component true h.separate (n - 1) (by omega)
      (by rw [List.length_append] at hle; omega)
    rw [← h.eq, hbefore] at hmid
    cases hmid

theorem Split.at_name (h : Split path name separators component) (hname : name ≠ [])
    (hne : separators ≠ []) : isAncestorAt path name.length := by
  refine .inr ⟨List.length_pos_of_ne_nil hname, ?_, ?_⟩
  · have hlast := h.name_end
    rw [ends_last hname] at hlast
    have hget : path[name.length - 1]? = some (name.getLast hname) := by
      have := List.length_pos_of_ne_nil hname
      rw [h.eq, List.append_assoc, List.getElem?_append_left (by omega), ← List.getLast?_eq_getElem?,
        List.getLast?_eq_some_getLast hname]
    rw [separatorAt, hget]
    exact hlast
  · rw [h.eq]
    apply separatorAt_mid h.separate (Nat.le_refl _)
    have := List.length_pos_of_ne_nil hne
    omega

theorem proper_eq (hend : endsWithSeparator path = false) :
    properAncestors path = ancestorsBelow path path.length := by
  have hself : path.rdropWhile isSeparator = path := by
    apply List.rdropWhile_eq_self_iff.mpr
    intro hne
    rw [ends_last hne] at hend
    simp [hend]
  rw [properAncestors, hself]

theorem root_ancestors {value : UInt8} (hvalue : isSeparator value = true) :
    properAncestors [value] = [] := by
  have hnil : [value].rdropWhile isSeparator = [] := by
    apply List.rdropWhile_eq_nil_iff.mpr
    simpa using hvalue
  rw [properAncestors, hnil]
  rfl

/-- The ancestors are the parent and its ancestors. -/
theorem Split.ancestors (h : Split path name separators component) (hne : separators ≠ [])
    (hend : endsWithSeparator path = false) :
    properAncestors path = shortenSeparators (name ++ separators) ::
      properAncestors (shortenSeparators (name ++ separators)) := by
  have hlength : (name ++ separators).length < path.length := by
    have hcomponent := List.length_pos_of_ne_nil h.component_ne
    have hsum : path.length = (name ++ separators).length + component.length := by
      rw [h.eq, List.length_append]
    omega
  have hpos := List.length_pos_of_ne_nil hne
  rw [proper_eq hend, h.shorten hne]
  by_cases hname : name = []
  · rw [if_pos hname]
    obtain ⟨value, rest, hvalue⟩ := List.exists_cons_of_ne_nil hne
    have hsep : isSeparator value = true := h.separate value (by simp [hvalue])
    have hskip : ancestorsBelow path path.length = ancestorsBelow path 2 := by
      apply ancestorsBelow_skip
      · rw [List.length_append] at hlength
        omega
      · intro n hn hlt
        rcases Nat.lt_or_ge (name ++ separators).length n with hbig | hsmall
        · exact h.not_ancestor hbig hlt
        · refine h.not_between ?_ hsmall (by omega)
          rw [hname, List.length_nil]
          omega
    have hfirst : separatorAt path 0 = true := by
      rw [h.eq, hname]
      exact separatorAt_mid h.separate (Nat.le_refl 0) (by simpa using hpos)
    have hzero : ¬ isAncestorAt path 0 := by
      rintro (⟨h, -⟩ | ⟨h, -⟩) <;> omega
    have htake : path.take 1 = [value] := by
      rw [h.eq, hname, hvalue]
      rfl
    rw [hskip, ancestorsBelow, if_pos (.inl ⟨rfl, hfirst⟩), ancestorsBelow, if_neg hzero, htake,
      hvalue]
    change [value] :: [] = [value] :: properAncestors [value]
    rw [root_ancestors hsep]
  · rw [if_neg hname]
    have hskip : ancestorsBelow path path.length = ancestorsBelow path (name.length + 1) := by
      apply ancestorsBelow_skip
      · rw [List.length_append] at hlength
        omega
      · intro n hn hlt
        rcases Nat.lt_or_ge (name ++ separators).length n with hbig | hsmall
        · exact h.not_ancestor hbig hlt
        · have := List.length_pos_of_ne_nil hname
          exact h.not_between (by omega) hsmall (by omega)
    have htake : path.take name.length = name := by
      rw [h.eq, List.append_assoc, List.take_left]
    rw [hskip, ancestorsBelow, if_pos (h.at_name hname hne), htake, proper_eq h.name_end]
    have := @ancestorsBelow_take path name.length name.length (Nat.le_refl _)
    rw [← this, htake]

end Parents

section Walk

variable {path name separators component : Bytes}

theorem Split.next (h : Split path name separators component)
    (hend : endsWithSeparator path = false) :
    nextDirectory path =
      if separators = [] ∨ ((name ++ separators).length = 3 ∧ path[1]? = some colon) then none
      else some (shortenSeparators (name ++ separators)) := by
  have hne : path ≠ [] := by
    rw [h.eq]
    simp [h.component_ne]
  have hparent : parentDirectory path =
      if name ++ separators = [] then (false, path)
      else if (name ++ separators).length = 3 ∧ path[1]? = some colon then
        (false, name ++ separators)
      else (true, shortenSeparators (name ++ separators)) := by
    rw [parentDirectory, if_neg hne, trim_eq_self hend]
    dsimp only
    rw [h.front]
  have hnil : name ++ separators = [] ↔ separators = [] := by
    rw [List.append_eq_nil_iff]
    exact ⟨And.right, fun hs => ⟨h.name_nil hs, hs⟩⟩
  rw [nextDirectory, hparent]
  by_cases hs : separators = []
  · rw [if_pos (hnil.mpr hs), if_pos (.inl hs)]
  · rw [if_neg (hnil.not.mpr hs)]
    by_cases hdrive : (name ++ separators).length = 3 ∧ path[1]? = some colon
    · rw [if_pos hdrive, if_pos (.inr hdrive)]
    · rw [if_neg hdrive, if_neg (by simp only [hs, hdrive, or_self, not_false_eq_true])]
      dsimp only
      rw [if_neg]
      rw [h.shorten hs]
      split
      · simp [List.take_eq_nil_iff, hs]
      · assumption

/-- A path that starts like a drive root, behind which comes a component or
nothing. -/
def DriveStart (path : Bytes) : Prop :=
  path[1]? = some colon ∧ separatorAt path 2 = true ∧ separatorAt path 3 = false

/-- The walk gets to a repository root, or it goes through all of the relative path
`path`: of a path that starts like a drive, it does not get to what is shorter. -/
def Reaches (files : FileSystem) (path : Bytes) : Prop :=
  (∃ directory ∈ path :: properAncestors path, isRepoRoot files directory = true ∧
    (DriveStart path → 3 ≤ directory.length)) ∨
  (separatorAt path 0 = false ∧ (DriveStart path → path.length = 3))

theorem drive_length (h : DriveStart path) : 3 ≤ path.length := by
  have := h.2.1
  by_contra hshort
  rw [separatorAt, List.getElem?_eq_none (by omega)] at this
  cases this

/-- What the walk goes on with is the front of a longer path. -/
theorem Split.parent (h : Split path name separators component) (hne : separators ≠ []) :
    ∃ rest, path = shortenSeparators (name ++ separators) ++ rest ∧ rest ≠ [] ∧
      shortenSeparators (name ++ separators) ≠ [] := by
  rw [h.shorten hne, h.eq]
  by_cases hname : name = []
  · rw [if_pos hname]
    refine ⟨separators.drop 1 ++ component, ?_, by simp [h.component_ne], by simp [hne]⟩
    rw [hname, List.nil_append, ← List.append_assoc, List.take_append_drop]
  · rw [if_neg hname]
    exact ⟨separators ++ component, List.append_assoc _ _ _, by simp [hne], hname⟩

theorem separatorAt_front {front rest : Bytes} {n : Nat} (hn : n < front.length) :
    separatorAt (front ++ rest) n = separatorAt front n := by
  rw [separatorAt, separatorAt, List.getElem?_append_left hn]

theorem drive_long (h : DriveStart path) (hend : endsWithSeparator path = false) :
    3 < path.length := by
  have hlength := drive_length h
  by_contra hshort
  have hne : path ≠ [] := List.ne_nil_of_length_pos (by omega)
  have hlast := h.2.1
  rw [separatorAt, show 2 = path.length - 1 by omega, ← List.getLast?_eq_getElem?] at hlast
  rw [endsWithSeparator, hlast] at hend
  cases hend

theorem drive_front {front rest : Bytes} (hlength : 3 < front.length) :
    DriveStart (front ++ rest) ↔ DriveStart front := by
  rw [DriveStart, DriveStart, List.getElem?_append_left (by omega), separatorAt_front (by omega),
    separatorAt_front (by omega)]

theorem colon_plain : isSeparator colon = false := rfl

theorem separatorAt_colon (h : path[1]? = some colon) : separatorAt path 1 = false := by
  rw [separatorAt, h]
  rfl

/-- The colon of a drive is in the name, and its separator too if the parent is
not the drive root. -/
theorem Split.name_drive (h : Split path name separators component) (hs : separators ≠ [])
    (hroot : ¬ ((name ++ separators).length = 3 ∧ path[1]? = some colon))
    (hdrive : DriveStart path) : 3 < name.length := by
  have hcolon := separatorAt_colon hdrive.1
  have hpos := List.length_pos_of_ne_nil hs
  have hlong : ¬ (name ++ separators).length ≤ 2 := by
    intro hle
    have hplain := @separatorAt_mid (name ++ separators) component [] false h.plain 2 hle (by
      have := drive_length hdrive
      rw [h.eq, List.length_append] at this
      omega)
    rw [List.append_nil, ← h.eq, hdrive.2.1] at hplain
    cases hplain
  have hsep : ∀ n, name.length ≤ n → n < (name ++ separators).length →
      separatorAt path n = true := by
    intro n hn hlt
    rw [h.eq]
    exact separatorAt_mid h.separate hn (by rwa [List.length_append] at hlt)
  by_contra hshort
  have hname : name.length ≠ 0 ∧ name.length ≠ 1 := by
    constructor
    · intro hzero
      have := hsep 1 (by omega) (by omega)
      rw [hcolon] at this
      cases this
    · intro hone
      have := hsep 1 (by omega) (by omega)
      rw [hcolon] at this
      cases this
  have htwo : name.length ≠ 2 := by
    intro htwo
    have hthree : (name ++ separators).length ≠ 3 := fun h3 => hroot ⟨h3, hdrive.1⟩
    have := hsep 3 (by omega) (by omega)
    rw [hdrive.2.2] at this
    cases this
  have hthree : name.length = 3 := by omega
  have hne : name ≠ [] := List.ne_nil_of_length_pos (by omega)
  have hlast := h.name_end
  have hget := hdrive.2.1
  rw [h.eq, List.append_assoc, separatorAt_front (by omega), separatorAt,
    show 2 = name.length - 1 by omega, ← List.getLast?_eq_getElem?] at hget
  rw [endsWithSeparator, hget] at hlast
  cases hlast

/-- The parent starts like a drive exactly when the path does. -/
theorem Split.drive_iff (h : Split path name separators component) (hs : separators ≠ [])
    (hroot : ¬ ((name ++ separators).length = 3 ∧ path[1]? = some colon)) :
    DriveStart path ↔ DriveStart (shortenSeparators (name ++ separators)) := by
  rw [h.shorten hs]
  constructor
  · intro hdrive
    have hlength := h.name_drive hs hroot hdrive
    rw [if_neg (List.ne_nil_of_length_pos (by omega))]
    rw [h.eq, List.append_assoc] at hdrive
    exact (drive_front hlength).mp hdrive
  · intro hdrive
    have hlength := drive_length hdrive
    by_cases hname : name = []
    · rw [if_pos hname, List.length_take] at hlength
      omega
    · rw [if_neg hname] at hdrive
      rw [h.eq, List.append_assoc]
      exact (drive_front (drive_long hdrive h.name_end)).mpr hdrive

variable {files : FileSystem}

theorem Split.reaches (h : Split path name separators component)
    (hend : endsWithSeparator path = false) (hs : separators ≠ [])
    (hroot : ¬ ((name ++ separators).length = 3 ∧ path[1]? = some colon)) :
    Reaches files path ↔ isRepoRoot files path = true ∨
      Reaches files (shortenSeparators (name ++ separators)) := by
  obtain ⟨rest, hpath, -, hne⟩ := h.parent hs
  have hdrive := h.drive_iff hs hroot
  have hfirst : separatorAt path 0 = separatorAt (shortenSeparators (name ++ separators)) 0 := by
    conv_lhs => rw [hpath]
    exact separatorAt_front (List.length_pos_of_ne_nil hne)
  have hlong : DriveStart path → path.length ≠ 3 := fun hd => (drive_long hd hend).ne'
  have hshort : DriveStart path →
      (shortenSeparators (name ++ separators)).length ≠ 3 := by
    intro hd
    have hlength := h.name_drive hs hroot hd
    rw [h.shorten hs, if_neg (List.ne_nil_of_length_pos (by omega))]
    omega
  rw [Reaches, Reaches, h.ancestors hs hend, ← hfirst, ← hdrive,
    List.exists_mem_cons_iff _ path]
  constructor
  · rintro ((⟨hown, -⟩ | hrest) | ⟨hplain, hthree⟩)
    · exact .inl hown
    · exact .inr (.inl hrest)
    · exact .inr (.inr ⟨hplain, fun hd => absurd (hthree hd) (hlong hd)⟩)
  · rintro (hown | hrest | ⟨hplain, hthree⟩)
    · exact .inl (.inl ⟨hown, drive_length⟩)
    · exact .inl (.inr hrest)
    · exact .inr ⟨hplain, fun hd => absurd (hthree hd) (hshort hd)⟩

theorem ancestors_short {directory : Bytes} (h : directory ∈ properAncestors path) :
    directory.length < (path.rdropWhile isSeparator).length := by
  obtain ⟨n, hn, -, rfl⟩ := mem_ancestorsBelow h
  rw [List.length_take]
  omega

/-- A single component has no parent. -/
theorem Split.finds_component (h : Split path name separators component)
    (hend : endsWithSeparator path = false) (hs : separators = []) :
    Finds nextDirectory (isRepoRoot files) (path :: properAncestors path) path ↔
      Reaches files path := by
  have hnext := h.next hend
  rw [if_pos (.inl hs)] at hnext
  have hpath : path = component := by
    rw [h.eq, h.name_nil hs, hs]
    rfl
  have hplain : ∀ i, separatorAt path i = false := by
    intro i
    rw [separatorAt, hpath]
    cases hi : component[i]? with
    | none => rfl
    | some value => exact h.plain value (List.mem_of_getElem? hi)
  have hnone : properAncestors path = [] := by
    rw [proper_eq hend]
    apply no_ancestorsBelow
    rintro n - (⟨-, hat⟩ | ⟨-, -, hat⟩) <;> rw [hplain] at hat <;> cases hat
  rw [finds_last hnext, hnone]
  simp only [or_true, true_iff]
  refine .inr ⟨hplain 0, fun hd => ?_⟩
  have := hd.2.1
  rw [hplain 2] at this
  cases this

/-- Directly below a drive root the walk stops, with ancestors left. -/
theorem Split.finds_drive (h : Split path name separators component)
    (hend : endsWithSeparator path = false) (hs : separators ≠ [])
    (hroot : (name ++ separators).length = 3 ∧ path[1]? = some colon) :
    Finds nextDirectory (isRepoRoot files) (path :: properAncestors path) path ↔
      Reaches files path := by
  have hnext := h.next hend
  rw [if_pos (.inr hroot)] at hnext
  have hpos := List.length_pos_of_ne_nil hs
  have hcomponent := List.length_pos_of_ne_nil h.component_ne
  have hname : name.length ≤ 2 := by
    have := hroot.1
    rw [List.length_append] at this
    omega
  have hdrive : DriveStart path := by
    refine ⟨hroot.2, ?_, ?_⟩
    · rw [h.eq]
      apply separatorAt_mid h.separate hname
      have := hroot.1
      rw [List.length_append] at this
      omega
    · have := @separatorAt_mid (name ++ separators) component [] false h.plain 3 hroot.1.le
        (by omega)
      rwa [List.append_nil, ← h.eq] at this
  have hparent : (shortenSeparators (name ++ separators)).length ≤ 2 := by
    rw [h.shorten hs]
    split
    · rw [List.length_take]
      omega
    · exact hname
  have hshort : ∀ directory ∈ properAncestors path, directory.length ≤ 2 := by
    intro directory hmem
    rw [h.ancestors hs hend] at hmem
    rcases List.mem_cons.mp hmem with rfl | hmem
    · exact hparent
    · have := ancestors_short hmem
      have := (List.rdropWhile_prefix isSeparator (shortenSeparators (name ++ separators))).length_le
      omega
  have hsome : properAncestors path ≠ [] := by
    rw [h.ancestors hs hend]
    exact List.cons_ne_nil _ _
  rw [finds_last hnext, Reaches, List.exists_mem_cons_iff _ path]
  constructor
  · rintro (hown | hnone)
    · exact .inl (.inl ⟨hown, drive_length⟩)
    · exact absurd hnone hsome
  · rintro ((⟨hown, -⟩ | ⟨directory, hmem, -, hlength⟩) | ⟨-, hlength⟩)
    · exact .inl hown
    · have := hlength hdrive
      have := hshort directory hmem
      omega
    · have := hlength hdrive
      have := drive_long hdrive hend
      omega

/-- The root directory is its own parent. -/
theorem finds_root {value : UInt8} (hvalue : isSeparator value = true) :
    Finds nextDirectory (isRepoRoot files) ([value] :: properAncestors [value]) [value] ↔
      Reaches files [value] := by
  have hnext : nextDirectory [value] = some [value] := by
    have htrim : trimTrailingSeparators [value] = [value] := by
      rw [trimTrailingSeparators, if_neg (by simp)]
    have hshorten : shortenSeparators [value] = [value] := by
      rw [shortenSeparators, if_neg (by simp)]
    have hfront : [value].rdropWhile (fun value => !isSeparator value) = [value] := by
      apply List.rdropWhile_eq_self_iff.mpr
      simp [hvalue]
    rw [nextDirectory, parentDirectory, if_neg (by simp), htrim]
    dsimp only
    rw [hfront, if_neg (by simp), if_neg (by simp), hshorten]
    rfl
  rw [finds_loop hnext, Reaches, root_ancestors hvalue]
  constructor
  · intro hown
    exact .inl ⟨[value], List.mem_singleton_self _, hown, fun hd => by cases hd.1⟩
  · rintro (⟨_, hmem, hown, -⟩ | ⟨hplain, -⟩)
    · rwa [List.mem_singleton.mp hmem] at hown
    · have : separatorAt [value] 0 = isSeparator value := rfl
      rw [this, hvalue] at hplain
      cases hplain

theorem finds_proper (hne : path ≠ []) (hend : endsWithSeparator path = false) :
    Finds nextDirectory (isRepoRoot files) (path :: properAncestors path) path ↔
      Reaches files path := by
  induction hlength : path.length using Nat.strongRecOn generalizing path with
  | ind n ih =>
    subst hlength
    obtain ⟨name, separators, component, h⟩ := split_path hne hend
    by_cases hs : separators = []
    · exact h.finds_component hend hs
    by_cases hroot : (name ++ separators).length = 3 ∧ path[1]? = some colon
    · exact h.finds_drive hend hs hroot
    have hnext := h.next hend
    rw [if_neg (not_or.mpr ⟨hs, hroot⟩)] at hnext
    rw [h.reaches hend hs hroot, h.ancestors hs hend, finds_next hnext]
    obtain ⟨rest, hpath, hrest, hparent⟩ := h.parent hs
    have hshorter : (shortenSeparators (name ++ separators)).length < path.length := by
      have := congrArg List.length hpath
      rw [List.length_append] at this
      have := List.length_pos_of_ne_nil hrest
      omega
    apply or_congr_right
    rw [h.shorten hs] at hparent hshorter ⊢
    by_cases hname : name = []
    · obtain ⟨value, rest, hvalue⟩ := List.exists_cons_of_ne_nil hs
      rw [if_pos hname, hvalue]
      exact finds_root (h.separate value (by simp [hvalue]))
    · rw [if_neg hname] at hparent hshorter ⊢
      exact ih name.length hshorter hparent h.name_end rfl

/-- At a drive root the walk stops; a root directory above it is left. -/
theorem finds_driveRoot (h : DriveRoot path) :
    Finds nextDirectory (isRepoRoot files) (path :: properAncestors path) path ↔
      Reaches files path := by
  obtain ⟨hlength, hcolon, hend⟩ := h
  obtain ⟨first, second, third, rfl⟩ := List.length_eq_three.mp hlength
  cases hcolon
  have hthird : isSeparator third = true := hend
  have hnext : nextDirectory [first, colon, third] = none := by
    have htrim : trimTrailingSeparators [first, colon, third] = [first, colon, third] := by
      rw [trimTrailingSeparators, if_pos ⟨by simp, hend⟩, if_pos ⟨rfl, rfl⟩]
    have hfront : [first, colon, third].rdropWhile (fun value => !isSeparator value) =
        [first, colon, third] := by
      apply List.rdropWhile_eq_self_iff.mpr
      simp [hthird]
    rw [nextDirectory, parentDirectory, if_neg (by simp), htrim]
    dsimp only
    rw [hfront, if_neg (by simp), if_pos ⟨rfl, rfl⟩]
  have hname : [first, colon, third].rdropWhile isSeparator = [first, colon] := by
    rw [show [first, colon, third] = [first, colon] ++ [third] from rfl,
      List.rdropWhile_concat_pos _ _ _ hthird, show [first, colon] = [first] ++ [colon] from rfl,
      List.rdropWhile_concat_neg _ _ _ (by simp [colon_plain])]
  have hancestors : properAncestors [first, colon, third] =
      if isSeparator first = true then [[first]] else [] := by
    rw [properAncestors, hname]
    have hone : isAncestorAt [first, colon] 1 ↔ isSeparator first = true := by
      simp [isAncestorAt, separatorAt, colon_plain]
    have hzero : ¬ isAncestorAt [first, colon] 0 := by
      rintro (⟨h, -⟩ | ⟨h, -⟩) <;> omega
    change ancestorsBelow [first, colon] 2 = _
    simp only [ancestorsBelow, if_neg hzero, hone]
    rfl
  have hdrive : DriveStart [first, colon, third] := ⟨rfl, hthird, rfl⟩
  have hfirst : separatorAt [first, colon, third] 0 = isSeparator first := rfl
  rw [finds_last hnext, Reaches, hancestors, List.exists_mem_cons_iff, hfirst]
  cases isSeparator first <;> simp [hdrive]

end Walk

/-- The search ends and finds the nearest root exactly when it gets to a root, or is
through with a relative path. -/
theorem findsNearest_iff (files : FileSystem) (startPath : Bytes) :
    FindsNearest files startPath ↔ startPath = [] ∨
      (startPath.length < serverRuntimePathMax ∧
        Reaches files (trimTrailingSeparators startPath)) := by
  by_cases hne : startPath = []
  · refine iff_of_true ⟨0, ?_⟩ (.inl hne)
    rw [findRepoRootFromStart, if_pos (.inl hne), directoriesOf, if_pos hne]
    rfl
  · rw [or_iff_right hne, FindsNearest, directoriesOf, if_neg hne]
    by_cases hlong : serverRuntimePathMax ≤ startPath.length
    · refine iff_of_false ?_ fun h => absurd h.1 (by omega)
      rintro ⟨rounds, h⟩
      rw [findRepoRootFromStart, if_pos (.inr hlong)] at h
      have hvisited := congrArg Search.visited (Option.some.inj h)
      exact List.cons_ne_nil _ _ (through_visited_nil hvisited.symm)
    · obtain ⟨htrim, -, hname, hends⟩ := trim_cases hne
      have hchain : properAncestors startPath =
          properAncestors (trimTrailingSeparators startPath) := by
        rw [properAncestors, properAncestors, hname]
      simp only [findRepoRootFromStart, hne, hlong, or_self, if_false]
      rw [hchain, and_iff_right (by omega)]
      rcases hends with hproper | ⟨value, hroot, hvalue⟩ | hdrive
      · exact finds_proper htrim hproper
      · rw [hroot]
        exact finds_root hvalue
      · exact finds_driveRoot hdrive

/-- Below the root directory of an empty file system the search does not end. -/
theorem root_search_loops : ¬ ∀ (files : FileSystem) (startPath : Bytes),
    FindsNearest files startPath := by
  intro h
  obtain ⟨rounds, hsearch⟩ := h (fun _ => none) (ascii "/tmp")
  have hrejects : ∀ path, isRepoRoot (fun _ => none) path = false := by
    intro path
    have hfile : holdsEntry (fileExists fun _ => none) path (ascii "PLAN.md") = false := by
      unfold holdsEntry
      split <;> simp [fileExists]
    rw [isRepoRoot, hfile]
    rfl
  have hloops : search nextDirectory (isRepoRoot fun _ => none) rounds (ascii "/tmp") = none := by
    cases rounds with
    | zero => rfl
    | succ rounds =>
      have hparent : nextDirectory (ascii "/tmp") = some (ascii "/") := by decide +kernel
      have hroot : nextDirectory (ascii "/") = some (ascii "/") := by decide +kernel
      rw [search, if_neg (by simp [hrejects]), hparent]
      dsimp only
      rw [search_loop hroot (hrejects _)]
      rfl
  have hstart : trimTrailingSeparators (ascii "/tmp") = ascii "/tmp" := by decide +kernel
  rw [findRepoRootFromStart, if_neg (by decide), hstart, hloops] at hsearch
  cases hsearch

end DbApi.Proofs.RepoRoot
