import DbApi.Index.TableIndex

namespace DbApi.Proofs.IndexView
open Library Storage Index

def names (registry : List TableIndex) : List Bytes := registry.map TableIndex.tableName

/-- The database with its registry as a map: a missing entry behaves like a
fresh one. -/
structure View where
  files : DataFiles
  names : List Bytes
  indexOf : Bytes → TableIndex
  forced : Bool

def view (db : Database) : View :=
  { files := db.dataFiles
    names := names db.registry
    indexOf := tableIndexOf db.registry
    forced := db.forceNextRegisterFailure }

def View.set (v : View) (name : Bytes) (entry : TableIndex) : View :=
  { v with indexOf := Function.update v.indexOf name entry }

def View.create (v : View) (name : Bytes) : View :=
  { v with names := if name ∈ v.names then v.names else v.names ++ [name] }

/-- `ensure_loaded` on the map. -/
def View.load (dataDir name : Bytes) (v : View) : Except Bytes Unit × View :=
  if (v.indexOf name).loaded then (.ok (), v.create name)
  else
    match rebuild dataDir v.files name with
    | .error message => (.error message, (v.create name).set name (v.indexOf name).unload)
    | .ok (tree, nextId) =>
      (.ok (), (v.create name).set name ((v.indexOf name).install tree nextId))

/-- `ensure_loaded` and a read on the map. -/
def View.query {α : Type} (dataDir name : Bytes) (read : TableIndex → α) (v : View) :
    Except Bytes α × View :=
  match v.load dataDir name with
  | (.error message, v) => (.error message, v)
  | (.ok (), v) => (.ok (read (v.indexOf name)), v)

/-- `table_index_register_row` on the map, once the index is loaded. -/
def View.register (name : Bytes) (id : Int) (rowOffset : Nat) (v : View) :
    Except Bytes Unit × View :=
  if v.forced then
    (.error (ascii "forced index registration failure"), { v with forced := false })
  else
    let entry := registerEntry id rowOffset (v.indexOf name)
    (entry.1, (v.create name).set name entry.2)

/-- A program returns the result and leaves the map given by `out`. -/
def Computes {α : Type} (p : Program Database α) (db : Database) (out : α × View) : Prop :=
  (p.run db).1 = out.1 ∧ view (p.run db).2 = out.2

section Registry

variable {name : Bytes} {registry : List TableIndex}

theorem find_none (h : name ∉ names registry) : findTableIndex registry name = none := by
  rw [findTableIndex, List.find?_eq_none]
  intro entry he hn
  exact h (List.mem_map.mpr ⟨entry, he, by simpa using hn⟩)

theorem find_some (h : name ∈ names registry) :
    ∃ entry, findTableIndex registry name = some entry := by
  obtain ⟨entry, he, hn⟩ := List.mem_map.mp h
  apply Option.isSome_iff_exists.mp
  rw [findTableIndex, List.find?_isSome]
  exact ⟨entry, he, by simpa using hn⟩

theorem indexOf_missing (h : name ∉ names registry) :
    tableIndexOf registry name = .fresh name := by
  rw [tableIndexOf, find_none h, Option.getD_none]

theorem mem_of_loaded (h : (tableIndexOf registry name).loaded = true) :
    name ∈ names registry := by
  by_contra hn
  rw [indexOf_missing hn] at h
  contradiction

theorem indexOf_member (hu : (names registry).Nodup) {entry : TableIndex}
    (he : entry ∈ registry) : tableIndexOf registry entry.tableName = entry := by
  induction registry with
  | nil => contradiction
  | cons first rest ih =>
    rw [names, List.map_cons, List.nodup_cons] at hu
    rcases List.mem_cons.mp he with rfl | he
    · simp [tableIndexOf, findTableIndex]
    · have hne : first.tableName ≠ entry.tableName := fun h =>
        hu.1 (h ▸ List.mem_map.mpr ⟨entry, he, rfl⟩)
      have hrest := ih hu.2 he
      simp only [tableIndexOf, findTableIndex] at hrest ⊢
      rwa [List.find?_cons_of_neg (by simpa using hne)]

variable {f : TableIndex → TableIndex}

theorem names_update (hf : ∀ entry, (f entry).tableName = entry.tableName) :
    names (updateTableIndex name f registry) = names registry := by
  induction registry with
  | nil => rfl
  | cons entry rest ih =>
    simp only [names] at ih ⊢
    simp only [updateTableIndex]
    split
    · simp [hf]
    · simp [ih]

theorem indexOf_update (hf : ∀ entry, (f entry).tableName = entry.tableName)
    (h : name ∈ names registry) :
    tableIndexOf (updateTableIndex name f registry) =
      Function.update (tableIndexOf registry) name (f (tableIndexOf registry name)) := by
  induction registry with
  | nil => contradiction
  | cons entry rest ih =>
    funext other
    by_cases he : entry.tableName = name
    · have hself : tableIndexOf (entry :: rest) name = entry := by
        simp [tableIndexOf, findTableIndex, he]
      rw [hself, updateTableIndex, if_pos he, Function.update_apply]
      by_cases ho : other = name
      · simp [tableIndexOf, findTableIndex, hf, he, ho]
      · simp [tableIndexOf, findTableIndex, hf, he, Ne.symm ho, ho]
    · have hin : name ∈ names rest := by
        rcases List.mem_cons.mp h with h | h
        · exact absurd h.symm he
        · exact h
      have hskip : tableIndexOf (entry :: rest) name = tableIndexOf rest name := by
        simp [tableIndexOf, findTableIndex, he]
      have hrest := congrFun (ih hin) other
      rw [hskip, updateTableIndex, if_neg he]
      by_cases ho : entry.tableName = other
      · subst ho
        simp [tableIndexOf, findTableIndex, he]
      · rw [Function.update_apply] at hrest ⊢
        simpa [tableIndexOf, findTableIndex, ho] using hrest

theorem update_missing (h : name ∉ names registry) :
    updateTableIndex name f registry = registry := by
  induction registry with
  | nil => rfl
  | cons entry rest ih =>
    simp only [names, List.map_cons, List.mem_cons, not_or] at h
    rw [updateTableIndex, if_neg (Ne.symm h.1), ih h.2]

theorem indexOf_unload :
    tableIndexOf (updateTableIndex name TableIndex.unload registry) =
      Function.update (tableIndexOf registry) name (tableIndexOf registry name).unload := by
  by_cases h : name ∈ names registry
  · exact indexOf_update (fun _ => rfl) h
  · rw [update_missing h, indexOf_missing h]
    funext other
    rw [Function.update_apply]
    split
    · rename_i ho
      rw [ho, indexOf_missing h]
      rfl
    · rfl

theorem names_getOrCreate : names (getOrCreate name registry) =
    if name ∈ names registry then names registry else names registry ++ [name] := by
  split
  · rename_i h
    obtain ⟨entry, he⟩ := find_some h
    simp [getOrCreate, he]
  · rename_i h
    simp [getOrCreate, find_none h, names, TableIndex.fresh]

theorem mem_getOrCreate : name ∈ names (getOrCreate name registry) := by
  rw [names_getOrCreate]
  split
  · assumption
  · simp

theorem indexOf_getOrCreate : tableIndexOf (getOrCreate name registry) = tableIndexOf registry := by
  by_cases h : name ∈ names registry
  · obtain ⟨entry, he⟩ := find_some h
    simp [getOrCreate, he]
  · funext other
    rw [getOrCreate, find_none h]
    by_cases ho : other ∈ names registry
    · obtain ⟨entry, he⟩ := find_some ho
      simp only [findTableIndex] at he
      simp [tableIndexOf, findTableIndex, he]
    · have hnone := find_none ho
      simp only [findTableIndex] at hnone
      by_cases hon : other = name
      · simp [tableIndexOf, findTableIndex, TableIndex.fresh, hon]
      · simp [tableIndexOf, findTableIndex, hnone, TableIndex.fresh, Ne.symm hon]

end Registry

variable {α β : Type} {db : Database} {v : View} {name : Bytes}

theorem computes_pure (a : α) : Computes (pure a) db (a, view db) := ⟨rfl, rfl⟩

theorem computes_read (f : Database → α) : Computes (.read f) db (f db, view db) := ⟨rfl, rfl⟩

theorem Computes.bind {p : Program Database α} {f : α → Program Database β} {a : α} {v : View}
    {out : β × View} (hp : Computes p db (a, v))
    (hf : ∀ db1, view db1 = v → Computes (f a) db1 out) : Computes (p >>= f) db out := by
  obtain ⟨rfl, hv⟩ := hp
  simpa only [Computes, Program.run_bind] using hf _ hv

/-- What a program returns and leaves on the map satisfies `Q`. -/
def Yields (p : Program Database α) (db : Database) (Q : α → View → Prop) : Prop :=
  Q (p.run db).1 (view (p.run db).2)

theorem yields_pure {Q : α → View → Prop} {a : α} (h : Q a (view db)) : Yields (pure a) db Q := h

theorem Computes.yields {p : Program Database α} {out : α × View} (hp : Computes p db out)
    {Q : α → View → Prop} (hq : Q out.1 out.2) : Yields p db Q := by
  obtain ⟨hr, hv⟩ := hp
  rwa [Yields, hr, hv]

theorem Computes.then {p : Program Database α} {f : α → Program Database β} {out : α × View}
    {Q : β → View → Prop} (hp : Computes p db out)
    (hf : ∀ db1, view db1 = out.2 → Yields (f out.1) db1 Q) : Yields (p >>= f) db Q := by
  obtain ⟨hr, hv⟩ := hp
  rw [Yields, Program.run_bind, hr]
  exact hf _ hv

theorem computes_create (name : Bytes) :
    Computes (getOrCreateTableIndex name) db ((view db).indexOf name, (view db).create name) := by
  simp only [Computes, getOrCreateTableIndex, view, View.create, indexOf_getOrCreate,
    names_getOrCreate, Program.run_atomic, true_and, View.mk.injEq]
  split <;> rename_i h <;> simp [h]

theorem computes_update (f : TableIndex → TableIndex)
    (hf : ∀ entry, (f entry).tableName = entry.tableName) (h : name ∈ (view db).names) :
    Computes (.modify (·.updateEntry name f)) db
      ((), (view db).set name (f ((view db).indexOf name))) := by
  simp [Computes, view, Database.updateEntry, View.set, indexOf_update hf h, names_update hf]

theorem computes_invalidate (db : Database) (name : Bytes) :
    Computes (tableIndexInvalidate name) db
      ((), (view db).set name ((view db).indexOf name).unload) := by
  simp [Computes, tableIndexInvalidate, view, Database.updateEntry, View.set, indexOf_unload,
    names_update (f := TableIndex.unload) (fun _ => rfl)]

@[simp] theorem View.mem_create : name ∈ (v.create name).names := by
  simp only [View.create]
  split
  · assumption
  · simp

@[simp] theorem View.indexOf_create : (v.create name).indexOf = v.indexOf := rfl

@[simp] theorem View.files_create : (v.create name).files = v.files := rfl

@[simp] theorem View.forced_create : (v.create name).forced = v.forced := rfl

@[simp] theorem View.indexOf_set (e : TableIndex) : (v.set name e).indexOf name = e := by
  simp [View.set]

@[simp] theorem View.names_set (e : TableIndex) : (v.set name e).names = v.names := rfl

@[simp] theorem View.files_set (e : TableIndex) : (v.set name e).files = v.files := rfl

@[simp] theorem View.forced_set (e : TableIndex) : (v.set name e).forced = v.forced := rfl

@[simp] theorem View.set_set (e1 e2 : TableIndex) :
    (v.set name e1).set name e2 = v.set name e2 := by
  simp [View.set]

theorem View.indexOf_set_ne {other : Bytes} (e : TableIndex) (h : other ≠ name) :
    (v.set name e).indexOf other = v.indexOf other := by
  simp [View.set, h]

theorem View.nodup_create (hu : v.names.Nodup) : (v.create name).names.Nodup := by
  simp only [View.create]
  split
  · exact hu
  · rename_i h
    refine List.nodup_append.mpr ⟨hu, by simp, ?_⟩
    intro a ha b hb hab
    rw [List.mem_singleton] at hb
    exact h (hb ▸ hab ▸ ha)

theorem Computes.of_eq {p : Program Database α} {out out' : α × View} (hp : Computes p db out)
    (he : out = out') : Computes p db out' := he ▸ hp

theorem computes_ensureLoaded (schema : Schema) (dataDir : Bytes) (db : Database) :
    Computes (ensureLoaded schema dataDir) db ((view db).load dataDir schema.storageName) := by
  rw [ensureLoaded, View.load]
  refine (computes_create _).bind fun db1 h1 => ?_
  split
  · exact h1 ▸ computes_pure _
  have hm1 : schema.storageName ∈ (view db1).names := h1 ▸ View.mem_create
  refine (computes_update TableIndex.clear (fun _ => rfl) hm1).bind fun db2 h2 => ?_
  have hfiles : db2.dataFiles = (view db).files := by
    change (view db2).files = _
    rw [h2, View.files_set, h1, View.files_create]
  refine (computes_read _).bind fun db3 h3 => ?_
  have hm3 : schema.storageName ∈ (view db3).names := h3 ▸ h2 ▸ hm1
  rw [hfiles]
  cases rebuild dataDir (view db).files schema.storageName with
  | error message =>
    refine (computes_update TableIndex.unload (fun _ => rfl) hm3).bind fun db4 h4 => ?_
    refine (computes_pure _).of_eq ?_
    rw [h4, h3, h2, h1, View.set_set, View.indexOf_set, View.indexOf_create]
    rfl
  | ok context =>
    obtain ⟨tree, nextId⟩ := context
    refine (computes_update (.install tree nextId) (fun _ => rfl) hm3).bind fun db4 h4 => ?_
    refine (computes_pure _).of_eq ?_
    rw [h4, h3, h2, h1, View.set_set, View.indexOf_set, View.indexOf_create]
    rfl

/-- A loaded index is left as it is. -/
theorem View.load_loaded {dataDir : Bytes} (h : (v.indexOf name).loaded = true) :
    v.load dataDir name = (.ok (), v.create name) := by
  rw [View.load, if_pos h]

theorem computes_readEntry (schema : Schema) (dataDir : Bytes) (read : TableIndex → α)
    (db : Database) :
    Computes (readEntry schema dataDir read) db
      ((view db).query dataDir schema.storageName read) := by
  have hload := computes_ensureLoaded schema dataDir db
  rw [readEntry, View.query]
  generalize (view db).load dataDir schema.storageName = r at hload ⊢
  obtain ⟨result, v⟩ := r
  refine hload.bind fun db1 h1 => ?_
  subst h1
  cases result with
  | error message => exact computes_pure _
  | ok _ =>
    refine (computes_read _).bind fun db2 h2 => ?_
    exact (computes_pure _).of_eq (by rw [h2]; rfl)

theorem registerEntry_name (id : Int) (rowOffset : Nat) (entry : TableIndex) :
    (registerEntry id rowOffset entry).2.tableName = entry.tableName := by
  simp only [registerEntry]
  split <;> rfl

theorem computes_registerRow {schema : Schema} (dataDir : Bytes) (id : Int) (rowOffset : Nat)
    (hl : ((view db).indexOf schema.storageName).loaded = true) :
    Computes (tableIndexRegisterRow schema dataDir id rowOffset) db
      ((view db).register schema.storageName id rowOffset) := by
  have hforced : Computes (.atomic fun db : Database =>
      (db.forceNextRegisterFailure, { db with forceNextRegisterFailure := false })) db
      ((view db).forced, { view db with forced := false }) := ⟨rfl, rfl⟩
  rw [tableIndexRegisterRow, View.register]
  refine hforced.bind fun db1 h1 => ?_
  split
  · exact h1 ▸ computes_pure _
  rename_i hf
  have hview : view db1 = view db := by
    rw [h1]
    simp only [Bool.not_eq_true] at hf
    rw [← hf]
  have hl1 : ((view db1).indexOf schema.storageName).loaded = true := hview ▸ hl
  have hload := computes_ensureLoaded schema dataDir db1
  rw [View.load_loaded hl1] at hload
  refine hload.bind fun db2 h2 => ?_
  have hm2 : schema.storageName ∈ (view db2).names := h2 ▸ View.mem_create
  obtain ⟨_, hview2⟩ := computes_update (fun entry => (registerEntry id rowOffset entry).2)
    (registerEntry_name id rowOffset) hm2
  refine ⟨?_, hview2.trans ?_⟩
  · change (registerEntry id rowOffset ((view db2).indexOf schema.storageName)).1 = _
    rw [h2, hview, View.indexOf_create]
  · rw [h2, hview, View.indexOf_create]

end DbApi.Proofs.IndexView
