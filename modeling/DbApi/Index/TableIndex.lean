import DbApi.Index.Bptree
import DbApi.Library.Program
import DbApi.Storage.Schema

namespace DbApi.Index
open Library Storage

structure TableIndex where
  tableName : Bytes
  loaded : Bool
  tree : BPlusTree Nat
  nextId : Int

/-- What outlives a statement: the data files, and the static variables of
`table_index.c`. -/
structure Database where
  dataFiles : DataFiles
  registry : List TableIndex
  forceNextRegisterFailure : Bool

/-- An entry as `get_or_create_table_index` makes it. -/
def TableIndex.fresh (tableName : Bytes) : TableIndex :=
  { tableName, loaded := false, tree := bptreeInit, nextId := 1 }

def findTableIndex (registry : List TableIndex) (tableName : Bytes) : Option TableIndex :=
  registry.find? (·.tableName == tableName)

/-- The entry a pointer into the registry stands for. -/
def tableIndexOf (registry : List TableIndex) (tableName : Bytes) : TableIndex :=
  (findTableIndex registry tableName).getD (.fresh tableName)

/-- An update through a pointer into the registry. -/
def updateTableIndex (tableName : Bytes) (f : TableIndex → TableIndex) :
    List TableIndex → List TableIndex
  | [] => []
  | entry :: rest =>
    if entry.tableName = tableName then f entry :: rest
    else entry :: updateTableIndex tableName f rest

def getOrCreate (tableName : Bytes) (registry : List TableIndex) : List TableIndex :=
  match findTableIndex registry tableName with
  | some _ => registry
  | none => registry ++ [.fresh tableName]

def Database.updateEntry (db : Database) (tableName : Bytes) (f : TableIndex → TableIndex) :
    Database :=
  { db with registry := updateTableIndex tableName f db.registry }

def getOrCreateTableIndex (tableName : Bytes) : Program Database TableIndex :=
  .atomic fun db =>
    let registry := getOrCreate tableName db.registry
    (tableIndexOf registry tableName, { db with registry })

def TableIndex.unload (entry : TableIndex) : TableIndex :=
  { entry with tree := bptreeInit, loaded := false, nextId := 1 }

/-- `bptree_free` and `bptree_init` before a rebuild. -/
def TableIndex.clear (entry : TableIndex) : TableIndex := { entry with tree := bptreeInit }

def TableIndex.install (tree : BPlusTree Nat) (nextId : Int) (entry : TableIndex) : TableIndex :=
  { entry with tree, loaded := true, nextId }

/-- The visitor of the rebuild; the context holds the tree and `next_id`. -/
def rebuildRow (_fields : List Bytes) (rowOffset : Nat) (rebuild : BPlusTree Nat × Int) :
    Except Bytes (BPlusTree Nat × Int) :=
  match bptreeInsert allocates rebuild.1 rebuild.2 rowOffset with
  | (_, .error message) => .error message
  | (tree, .ok ()) => .ok (tree, rebuild.2 + 1)

def rebuild (dataDir : Bytes) (files : DataFiles) (tableName : Bytes) :
    Except Bytes (BPlusTree Nat × Int) :=
  scanRowsCsv dataDir files tableName rebuildRow (bptreeInit, 1)

def ensureLoaded (schema : Schema) (dataDir : Bytes) : Program Database (Except Bytes Unit) := do
  let name := schema.storageName
  let entry ← getOrCreateTableIndex name
  if entry.loaded then return .ok ()
  .modify (·.updateEntry name TableIndex.clear)
  match ← .read fun db => rebuild dataDir db.dataFiles name with
  | .error message =>
    .modify (·.updateEntry name TableIndex.unload)
    return .error message
  | .ok (tree, nextId) =>
    .modify (·.updateEntry name (TableIndex.install tree nextId))
    return .ok ()

def tableIndexRegistryReset : Program Database Unit :=
  .modify fun db => { db with registry := [], forceNextRegisterFailure := false }

def tableIndexInvalidate (tableName : Bytes) : Program Database Unit :=
  .modify (·.updateEntry tableName TableIndex.unload)

/-- `ensure_loaded`, and then a read through the entry it returns. -/
def readEntry {α : Type} (schema : Schema) (dataDir : Bytes) (read : TableIndex → α) :
    Program Database (Except Bytes α) := do
  match ← ensureLoaded schema dataDir with
  | .error message => return .error message
  | .ok () => return .ok (← .read fun db => read (tableIndexOf db.registry schema.storageName))

def tableIndexGetNextId (schema : Schema) (dataDir : Bytes) :
    Program Database (Except Bytes Int) :=
  readEntry schema dataDir TableIndex.nextId

/-- The insertion into the tree and the step of `next_id`. -/
def registerEntry (id : Int) (rowOffset : Nat) (entry : TableIndex) :
    Except Bytes Unit × TableIndex :=
  match bptreeInsert allocates entry.tree id rowOffset with
  | (tree, .error message) => (.error message, { entry with tree })
  | (tree, .ok ()) =>
    (.ok (), { entry with tree, nextId := if id ≥ entry.nextId then id + 1 else entry.nextId })

def tableIndexRegisterRow (schema : Schema) (dataDir : Bytes) (id : Int) (rowOffset : Nat) :
    Program Database (Except Bytes Unit) := do
  let forced ← .atomic fun db =>
    (db.forceNextRegisterFailure, { db with forceNextRegisterFailure := false })
  if forced then return .error (ascii "forced index registration failure")
  match ← ensureLoaded schema dataDir with
  | .error message => return .error message
  | .ok () =>
    .atomic fun db =>
      ((registerEntry id rowOffset (tableIndexOf db.registry schema.storageName)).1,
        db.updateEntry schema.storageName (fun entry => (registerEntry id rowOffset entry).2))

/-- `ok` with `found` and `row_offset`. -/
def tableIndexFindRow (schema : Schema) (dataDir : Bytes) (id : Int) :
    Program Database (Except Bytes (Option Nat)) :=
  readEntry schema dataDir fun entry => bptreeSearch entry.tree id

def tableIndexForceNextRegisterFailure : Program Database Unit :=
  .modify fun db => { db with forceNextRegisterFailure := true }

end DbApi.Index
