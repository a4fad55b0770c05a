import DbApi.Library.Bytes

namespace DbApi.Index
open Library

def bptreeMaxKeys : Nat := 3

/-- The lists hold the array slots in use, so `key_count` is their length. The
parallel arrays of a leaf are kept as pairs. Addresses name the leaves that
`next` may point at. -/
inductive BPlusTreeNode (α : Type) where
  | leaf (address : Nat) (entries : List (Int × α)) (next : Option Nat)
  | internal (keys : List Int) (children : List (BPlusTreeNode α))

/-- `split` carries the promoted key and the new right node. -/
structure InsertState (α : Type) where
  ok : Bool
  split : Option (Int × BPlusTreeNode α)
  message : Bytes

/-- `used` counts the calls of `create_node` so far; it also names new nodes. -/
structure BPlusTree (α : Type) where
  root : Option (BPlusTreeNode α)
  used : Nat

variable {α : Type}

/-- `calloc n` tells whether the `n`-th allocation succeeds. -/
def createNode (calloc : Nat → Bool) (used : Nat) : Option Nat × Nat :=
  (if calloc used then some used else none, used + 1)

/-- Every allocation succeeds. -/
def allocates : Nat → Bool := fun _ => true

def findChildIndex : List Int → Int → Nat
  | [], _ => 0
  | k :: ks, key => if key ≥ k then findChildIndex ks key + 1 else 0

def makeError (message : Bytes) : InsertState α :=
  { ok := false, split := none, message := clip 256 message }

def leafInsertIndex : List (Int × α) → Int → Nat
  | [], _ => 0
  | e :: es, key => if e.1 < key then leafInsertIndex es key + 1 else 0

/-- Returns the node as it is left in place, the result, and the allocation count. -/
def insertIntoLeaf (calloc : Nat → Bool) (used address : Nat) (entries : List (Int × α))
    (next : Option Nat) (key : Int) (value : α) : BPlusTreeNode α × InsertState α × Nat :=
  let insertIndex := leafInsertIndex entries key
  if (entries[insertIndex]?.map Prod.fst) = some key then
    (.leaf address entries next, makeError (ascii "duplicate id key"), used)
  else
    let shifted := entries.insertIdx insertIndex (key, value)
    if shifted.length ≤ bptreeMaxKeys then
      (.leaf address shifted next, { ok := true, split := none, message := [] }, used)
    else
      match createNode calloc used with
      | (none, used) =>
        -- the overfull leaf stays in the tree
        (.leaf address shifted next,
          makeError (ascii "out of memory while splitting B+ tree leaf"), used)
      | (some right, used) =>
        let splitIndex := shifted.length / 2
        let rightEntries := shifted.drop splitIndex
        (.leaf address (shifted.take splitIndex) (some right),
          { ok := true,
            split := some ((rightEntries.head?.map Prod.fst).getD 0,
              .leaf right rightEntries next),
            message := [] }, used)

/-- What `insert_into_internal` does once the child has answered; `children`
already holds the child as its insertion left it. -/
def insertIntoInternal (calloc : Nat → Bool) (keys : List Int) (childIndex : Nat) :
    List (BPlusTreeNode α) × InsertState α × Nat → BPlusTreeNode α × InsertState α × Nat
  | (children, childState, used) =>
    if !childState.ok then (.internal keys children, childState, used)
    else
      match childState.split with
      | none => (.internal keys children, { ok := true, split := none, message := [] }, used)
      | some (promotedKey, rightNode) =>
        let keys := keys.insertIdx childIndex promotedKey
        let children := children.insertIdx (childIndex + 1) rightNode
        if keys.length ≤ bptreeMaxKeys then
          (.internal keys children, { ok := true, split := none, message := [] }, used)
        else
          match createNode calloc used with
          | (none, used) =>
            (.internal keys children,
              makeError (ascii "out of memory while splitting B+ tree internal node"), used)
          | (some _, used) =>
            let midIndex := keys.length / 2
            (.internal (keys.take midIndex) (children.take (midIndex + 1)),
              { ok := true,
                split := some (keys[midIndex]?.getD 0,
                  .internal (keys.drop (midIndex + 1)) (children.drop (midIndex + 1))),
                message := [] }, used)

mutual

def insertIntoNode (calloc : Nat → Bool) (used : Nat) :
    BPlusTreeNode α → Int → α → BPlusTreeNode α × InsertState α × Nat
  | .leaf address entries next, key, value =>
    insertIntoLeaf calloc used address entries next key value
  | .internal keys children, key, value =>
    let childIndex := findChildIndex keys key
    insertIntoInternal calloc keys childIndex
      (insertIntoChild calloc used children childIndex key value)

/-- `insert_into_node(node->children[index], ..)`. An index past the array does
not occur below a reachable root; it answers with a failure. -/
def insertIntoChild (calloc : Nat → Bool) (used : Nat) :
    List (BPlusTreeNode α) → Nat → Int → α → List (BPlusTreeNode α) × InsertState α × Nat
  | [], _, _, _ => ([], makeError [], used)
  | child :: rest, 0, key, value =>
    let (child, state, used) := insertIntoNode calloc used child key value
    (child :: rest, state, used)
  | child :: rest, index + 1, key, value =>
    let (rest, state, used) := insertIntoChild calloc used rest index key value
    (child :: rest, state, used)

end

def bptreeInit : BPlusTree α := { root := none, used := 0 }

/-- The error is the text put into `message`. -/
def bptreeInsert (calloc : Nat → Bool) (tree : BPlusTree α) (key : Int) (value : α) :
    BPlusTree α × Except Bytes Unit :=
  match tree.root with
  | none =>
    match createNode calloc tree.used with
    | (none, used) =>
      ({ root := none, used }, .error (ascii "out of memory while creating B+ tree root"))
    | (some address, used) => ({ root := some (.leaf address [(key, value)] none), used }, .ok ())
  | some root =>
    let (root, state, used) := insertIntoNode calloc tree.used root key value
    if !state.ok then ({ root := some root, used }, .error state.message)
    else
      match state.split with
      | none => ({ root := some root, used }, .ok ())
      | some (promotedKey, rightNode) =>
        match createNode calloc used with
        | (none, used) =>
          ({ root := some root, used }, .error (ascii "out of memory while growing B+ tree root"))
        | (some _, used) =>
          ({ root := some (.internal [promotedKey] [root, rightNode]), used }, .ok ())

mutual

/-- The descent and the scan of the leaf reached. -/
def searchNode : BPlusTreeNode α → Int → Option α
  | .leaf _ entries _, key => entries.lookup key
  | .internal keys children, key => searchChild children (findChildIndex keys key) key

def searchChild : List (BPlusTreeNode α) → Nat → Int → Option α
  | [], _, _ => none
  | child :: _, 0, key => searchNode child key
  | _ :: rest, index + 1, key => searchChild rest index key

end

def bptreeSearch (tree : BPlusTree α) (key : Int) : Option α :=
  tree.root.bind (fun root => searchNode root key)

end DbApi.Index
