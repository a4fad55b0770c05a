import DbApi.Index.Bptree
import DbApi.Library.Slots

namespace DbApi.Index.BptreeHeap
open Library

/-- A node with its arrays. -/
structure Node (α : Type) where
  isLeaf : Bool
  keyCount : Nat
  keys : List Int
  children : List (Option Nat)
  values : List α
  next : Option Nat

/-- The nodes by address; `used` counts the calls of `create_node`. -/
structure Memory (α : Type) where
  node : Nat → Option (Node α)
  used : Nat

/-- An access outside an array or through a pointer to no node, or a descent that goes
deeper than it may. -/
inductive Fault where
  | bounds (fault : BoundsFault)
  | pointer
  | depth
deriving DecidableEq

/-- `split` carries the promoted key and the address of the new right node. -/
structure InsertState where
  ok : Bool
  split : Option (Int × Nat)
  message : Bytes
deriving DecidableEq

structure Tree (α : Type) where
  root : Option Nat
  memory : Memory α

variable {α : Type}

def bounded {β : Type} (access : Except BoundsFault β) : Except Fault β := access.mapError .bounds

def Memory.read (memory : Memory α) (pointer : Option Nat) : Except Fault (Node α) :=
  match pointer.bind memory.node with
  | none => .error .pointer
  | some node => .ok node

def Memory.write (memory : Memory α) (address : Nat) (node : Node α) : Memory α :=
  { memory with node := Function.update memory.node address (some node) }

/-- What `calloc` gives; the arrays have a slot more than a node keeps keys. -/
def blankNode [Inhabited α] (isLeaf : Bool) : Node α where
  isLeaf := isLeaf
  keyCount := 0
  keys := List.replicate (bptreeMaxKeys + 1) 0
  children := List.replicate (bptreeMaxKeys + 2) none
  values := List.replicate (bptreeMaxKeys + 1) default
  next := none

def createNode [Inhabited α] (calloc : Nat → Bool) (memory : Memory α) (isLeaf : Bool) :
    Option Nat × Memory α :=
  if calloc memory.used then
    (some memory.used,
      { memory.write memory.used (blankNode isLeaf) with used := memory.used + 1 })
  else (none, { memory with used := memory.used + 1 })

def makeError (message : Bytes) : InsertState :=
  { ok := false, split := none, message := clip 256 message }

def inserted : InsertState := { ok := true, split := none, message := [] }

def isKeyAt (node : Node α) (index : Nat) (key : Int) : Except BoundsFault Bool :=
  if index < node.keyCount then (fetch node.keys index).map fun k => decide (k = key)
  else .ok false

/-- The loop that makes room in a leaf. -/
def shiftEntries (keys : List Int) (values : List α) (first : Nat) :
    Nat → Except BoundsFault (List Int × List α)
  | 0 => .ok (keys, values)
  | count + 1 => do
    let key ← fetch keys (first + count : Nat)
    let keys ← store keys (first + count + 1) key
    let value ← fetch values (first + count : Nat)
    let values ← store values (first + count + 1) value
    shiftEntries keys values first count

/-- The loop that fills the right half of a leaf. -/
def copyEntries (keys : List Int) (values : List α) (offset : Nat) :
    Nat → Nat → List Int → List α → Except BoundsFault (List Int × List α)
  | 0, _, rightKeys, rightValues => .ok (rightKeys, rightValues)
  | count + 1, index, rightKeys, rightValues => do
    let key ← fetch keys (offset + index : Nat)
    let rightKeys ← store rightKeys index key
    let value ← fetch values (offset + index : Nat)
    let rightValues ← store rightValues index value
    copyEntries keys values offset count (index + 1) rightKeys rightValues

variable [Inhabited α] (calloc : Nat → Bool)

def splitLeaf (memory : Memory α) (address : Nat) (node : Node α) :
    Except Fault (InsertState × Memory α) :=
  match createNode calloc memory true with
  | (none, memory) =>
    .ok (makeError (ascii "out of memory while splitting B+ tree leaf"), memory)
  | (some right, memory) => do
    let rightNode ← memory.read (some right)
    let splitIndex := node.keyCount / 2
    let rightCount := node.keyCount - splitIndex
    let (keys, values) ← bounded
      (copyEntries node.keys node.values splitIndex rightCount 0 rightNode.keys rightNode.values)
    let promotedKey ← bounded (fetch keys 0)
    let rightNode := { rightNode with keyCount := rightCount, keys, values, next := node.next }
    let node := { node with keyCount := splitIndex, next := some right }
    .ok ({ ok := true, split := some (promotedKey, right), message := [] },
      (memory.write right rightNode).write address node)

def insertIntoLeaf (memory : Memory α) (address : Nat) (node : Node α) (key : Int) (value : α) :
    Except Fault (InsertState × Memory α) := do
  let insertIndex ← bounded (scanSlots (fun k => !decide (k < key)) node.keys node.keyCount 0)
  let duplicate ← bounded (isKeyAt node insertIndex key)
  if duplicate then .ok (makeError (ascii "duplicate id key"), memory)
  else
    let (keys, values) ← bounded
      (shiftEntries node.keys node.values insertIndex (node.keyCount - insertIndex))
    let keys ← bounded (store keys insertIndex key)
    let values ← bounded (store values insertIndex value)
    let node := { node with keys, values, keyCount := node.keyCount + 1 }
    let memory := memory.write address node
    if node.keyCount ≤ bptreeMaxKeys then .ok (inserted, memory)
    else splitLeaf calloc memory address node

def splitInternal (memory : Memory α) (address : Nat) (node : Node α) :
    Except Fault (InsertState × Memory α) :=
  match createNode calloc memory false with
  | (none, memory) =>
    .ok (makeError (ascii "out of memory while splitting B+ tree internal node"), memory)
  | (some right, memory) => do
    let rightNode ← memory.read (some right)
    let midIndex := node.keyCount / 2
    let promotedKey ← bounded (fetch node.keys midIndex)
    let rightCount := node.keyCount - midIndex - 1
    let keys ← bounded (copySlots node.keys (midIndex + 1) rightCount 0 rightNode.keys)
    let children ← bounded
      (copySlots node.children (midIndex + 1) (rightCount + 1) 0 rightNode.children)
    let rightNode := { rightNode with keyCount := rightCount, keys, children }
    let node := { node with keyCount := midIndex }
    .ok ({ ok := true, split := some (promotedKey, right), message := [] },
      (memory.write right rightNode).write address node)

/-- What `insert_into_internal` does once the child has answered. -/
def absorbChild (memory : Memory α) (address childIndex : Nat) (childState : InsertState) :
    Except Fault (InsertState × Memory α) :=
  if !childState.ok then .ok (childState, memory)
  else
    match childState.split with
    | none => .ok (inserted, memory)
    | some (promotedKey, right) => do
      let node ← memory.read (some address)
      let keys ← bounded (shiftSlots node.keys childIndex (node.keyCount - childIndex))
      let children ← bounded
        (shiftSlots node.children (childIndex + 1) (node.keyCount + 1 - (childIndex + 1)))
      let keys ← bounded (store keys childIndex promotedKey)
      let children ← bounded (store children (childIndex + 1) (some right))
      let node := { node with keys, children, keyCount := node.keyCount + 1 }
      let memory := memory.write address node
      if node.keyCount ≤ bptreeMaxKeys then .ok (inserted, memory)
      else splitInternal calloc memory address node

/-- `insert_into_internal` comes back to this function for the child. -/
def insertIntoNode : Nat → Memory α → Option Nat → Int → α → Except Fault (InsertState × Memory α)
  | 0, _, _, _, _ => .error .depth
  | _ + 1, _, none, _, _ => .error .pointer
  | depth + 1, memory, some address, key, value => do
    let node ← memory.read (some address)
    if node.isLeaf then insertIntoLeaf calloc memory address node key value
    else
      let childIndex ← bounded (scanSlots (fun k => !decide (key ≥ k)) node.keys node.keyCount 0)
      let child ← bounded (fetch node.children childIndex)
      let (childState, memory) ← insertIntoNode depth memory child key value
      absorbChild calloc memory address childIndex childState

def bptreeInit : Tree α := { root := none, memory := { node := fun _ => none, used := 0 } }

/-- The error is the text put into `message`. -/
def bptreeInsert (depth : Nat) (tree : Tree α) (key : Int) (value : α) :
    Except Fault (Tree α × Except Bytes Unit) :=
  match tree.root with
  | none =>
    match createNode calloc tree.memory true with
    | (none, memory) =>
      .ok ({ root := none, memory }, .error (ascii "out of memory while creating B+ tree root"))
    | (some address, memory) => do
      let node ← memory.read (some address)
      let keys ← bounded (store node.keys 0 key)
      let values ← bounded (store node.values 0 value)
      .ok ({ root := some address,
             memory := memory.write address { node with keys, values, keyCount := 1 } }, .ok ())
  | some root => do
    let (state, memory) ← insertIntoNode calloc depth tree.memory (some root) key value
    if !state.ok then .ok ({ root := some root, memory }, .error state.message)
    else
      match state.split with
      | none => .ok ({ root := some root, memory }, .ok ())
      | some (promotedKey, right) =>
        match createNode calloc memory false with
        | (none, memory) =>
          .ok ({ root := some root, memory },
            .error (ascii "out of memory while growing B+ tree root"))
        | (some address, memory) => do
          let node ← memory.read (some address)
          let keys ← bounded (store node.keys 0 promotedKey)
          let children ← bounded (store node.children 0 (some root))
          let children ← bounded (store children 1 (some right))
          .ok ({ root := some address,
                 memory := memory.write address { node with keys, children, keyCount := 1 } },
            .ok ())

/-- The tree after a sequence of insertions, accepted or not. -/
def insertAll (depth : Nat) (ops : List (Int × α)) : Except Fault (Tree α) :=
  ops.foldlM (fun tree op => (bptreeInsert calloc depth tree op.1 op.2).map Prod.fst) bptreeInit

end DbApi.Index.BptreeHeap
