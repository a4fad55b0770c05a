import DbApi.Index.BptreeHeap

namespace DbApi.Index.BptreeHeap
open Library

variable {α ν : Type}

/-- A cell that holds no node cannot be freed, so not twice either. -/
def Memory.free (memory : Memory α) (address : Nat) : Except Fault (Memory α) :=
  match memory.node address with
  | none => .error .pointer
  | some _ => .ok { memory with node := Function.update memory.node address none }

/-- The loop over the children; every round reads the node again. -/
def freeChildren (freeNode : Memory α → Option Nat → Except Fault (Memory α)) (address : Nat) :
    Nat → Nat → Memory α → Except Fault (Memory α)
  | 0, _, memory => .ok memory
  | count + 1, index, memory => do
    let node ← memory.read (some address)
    let child ← bounded (fetch node.children index)
    let memory ← freeNode memory child
    freeChildren freeNode address count (index + 1) memory

def freeNode : Nat → Memory α → Option Nat → Except Fault (Memory α)
  | _, memory, none => .ok memory
  | 0, _, some _ => .error .depth
  | depth + 1, memory, some address => do
    let node ← memory.read (some address)
    let memory ←
      if node.isLeaf then .ok memory
      else freeChildren (freeNode depth) address (node.keyCount + 1) 0 memory
    memory.free address

def bptreeFree (depth : Nat) (tree : Tree α) : Except Fault (Tree α) := do
  let memory ← freeNode depth tree.memory tree.root
  .ok { root := none, memory }

/-- The `while` loop of a search, a round for each level. -/
def findLeaf (memory : Memory α) (key : Int) : Nat → Option Nat → Except Fault (Option (Node α))
  | _, none => .ok none
  | 0, some _ => .error .depth
  | depth + 1, some address => do
    let node ← memory.read (some address)
    if node.isLeaf then .ok (some node)
    else
      let childIndex ← bounded (scanSlots (fun k => !decide (key ≥ k)) node.keys node.keyCount 0)
      let child ← bounded (fetch node.children childIndex)
      findLeaf memory key depth child

/-- The `for` loop of a search. -/
def searchLeaf (node : Node α) (key : Int) : Except BoundsFault (Option α) := do
  let index ← scanSlots (fun k => decide (k = key)) node.keys node.keyCount 0
  if index < node.keyCount then (fetch node.values index).map some else .ok none

def bptreeSearch (depth : Nat) (tree : Tree α) (key : Int) : Except Fault (Option α) := do
  let leaf ← findLeaf tree.memory key depth tree.root
  match leaf with
  | none => .ok none
  | some node => bounded (searchLeaf node key)

/-- The functions that `bptree.h` offers for a tree that was initialised. -/
inductive TreeCall (α : Type) where
  | insert (key : Int) (value : α)
  | search (key : Int)
  | free

inductive TreeReply (α : Type) where
  | inserted (answer : Except Bytes Unit)
  | found (value : Option α)
  | freed

/-- The root pointers of the trees of a process, whose nodes share one heap. -/
structure Forest (ν α : Type) where
  root : ν → Option Nat
  memory : Memory α

def Forest.init : Forest ν α := { root := fun _ => none, memory := { node := fun _ => none, used := 0 } }

variable [Inhabited α] [DecidableEq ν] (calloc : Nat → Bool) (depth : Nat)

def callTree (tree : Tree α) : TreeCall α → Except Fault (Tree α × TreeReply α)
  | .insert key value => do
    let (tree, answer) ← bptreeInsert calloc depth tree key value
    .ok (tree, .inserted answer)
  | .search key => do
    let value ← bptreeSearch depth tree key
    .ok (tree, .found value)
  | .free => do
    let tree ← bptreeFree depth tree
    .ok (tree, .freed)

def Forest.call (forest : Forest ν α) (name : ν) (call : TreeCall α) :
    Except Fault (Forest ν α × TreeReply α) := do
  let (tree, reply) ← callTree calloc depth { root := forest.root name, memory := forest.memory } call
  .ok ({ root := Function.update forest.root name tree.root, memory := tree.memory }, reply)

/-- Calls on any of the trees, one after another. -/
def Forest.run : List (ν × TreeCall α) → Forest ν α →
    Except Fault (Forest ν α × List (TreeReply α))
  | [], forest => .ok (forest, [])
  | (name, call) :: calls, forest => do
    let (forest, reply) ← forest.call calloc depth name call
    let (forest, replies) ← Forest.run calls forest
    .ok (forest, reply :: replies)

end DbApi.Index.BptreeHeap
