import DbApi.Library.System

namespace DbApi.Library

/-- A first-in-first-out queue that can be closed to new items. -/
structure Fifo (α : Type) where
  contents : List α
  closed : Bool

inductive FifoEvent (α : Type) where
  | accept (a : α)
  | remove (a : α)
  | close
  /-- Nothing happens to the queue. -/
  | quiet

inductive FifoStep {α : Type} (capacity : Nat) : Fifo α → FifoEvent α → Fifo α → Prop where
  | accept {contents : List α} {a : α} (room : contents.length < capacity) :
    FifoStep capacity ⟨contents, false⟩ (.accept a) ⟨contents ++ [a], false⟩
  | remove {contents : List α} {a : α} {closed : Bool} :
    FifoStep capacity ⟨a :: contents, closed⟩ (.remove a) ⟨contents, closed⟩
  | close {contents : List α} {closed : Bool} :
    FifoStep capacity ⟨contents, closed⟩ .close ⟨contents, true⟩
  | quiet {s : Fifo α} : FifoStep capacity s .quiet s

def fifoSystem (α : Type) (capacity : Nat) : System (Fifo α) (FifoEvent α) where
  initial s := s = ⟨[], false⟩
  step := FifoStep capacity

namespace FifoEvent

variable {α : Type} {capacity : Nat} {events before after : List (FifoEvent α)} {s : Fifo α}

def accepted : FifoEvent α → Option α
  | accept a => some a
  | _ => none

theorem length_le (h : (fifoSystem α capacity).Run events s) : s.contents.length ≤ capacity := by
  induction h with
  | start initial =>
    cases initial
    exact Nat.zero_le _
  | next run step ih =>
    cases step with
    | accept room =>
      rw [List.length_append]
      exact room
    | remove => exact (Nat.le_succ _).trans ih
    | close => exact ih
    | quiet => exact ih

end FifoEvent

end DbApi.Library
