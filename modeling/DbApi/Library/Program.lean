import Mathlib

namespace DbApi.Library

/-- A sequential program over a shared state. An `access` reads and updates the
state in one step; anything may happen between two of them. -/
inductive Program (σ α : Type) where
  | done (value : α)
  | access (update : σ → σ) (next : σ → Program σ α)

namespace Program

variable {σ α β : Type}

def bind : Program σ α → (α → Program σ β) → Program σ β
  | done a, f => f a
  | access update next, f => access update (fun s => (next s).bind f)

instance : Monad (Program σ) where
  pure := done
  bind := bind

def atomic (f : σ → α × σ) : Program σ α := access (fun s => (f s).2) (fun s => done (f s).1)

def read (f : σ → α) : Program σ α := atomic (fun s => (f s, s))

def modify (f : σ → σ) : Program σ Unit := atomic (fun s => ((), f s))

/-- The run in which nobody else takes a step. -/
def run : Program σ α → σ → α × σ
  | done a, s => (a, s)
  | access update next, s => (next s).run (update s)

@[simp] theorem run_pure (a : α) (s : σ) : (pure a : Program σ α).run s = (a, s) := rfl

@[simp] theorem run_bind (p : Program σ α) (f : α → Program σ β) (s : σ) :
    (p >>= f).run s = (f (p.run s).1).run (p.run s).2 := by
  change (p.bind f).run s = _
  induction p generalizing s with
  | done a => rfl
  | access update next ih => exact ih s (update s)

@[simp] theorem run_atomic (f : σ → α × σ) (s : σ) : (atomic f).run s = f s := rfl

@[simp] theorem run_read (f : σ → α) (s : σ) : (read f).run s = (f s, s) := rfl

@[simp] theorem run_modify (f : σ → σ) (s : σ) : (modify f).run s = ((), f s) := rfl

end Program

end DbApi.Library
