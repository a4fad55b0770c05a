import DbApi.Library.Program

namespace DbApi.Library

/-- A state, and the events of the programs that have worked on it. -/
structure Recorded (σ ε : Type) where
  state : σ
  events : List ε

namespace Recorded

variable {σ ε α β : Type}

def record (event : ε) : Program (Recorded σ ε) Unit :=
  .modify fun r => { r with events := r.events ++ [event] }

/-- A program that leaves the events alone. -/
def silent : Program σ α → Program (Recorded σ ε) α
  | .done a => .done a
  | .access update next =>
    .access (fun r => { r with state := update r.state }) fun r => silent (next r.state)

/-- Without its events the program is this one. -/
def Erases (p : Program (Recorded σ ε) α) (plain : Program σ α) : Prop :=
  ∀ r, (p.run r).1 = (plain.run r.state).1 ∧ (p.run r).2.state = (plain.run r.state).2

/-- All events are among these, and the result is as it should be. -/
def Records (P : ε → Prop) (Q : α → Prop) (p : Program (Recorded σ ε) α) : Prop :=
  ∀ r, (∀ event ∈ r.events, P event) →
    (∀ event ∈ (p.run r).2.events, P event) ∧ Q (p.run r).1

theorem silent_run (p : Program σ α) (r : Recorded σ ε) :
    (silent p).run r = ((p.run r.state).1, { r with state := (p.run r.state).2 }) := by
  induction p generalizing r with
  | done a => rfl
  | access update next ih => exact ih r.state { r with state := update r.state }

theorem erases_silent (p : Program σ α) : Erases (silent (ε := ε) p) p := by
  intro r
  simp [silent_run]

theorem erases_pure (a : α) : Erases (pure a : Program (Recorded σ ε) α) (pure a) := by
  intro r
  simp

theorem Erases.bind {p : Program (Recorded σ ε) α} {plain : Program σ α}
    {f : α → Program (Recorded σ ε) β} {g : α → Program σ β} (hp : Erases p plain)
    (hf : ∀ a, Erases (f a) (g a)) : Erases (p >>= f) (plain >>= g) := by
  intro r
  obtain ⟨hvalue, hstate⟩ := hp r
  obtain ⟨hresult, hfinal⟩ := hf (p.run r).1 (p.run r).2
  rw [Program.run_bind, Program.run_bind, hresult, hfinal, hvalue, hstate]
  exact ⟨rfl, rfl⟩

/-- An event changes nothing else. -/
theorem Erases.record {p : Program (Recorded σ ε) α} {plain : Program σ α} (hp : Erases p plain)
    (event : ε) : Erases (Recorded.record event >>= fun _ => p) plain := by
  intro r
  rw [Program.run_bind]
  exact hp { r with events := r.events ++ [event] }

/-- A result that needs no more of the state is passed on. -/
theorem Erases.bind_pure {p : Program (Recorded σ ε) α} {a : α} {f : α → Program (Recorded σ ε) β}
    {plain : Program σ β} (hp : Erases p (pure a)) (hf : Erases (f a) plain) :
    Erases (p >>= f) plain := by
  intro r
  obtain ⟨hvalue, hstate⟩ := hp r
  rw [Program.run_pure] at hvalue hstate
  have hrest := hf (p.run r).2
  rw [hstate] at hrest
  rw [Program.run_bind, hvalue]
  exact hrest

variable {P : ε → Prop} {Q : α → Prop} {R : β → Prop}

theorem records_pure {a : α} (h : Q a) : Records P Q (pure a : Program (Recorded σ ε) α) := by
  intro r hr
  exact ⟨hr, h⟩

theorem records_silent {p : Program σ α} (h : ∀ s, Q (p.run s).1) :
    Records P Q (silent (ε := ε) p) := by
  intro r hr
  rw [silent_run]
  exact ⟨hr, h r.state⟩

theorem records_record {event : ε} (h : P event) :
    Records P (fun _ => True) (record event : Program (Recorded σ ε) Unit) := by
  intro r hr
  refine ⟨?_, trivial⟩
  intro other hother
  rcases List.mem_append.mp hother with hbefore | hnew
  · exact hr other hbefore
  · rw [List.mem_singleton.mp hnew]
    exact h

theorem Records.bind {p : Program (Recorded σ ε) α} {f : α → Program (Recorded σ ε) β}
    (hp : Records P Q p) (hf : ∀ a, Q a → Records P R (f a)) : Records P R (p >>= f) := by
  intro r hr
  obtain ⟨hevents, hvalue⟩ := hp r hr
  rw [Program.run_bind]
  exact hf _ hvalue _ hevents

/-- The results are those of the plain program. -/
theorem Records.value {S : α → Prop} {p : Program (Recorded σ ε) α} {plain : Program σ α}
    (hp : Records P Q p) (he : Erases p plain) (h : ∀ s, S (plain.run s).1) : Records P S p := by
  intro r hr
  refine ⟨(hp r hr).1, ?_⟩
  rw [(he r).1]
  exact h r.state

end Recorded

end DbApi.Library
