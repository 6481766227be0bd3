/-!
Sequences of steps that a fault can stop: what was done before it stays.
-/

namespace SatLab

/-- What was reached, and the fault that stopped it there, if any. -/
structure Reached (ε α : Type) where
  value : α
  fault : Option ε

namespace Reached

/-- All that was to be done is done. -/
def done {ε α : Type} (value : α) : Reached ε α := { value, fault := none }

def stopped {ε α : Type} (value : α) (fault : ε) : Reached ε α := { value, fault := some fault }

/-- Takes steps in order, up to the first one that cannot be taken. -/
def steps {ε α : Type} (value : α) : List (α → Except ε α) → Reached ε α
  | [] => done value
  | step :: rest =>
    match step value with
    | .ok next => steps next rest
    | .error fault => stopped value fault

/-- Goes on from what was reached unless a fault stopped it. -/
def bind {ε α : Type} (r : Reached ε α) (next : α → Reached ε α) : Reached ε α :=
  match r.fault with
  | none => next r.value
  | some _ => r

@[simp] theorem done_bind {ε α : Type} (value : α) (next : α → Reached ε α) :
    (done value : Reached ε α).bind next = next value := rfl

theorem bind_of_none {ε α : Type} {r : Reached ε α} (h : r.fault = none)
    (next : α → Reached ε α) : r.bind next = next r.value := by
  rw [bind, h]

theorem bind_of_fault {ε α : Type} {r : Reached ε α} (h : r.fault ≠ none)
    (next : α → Reached ε α) : r.bind next = r := by
  unfold bind
  split
  · contradiction
  · rfl

theorem eq_done {ε α : Type} {r : Reached ε α} (h : r.fault = none) : r = done r.value := by
  rw [done, ← h]

theorem bind_eq_done {ε α : Type} {r : Reached ε α} {next : α → Reached ε α} {last : α} :
    r.bind next = done last ↔ ∃ value, r = done value ∧ next value = done last := by
  constructor
  · intro h
    cases hFault : r.fault with
    | none => exact ⟨r.value, eq_done hFault, by rwa [bind_of_none hFault] at h⟩
    | some fault =>
        rw [bind_of_fault (by simp [hFault])] at h
        rw [h] at hFault
        cases hFault
  · rintro ⟨value, rfl, h⟩
    exact h

end Reached

end SatLab
