import Mathlib.Data.List.Induction

/-! # Runs of a partial step function

A step function maps a state and an operation to the next state, or to none when
it refuses the operation.  A run starts in a given state and takes accepted
steps, each of them allowed by a condition on the state before it and the
operation.  An invariant of the allowed steps is one of every run. -/

namespace Runs

variable {σ ο : Type} (step : σ → ο → Option σ) (allowed : σ → ο → Bool)

/-- The states reached from `start`. -/
inductive Run (start : σ) : σ → Prop where
  | refl : Run start start
  | snoc {s s' : σ} (op : ο) : Run start s → allowed s op = true → step s op = some s' →
      Run start s'

/-- The state after a list of operations, none when one is refused or not allowed. -/
def execute (s : σ) : List ο → Option σ
  | [] => some s
  | op :: rest =>
    if allowed s op then
      match step s op with
      | some s' => execute s' rest
      | none => none
    else none

variable {step allowed}

theorem Run.trans {s t u : σ} (first : Run step allowed s t) (second : Run step allowed t u) :
    Run step allowed s u := by
  induction second with
  | refl => exact first
  | snoc op _ may steps ih => exact ih.snoc op may steps

theorem Run.head {s t u : σ} {op : ο} (may : allowed s op = true) (steps : step s op = some t)
    (rest : Run step allowed t u) : Run step allowed s u :=
  Run.trans (Run.refl.snoc op may steps) rest

theorem run_of_execute {s t : σ} {ops : List ο} (runs : execute step allowed s ops = some t) :
    Run step allowed s t := by
  induction ops generalizing s with
  | nil =>
    obtain rfl := Option.some.inj runs
    exact Run.refl
  | cons op rest ih =>
    rw [execute] at runs
    split at runs
    · rename_i may
      cases steps : step s op with
      | none => simp [steps] at runs
      | some s' =>
        simp only [steps] at runs
        exact Run.head may steps (ih runs)
    · cases runs

/-- A run is found by executing a list of operations and observing the last state. -/
theorem exists_run_of_execute {β : Type} {s : σ} {ops : List ο} {observe : σ → Option β} {value : β}
    (observed : (execute step allowed s ops).bind observe = some value) :
    ∃ t, Run step allowed s t ∧ observe t = some value := by
  obtain ⟨t, runs, seen⟩ := Option.bind_eq_some_iff.mp observed
  exact ⟨t, run_of_execute runs, seen⟩

/-- What holds at the start and is kept by every allowed step holds after every run. -/
theorem Run.invariant {start s : σ} (Inv : σ → Prop) (run : Run step allowed start s)
    (initial : Inv start)
    (kept : ∀ s op s', Inv s → allowed s op = true → step s op = some s' → Inv s') : Inv s := by
  induction run with
  | refl => exact initial
  | snoc op _ may steps ih => exact kept _ op _ ih may steps

/-- A loop that may stop: what holds before it and is kept by every step, as a statement
about the operations done so far, holds of all of them at the end. -/
theorem foldlM_scan_some {start s : σ} {ops : List ο} (Inv : List ο → σ → Prop)
    (runs : ops.foldlM step start = some s) (initial : Inv [] start)
    (kept : ∀ done op s s', Inv done s → step s op = some s' → Inv (done ++ [op]) s') :
    Inv ops s := by
  induction ops using List.reverseRecOn generalizing s with
  | nil =>
    obtain rfl := Option.some.inj runs
    exact initial
  | append_singleton done op ih =>
    rw [List.foldlM_append] at runs
    obtain ⟨before, reached, last⟩ := Option.bind_eq_some_iff.mp runs
    rw [List.foldlM_cons] at last
    obtain ⟨after, steps, rest⟩ := Option.bind_eq_some_iff.mp last
    obtain rfl := Option.some.inj rest
    exact kept done op before after (ih reached) steps

end Runs
