import Mathlib.Logic.Relation

/-!
# RtuA118.Lib.Run

**Runs** of a transition system: states, labelled steps, and the states reached
from an initial one. A condition on steps is part of the system
(`guarded`), so a property of every run whose steps meet the condition is an
invariant of the guarded system.
-/

namespace RtuA118.Run

variable {σ α : Type}

/-- The states reached from `init` by `step`. -/
inductive Reach (init : σ → Prop) (step : σ → α → σ → Prop) : σ → Prop where
  | start {s : σ} : init s → Reach init step s
  | step {s s' : σ} {a : α} : Reach init step s → step s a s' → Reach init step s'

/-- The steps that meet a condition on the state before and the label. -/
def guarded (guard : σ → α → Prop) (step : σ → α → σ → Prop) (s : σ) (a : α) (s' : σ) : Prop :=
  guard s a ∧ step s a s'

/-- Any number of steps. -/
def Steps (step : σ → α → σ → Prop) : σ → σ → Prop :=
  Relation.ReflTransGen fun s s' => ∃ a, step s a s'

theorem Steps.one {step : σ → α → σ → Prop} {s s' : σ} {a : α} (h : step s a s') :
    Steps step s s' :=
  .single ⟨a, h⟩

theorem Steps.trans {step : σ → α → σ → Prop} {s s' s'' : σ} (h : Steps step s s')
    (h' : Steps step s' s'') : Steps step s s'' :=
  Relation.ReflTransGen.trans h h'

theorem Reach.steps {init : σ → Prop} {step : σ → α → σ → Prop} {s s' : σ} (h : Reach init step s)
    (hs : Steps step s s') : Reach init step s' := by
  induction hs with
  | refl => exact h
  | tail _ ha ih =>
      obtain ⟨a, ha⟩ := ha
      exact .step ih ha

/-- A system whose every step is some steps of another reaches only what the
other reaches. -/
theorem Reach.refine {β : Type} {init : σ → Prop} {step : σ → α → σ → Prop} {init' : σ → Prop}
    {step' : σ → β → σ → Prop} (hinit : ∀ s, init s → Reach init' step' s)
    (hstep : ∀ s a s', step s a s' → Reach init' step' s → Reach init' step' s') {s : σ}
    (h : Reach init step s) : Reach init' step' s := by
  induction h with
  | start hs => exact hinit _ hs
  | step _ ha ih => exact hstep _ _ _ ha ih

/-- What holds initially and is kept by every step holds in every state reached. -/
theorem Reach.invariant {init : σ → Prop} {step : σ → α → σ → Prop} {P : σ → Prop}
    (hinit : ∀ s, init s → P s) (hstep : ∀ s a s', P s → step s a s' → P s') {s : σ}
    (h : Reach init step s) : P s := by
  induction h with
  | start hs => exact hinit _ hs
  | step _ ha ih => exact hstep _ _ _ ih ha

/-- A state reached under more conditions is reached under fewer. -/
theorem Reach.mono {init : σ → Prop} {step step' : σ → α → σ → Prop}
    (hsub : ∀ s a s', step s a s' → step' s a s') {s : σ} (h : Reach init step s) :
    Reach init step' s := by
  induction h with
  | start hs => exact .start hs
  | step _ ha ih => exact .step ih (hsub _ _ _ ha)

/-- A guarded run is a run. -/
theorem Reach.of_guarded {init : σ → Prop} {guard : σ → α → Prop} {step : σ → α → σ → Prop} {s : σ}
    (h : Reach init (guarded guard step) s) : Reach init step s :=
  h.mono fun _ _ _ ha => ha.2

theorem Steps.of_guarded {guard : σ → α → Prop} {step : σ → α → σ → Prop} {s s' : σ}
    (h : Steps (guarded guard step) s s') : Steps step s s' := by
  induction h with
  | refl => exact .refl
  | tail _ hstep ih =>
      obtain ⟨a, -, ha⟩ := hstep
      exact ih.trans (.one ha)

/-- What every step keeps, any number of steps keep. -/
theorem Steps.invariant {step : σ → α → σ → Prop} {P : σ → Prop}
    (hstep : ∀ s a s', P s → step s a s' → P s') {s s' : σ} (h : Steps step s s') (hs : P s) :
    P s' := by
  induction h with
  | refl => exact hs
  | tail _ ha ih =>
      obtain ⟨a, ha⟩ := ha
      exact hstep _ _ _ ih ha

/-- A run with its labels. -/
inductive Trace (step : σ → α → σ → Prop) : σ → List α → σ → Prop where
  | nil (s : σ) : Trace step s [] s
  | cons {s s' s'' : σ} {a : α} {as : List α} :
      step s a s' → Trace step s' as s'' → Trace step s (a :: as) s''

namespace Trace

variable {step : σ → α → σ → Prop} {s s' : σ} {as : List α}

/-- What every step keeps, a run keeps. -/
theorem invariant {P : σ → Prop} (hstep : ∀ s a s', P s → step s a s' → P s')
    (h : Trace step s as s') (hs : P s) : P s' := by
  induction h with
  | nil => exact hs
  | cons ha _ ih => exact ih (hstep _ _ _ hs ha)

theorem mono {step' : σ → α → σ → Prop} (hsub : ∀ s a s', a ∈ as → step s a s' → step' s a s')
    (h : Trace step s as s') : Trace step' s as s' := by
  induction h with
  | nil => exact .nil _
  | cons ha _ ih =>
      exact .cons (hsub _ _ _ List.mem_cons_self ha)
        (ih fun _ _ _ hmem => hsub _ _ _ (List.mem_cons_of_mem _ hmem))

/-- Conditions on the labels are conditions on the steps. -/
theorem guard_labels {p : α → Prop} (hp : ∀ a ∈ as, p a) (h : Trace step s as s') :
    Trace (guarded (fun _ a => p a) step) s as s' :=
  h.mono fun _ _ _ hmem ha => ⟨hp _ hmem, ha⟩

/-- A count that some steps lower, and that no step raises. -/
theorem countdown {f : σ → Nat} {l : α → Bool}
    (hdown : ∀ s a s', step s a s' → l a = true → f s' ≤ f s - 1)
    (hkeep : ∀ s a s', step s a s' → l a = false → f s' ≤ f s) (h : Trace step s as s') :
    f s' ≤ f s - as.countP l := by
  induction h with
  | nil => exact Nat.le_refl _
  | cons ha _ ih =>
      rw [List.countP_cons]
      split
      · rename_i hl
        have hless := hdown _ _ _ ha hl
        omega
      · rename_i hl
        have hsame := hkeep _ _ _ ha (eq_false_of_ne_true hl)
        omega

end Trace

end RtuA118.Run
