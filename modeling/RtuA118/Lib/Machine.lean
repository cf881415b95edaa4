import Mathlib.Logic.Basic

/-!
# RtuA118.Lib.Machine

**Deterministic machines**: a state has one next state or is done with a result.

`RunsTo` counts the steps, `Returns` is a run that ends. A run goes through one sequence of
states, so what happens after a state on the way decides what happens from the start
(`RunsTo.returns_iff`); an invariant under which there is always a next state rules a return
out (`not_returns_of_invariant`).
-/

namespace RtuA118.Machine

variable {σ ρ : Type}

/-- `n` steps lead from the first state to the second. -/
inductive RunsTo (step : σ → σ ⊕ ρ) : Nat → σ → σ → Prop where
  | zero (s : σ) : RunsTo step 0 s s
  | succ {n : Nat} {s t u : σ} : step s = .inl t → RunsTo step n t u → RunsTo step (n + 1) s u

/-- Some number of steps leads to a state that is done with `r`. -/
def Returns (step : σ → σ ⊕ ρ) (s : σ) (r : ρ) : Prop := ∃ n t, RunsTo step n s t ∧ step t = .inr r

variable {step : σ → σ ⊕ ρ}

namespace RunsTo

theorem one {s t : σ} (h : step s = .inl t) : RunsTo step 1 s t := .succ h (.zero t)

theorem trans {n k : Nat} {s t u : σ} (h : RunsTo step n s t) (h' : RunsTo step k t u) :
    RunsTo step (n + k) s u := by
  induction h with
  | zero _ => rwa [Nat.zero_add]
  | succ hs _ ih =>
      rw [Nat.add_right_comm]
      exact .succ hs (ih h')

/-- What holds at first and is kept by every step holds all the way. -/
theorem invariant {P : σ → Prop} (hstep : ∀ s t, P s → step s = .inl t → P t) {n : Nat} {s t : σ}
    (h : RunsTo step n s t) (hs : P s) : P t := by
  induction h with
  | zero _ => exact hs
  | succ hst _ ih => exact ih (hstep _ _ hs hst)

end RunsTo

theorem returns_of_inr {s : σ} {r : ρ} (h : step s = .inr r) : Returns step s r :=
  ⟨0, s, .zero s, h⟩

theorem returns_iff_of_inl {s t : σ} (h : step s = .inl t) {r : ρ} :
    Returns step s r ↔ Returns step t r := by
  constructor
  · rintro ⟨n, u, hrun, hr⟩
    cases hrun with
    | zero _ => simp [h] at hr
    | succ hs hrun =>
        obtain rfl := Sum.inl.inj (h.symm.trans hs)
        exact ⟨_, u, hrun, hr⟩
  · rintro ⟨n, u, hrun, hr⟩
    exact ⟨n + 1, u, .succ h hrun, hr⟩

theorem RunsTo.returns_iff {n : Nat} {s t : σ} (h : RunsTo step n s t) {r : ρ} :
    Returns step s r ↔ Returns step t r := by
  induction h with
  | zero _ => exact Iff.rfl
  | succ hs _ ih => exact (returns_iff_of_inl hs).trans ih

theorem returns_inr_iff {s : σ} {r r' : ρ} (h : step s = .inr r) : Returns step s r' ↔ r' = r := by
  constructor
  · rintro ⟨n, u, hrun, hr⟩
    cases hrun with
    | zero _ => exact Sum.inr.inj (hr.symm.trans h)
    | succ hs _ => simp [h] at hs
  · rintro rfl
    exact returns_of_inr h

/-- Where there is always a next state, there is no return. -/
theorem not_returns_of_invariant {P : σ → Prop} (hstep : ∀ s, P s → ∃ t, step s = .inl t ∧ P t)
    {s : σ} (hs : P s) (r : ρ) : ¬ Returns step s r := by
  rintro ⟨n, t, hrun, hr⟩
  have ht : P t := hrun.invariant (fun u v hu huv => by
    obtain ⟨w, hw, hP⟩ := hstep u hu
    obtain rfl := Sum.inl.inj (huv.symm.trans hw)
    exact hP) hs
  obtain ⟨u, hu, -⟩ := hstep t ht
  simp [hu] at hr

end RtuA118.Machine
