import Mathlib.Algebra.Ring.Nat
import Mathlib.Data.List.Basic
import Mathlib.Tactic.ByContra

/-!
# RtuA118.Lib.Wrapping

**Counts that wrap.** A signed register of `m` values holds `Int.bmod x m` of a count `x`;
`Int.bdiv x m` says how often the count has wrapped.

Two counts compare as their registers do when they have wrapped equally often. From this,
`findIdx?_bmod_iff`: among readings that never go back, the first whose register is above the
register of a bound is the first above the bound, just when no wrap comes in between.
-/

namespace RtuA118.Wrapping

variable {m : Nat} {x y bound : Int}

/-- Counts wrap in order. -/
theorem bdiv_le_bdiv (hm : 0 < m) (h : x ≤ y) : x.bdiv m ≤ y.bdiv m := by
  by_contra hlt
  have hx := Int.bmod_eq_self_sub_mul_bdiv x m
  have hy := Int.bmod_eq_self_sub_mul_bdiv y m
  have hxlo : -((m : Int) / 2) ≤ x.bmod m := Int.le_bmod hm
  have hyhi : y.bmod m < ((m : Int) + 1) / 2 := Int.bmod_lt hm
  have hstep : (m : Int) * (y.bdiv m + 1) ≤ m * x.bdiv m :=
    Int.mul_le_mul_of_nonneg_left (by omega) (by omega)
  rw [Int.mul_add] at hstep
  omega

/-- A count that is less than a round behind has wrapped as often, or once less. -/
theorem bdiv_le_add_one (hm : 0 < m) (h : y ≤ x + m) : y.bdiv m ≤ x.bdiv m + 1 := by
  have hround : (x + m).bdiv m = x.bdiv m + 1 := by
    have hmod : (x + m).bmod m = x.bmod m := Int.add_bmod_right x m
    have hx := Int.bmod_eq_self_sub_mul_bdiv x m
    have hxm := Int.bmod_eq_self_sub_mul_bdiv (x + m) m
    have hmul : (m : Int) * (x + m).bdiv m = m * (x.bdiv m + 1) := by
      rw [Int.mul_add]
      omega
    exact Int.eq_of_mul_eq_mul_left (by omega) hmul
  exact hround ▸ bdiv_le_bdiv hm h

/-- Registers compare as the counts less their wraps. -/
theorem bmod_lt_bmod_iff :
    bound.bmod m < x.bmod m ↔ bound + m * (x.bdiv m - bound.bdiv m) < x := by
  rw [Int.bmod_eq_self_sub_mul_bdiv, Int.bmod_eq_self_sub_mul_bdiv, Int.mul_sub]
  omega

theorem bmod_lt_bmod_of_bdiv_eq (h : x.bdiv m = bound.bdiv m) :
    bound.bmod m < x.bmod m ↔ bound < x := by
  rw [bmod_lt_bmod_iff, h, Int.sub_self, Int.mul_zero, Int.add_zero]

/-- Less than a round before the bound, a register is above the bound's where a wrap is between. -/
theorem bmod_lt_bmod_iff_of_le (hm : 0 < m) (hle : x ≤ bound) (hround : bound < x + m) :
    bound.bmod m < x.bmod m ↔ x.bdiv m ≠ bound.bdiv m := by
  have hdown := bdiv_le_bdiv hm hle
  have hup := bdiv_le_add_one hm (Int.le_of_lt hround)
  constructor
  · intro hcmp heq
    exact Int.not_lt.2 hle ((bmod_lt_bmod_of_bdiv_eq heq).1 hcmp)
  · intro hne
    have hless : x.bdiv m - bound.bdiv m = -1 := by omega
    rw [bmod_lt_bmod_iff, hless]
    omega

/-- No wrap comes between the first reading and the bound, and the first reading above the bound
is above it by more than the wraps in between. -/
structure Unwrapped (m : Nat) (bound : Int) (xs : List Int) : Prop where
  before : ∀ x ∈ xs.head?, x ≤ bound → x.bdiv m = bound.bdiv m
  after : ∀ x ∈ xs.find? (bound < ·), bound + m * (x.bdiv m - bound.bdiv m) < x

/-- **The first reading above the bound** is found by the registers just when the count does not
wrap. -/
theorem findIdx?_bmod_iff (hm : 0 < m) : ∀ {xs : List Int}, xs.Pairwise (· ≤ ·) →
    (∀ x ∈ xs.head?, bound < x + m) → (∃ x ∈ xs, bound < x) →
    (xs.findIdx? (fun x => decide (bound.bmod m < x.bmod m)) = xs.findIdx? (bound < ·) ↔
      Unwrapped m bound xs) := by
  intro xs
  induction xs with
  | nil => exact fun _ _ ⟨x, hx, _⟩ => absurd hx List.not_mem_nil
  | cons x xs ih =>
      intro hsorted hstart hlater
      have hle : ∀ y ∈ xs, x ≤ y := fun y hy => List.rel_of_pairwise_cons hsorted hy
      have hx : bound < x + m := hstart x rfl
      simp only [List.findIdx?_cons, decide_eq_true_eq]
      by_cases hlt : bound < x
      · -- the first reading is above already
        have hfind : (x :: xs).find? (bound < ·) = some x := by simp [hlt]
        rw [if_pos hlt]
        constructor
        · intro h
          have hcmp : bound.bmod m < x.bmod m := by
            by_contra hno
            rw [if_neg hno] at h
            simp at h
          refine ⟨fun y hy hyb => ?_, fun y hy => ?_⟩
          · obtain rfl := Option.some.inj hy
            omega
          · rw [hfind] at hy
            obtain rfl := Option.some.inj hy
            exact bmod_lt_bmod_iff.1 hcmp
        · intro h
          have hcmp : bound.bmod m < x.bmod m := bmod_lt_bmod_iff.2 (h.after x hfind)
          rw [if_pos hcmp]
      · -- it is not: the registers must say so too, and the rest follows by induction
        have hfind : (x :: xs).find? (bound < ·) = xs.find? (bound < ·) := by simp [hlt]
        have hcmp := bmod_lt_bmod_iff_of_le hm (Int.not_lt.1 hlt) hx
        have hrest := ih hsorted.of_cons
          (fun y hy => Int.lt_of_lt_of_le hx (by have := hle y (List.mem_of_head? hy); omega))
          (by simpa [hlt] using hlater)
        rw [if_neg hlt]
        constructor
        · intro h
          have hsame : x.bdiv m = bound.bdiv m := by
            by_contra hne
            rw [if_pos (hcmp.2 hne)] at h
            cases hidx : xs.findIdx? (bound < ·) with
            | none => simp [hidx] at h
            | some k => simp [hidx] at h
          rw [if_neg fun hc => hcmp.1 hc hsame] at h
          have hunwrapped := hrest.1 (Option.map_injective (fun _ _ => Nat.succ.inj) h)
          refine ⟨fun y hy _ => ?_, fun y hy => hunwrapped.after y (hfind ▸ hy)⟩
          obtain rfl := Option.some.inj hy
          exact hsame
        · intro h
          have hsame := h.before x rfl (Int.not_lt.1 hlt)
          rw [if_neg fun hc => hcmp.1 hc hsame]
          refine congrArg _ (hrest.2 ⟨fun y hy hyb => ?_, fun y hy => h.after y (hfind ▸ hy)⟩)
          -- a reading between the first one and the bound has wrapped as often as both
          have hxy := bdiv_le_bdiv hm (hle y (List.mem_of_head? hy))
          have hyb := bdiv_le_bdiv hm hyb
          omega

end RtuA118.Wrapping
