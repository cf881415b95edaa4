import Mathlib.Data.List.Basic

/-!
# RtuA118.Lib.Interpolate

Series with **inserted points**: a series of measurements, widened one point at a time,
each new point being the mean of the two it comes between. Behind the last point there
is no right neighbour, and the first point stands in.

`Filled.insertAt` is the rule for an array with a moving position; what it gives at the
end is that the measurements are still there, in order (`Filled.sublist`).
-/

namespace RtuA118.Interpolate

variable {α : Type} {f : α → α → α} {xs ys : List α}

/-- The second series is the first with points inserted. -/
inductive Filled (f : α → α → α) (xs : List α) : List α → Prop where
  | measured : Filled f xs xs
  | between {pre post : List α} {a b : α} :
    Filled f xs (pre ++ a :: b :: post) → Filled f xs (pre ++ a :: f a b :: b :: post)
  | behind {ys : List α} {a b : α} :
    Filled f xs ys → ys.head? = some a → ys.getLast? = some b → Filled f xs (ys ++ [f b a])

theorem Filled.sublist (h : Filled f xs ys) : xs.Sublist ys := by
  induction h with
  | measured => exact .refl _
  | between _ ih => exact ih.trans (.append (.refl _) (.cons_cons _ (.cons _ (.refl _))))
  | behind _ _ _ ih => exact ih.trans (List.sublist_append_left _ _)

/-- A point inserted at a position behind the first. -/
theorem Filled.insertAt {p : Nat} {a b : α} (h : Filled f xs ys) (hp : 1 ≤ p)
    (ha : ys[p - 1]? = some a) (hb : ys[if p < ys.length then p else 0]? = some b) :
    Filled f xs (ys.take p ++ f a b :: ys.drop p) := by
  obtain ⟨q, rfl⟩ := Nat.exists_eq_add_of_le' hp
  rw [Nat.add_sub_cancel] at ha
  obtain ⟨hq, rfl⟩ := List.getElem?_eq_some_iff.mp ha
  rw [List.take_succ_eq_append_getElem hq]
  split at hb
  · -- between two points
    rename_i hlt
    obtain ⟨-, rfl⟩ := List.getElem?_eq_some_iff.mp hb
    rw [List.append_assoc, List.singleton_append, List.drop_eq_getElem_cons hlt]
    refine .between ?_
    rw [← List.drop_eq_getElem_cons hlt, ← List.drop_eq_getElem_cons hq, List.take_append_drop]
    exact h
  · -- behind the last one
    rename_i hge
    have hlen : ys.length = q + 1 := by omega
    rw [List.drop_eq_nil_of_le (Nat.le_of_eq hlen), ← List.take_succ_eq_append_getElem hq,
      List.take_of_length_le (Nat.le_of_eq hlen)]
    refine .behind h ?_ ?_
    · rw [← hb, List.head?_eq_getElem?]
    · rw [List.getLast?_eq_getElem?, hlen]
      exact ha

end RtuA118.Interpolate
