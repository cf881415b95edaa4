import Mathlib.Data.List.GetD
import Mathlib.Logic.Function.Basic

/-!
# RtuA118.Lib.View

Two runs over one received prefix. A buffer is a function from offsets; what a
program reads from it should depend on the bytes it received, the first `n`.

`AgreesOn frame q` says that buffer `q` starts with the bytes of `frame`;
`extend` is the buffer with given bytes after the frame. A value a program
computes from a buffer is **settled** by the frame when every two buffers that
start with the frame give the same one.
-/

namespace RtuA118.View

variable {α β : Type}

/-- The buffer starts with the frame. -/
def AgreesOn (frame : List α) (q : Nat → α) : Prop := ∀ i (h : i < frame.length), q i = frame[i]

/-- The frame, and after it the bytes of `g`. -/
def extend (frame : List α) (g : Nat → α) : Nat → α := fun i => frame.getD i (g i)

/-- The frame alone decides the value. -/
def Settled (frame : List α) (F : (Nat → α) → β) : Prop :=
  ∀ q q', AgreesOn frame q → AgreesOn frame q' → F q = F q'

theorem AgreesOn.eq {frame : List α} {q q' : Nat → α} (h : AgreesOn frame q)
    (h' : AgreesOn frame q') {i : Nat} (hi : i < frame.length) : q i = q' i :=
  (h i hi).trans (h' i hi).symm

theorem AgreesOn.getD {frame : List α} {q : Nat → α} (h : AgreesOn frame q) {i : Nat} {d : α}
    (hi : i < frame.length) : q i = frame.getD i d := by
  rw [h i hi, List.getD_eq_getElem _ _ hi]

/-- The frame is what the buffer starts with. -/
theorem AgreesOn.map_range {frame : List α} {q : Nat → α} (h : AgreesOn frame q) :
    (List.range frame.length).map q = frame := by
  refine List.ext_getElem (by simp) fun i hi hi' => ?_
  simp [h i hi']

theorem agreesOn_extend (frame : List α) (g : Nat → α) : AgreesOn frame (extend frame g) :=
  fun _ hi => List.getD_eq_getElem _ _ hi

theorem extend_of_lt {frame : List α} {g : Nat → α} {i : Nat} (d : α) (hi : i < frame.length) :
    extend frame g i = frame.getD i d := by
  unfold extend
  rw [List.getD_eq_getElem _ _ hi, List.getD_eq_getElem _ _ hi]

theorem extend_of_ge {frame : List α} {g : Nat → α} {i : Nat} (hi : frame.length ≤ i) :
    extend frame g i = g i := by
  unfold extend
  rw [List.getD_eq_default _ _ hi]

/-- A buffer that starts with the frame is the frame and what follows. -/
theorem AgreesOn.extend_eq {frame : List α} {q : Nat → α} (h : AgreesOn frame q) :
    extend frame q = q := by
  funext i
  by_cases hi : i < frame.length
  · exact (h.getD hi).symm
  · exact extend_of_ge (Nat.le_of_not_lt hi)

/-- A byte behind the frame does not matter to it. -/
theorem AgreesOn.update {frame : List α} {q : Nat → α} (h : AgreesOn frame q) {i : Nat} (v : α)
    (hi : frame.length ≤ i) : AgreesOn frame (Function.update q i v) := by
  intro k hk
  rw [Function.update_of_ne (by omega)]
  exact h k hk

end RtuA118.View
