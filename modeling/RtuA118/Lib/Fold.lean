import Mathlib.Data.List.Nodup

/-!
# RtuA118.Lib.Fold

Loops as left folds, seen through a **view** of the state. Where every turn but one
leaves the view alone, the loop does to the view what that turn does
(`foldl_once`), whichever order the turns come in.
-/

namespace RtuA118.Fold

variable {σ α τ : Type} {f : σ → α → σ} {l : List α}

/-- A view that every turn leaves alone. -/
theorem foldl_keep {I : σ → Prop} {v : σ → τ} {s : σ} (hs : I s)
    (h : ∀ s, ∀ r ∈ l, I s → I (f s r)) (hv : ∀ s, ∀ r ∈ l, I s → v (f s r) = v s) :
    v (l.foldl f s) = v s := by
  have hboth : I (l.foldl f s) ∧ v (l.foldl f s) = v s :=
    List.foldlRecOn (motive := fun t => I t ∧ v t = v s) l f ⟨hs, rfl⟩ fun t ht r hr =>
      ⟨h t r hr ht.1, (hv t r hr ht.1).trans ht.2⟩
  exact hboth.2

/-- A view that one turn changes, and no other. -/
theorem foldl_once {I : σ → Prop} {v : σ → τ} {g : τ → τ} {r : α} {s : σ} (hnd : l.Nodup)
    (hr : r ∈ l) (hs : I s) (h : ∀ s, ∀ r ∈ l, I s → I (f s r))
    (hkeep : ∀ s, ∀ r' ∈ l, r' ≠ r → I s → v (f s r') = v s)
    (hone : ∀ s, I s → v (f s r) = g (v s)) :
    v (l.foldl f s) = g (v s) := by
  obtain ⟨pre, post, rfl⟩ := List.append_of_mem hr
  have hmem : ∀ r', r' ∈ pre ∨ r' ∈ post → r' ∈ pre ++ r :: post ∧ r' ≠ r := by
    have hnot := (List.nodup_middle.1 hnd).notMem
    intro r' hr'
    refine ⟨by simp; tauto, fun heq => hnot ?_⟩
    rw [← heq, List.mem_append]
    exact hr'
  have hpre : I (pre.foldl f s) :=
    List.foldlRecOn pre f hs fun t ht r' hr' => h t r' (hmem r' (.inl hr')).1 ht
  rw [List.foldl_append, List.foldl_cons]
  calc v (post.foldl f (f (pre.foldl f s) r))
      = v (f (pre.foldl f s) r) :=
        foldl_keep (h _ r hr hpre) (fun t r' hr' => h t r' (hmem r' (.inr hr')).1) fun t r' hr' =>
          hkeep t r' (hmem r' (.inr hr')).1 (hmem r' (.inr hr')).2
    _ = g (v (pre.foldl f s)) := hone _ hpre
    _ = g (v s) := by
        congr 1
        exact foldl_keep hs (fun t r' hr' => h t r' (hmem r' (.inl hr')).1) fun t r' hr' =>
          hkeep t r' (hmem r' (.inl hr')).1 (hmem r' (.inl hr')).2

/-- What one turn brings about and the others keep holds after the loop. -/
theorem foldl_brings {Q : σ → Prop} {r : α} {s : σ} (hr : r ∈ l) (hone : ∀ s, Q (f s r))
    (hkeep : ∀ s, ∀ r' ∈ l, r' ≠ r → Q s → Q (f s r')) : Q (l.foldl f s) := by
  obtain ⟨pre, post, rfl⟩ := List.append_of_mem hr
  rw [List.foldl_append, List.foldl_cons]
  refine List.foldlRecOn post f (hone _) fun t ht r' hr' => ?_
  by_cases heq : r' = r
  · exact heq ▸ hone t
  · exact hkeep t r' (by simp [hr']) heq ht

end RtuA118.Fold
