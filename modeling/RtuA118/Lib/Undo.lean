import Mathlib.Data.List.GetD

/-!
# RtuA118.Lib.Undo

**Updates that can be undone.** A step combines one entry of a list with what it computes from the
others, so the same computation is there to undo it (`update_update`); steps are undone in the
reverse of their order (`foldl_undo`).
-/

namespace RtuA118.Undo

variable {α β ι σ : Type}

/-- What is done in an order is undone in the reverse of it. -/
theorem foldl_undo {f g : σ → ι → σ} {P : σ → Prop} {l : List ι}
    (hkeep : ∀ i ∈ l, ∀ s, P s → P (f s i)) (hundo : ∀ i ∈ l, ∀ s, P s → g (f s i) i = s)
    {s : σ} (hs : P s) : l.reverse.foldl g (l.foldl f s) = s := by
  induction l generalizing s with
  | nil => rfl
  | cons i l ih =>
      obtain ⟨hi, hl⟩ := List.forall_mem_cons.1 hkeep
      obtain ⟨hui, hul⟩ := List.forall_mem_cons.1 hundo
      rw [List.foldl_cons, List.reverse_cons, List.foldl_append, ih hl hul (hi s hs),
        List.foldl_cons, List.foldl_nil, hui s hs]

theorem foldl_keep {f : σ → ι → σ} {P : σ → Prop} {l : List ι}
    (hkeep : ∀ i ∈ l, ∀ s, P s → P (f s i)) {s : σ} (hs : P s) : P (l.foldl f s) := by
  induction l generalizing s with
  | nil => exact hs
  | cons i l ih =>
      obtain ⟨hi, hl⟩ := List.forall_mem_cons.1 hkeep
      exact ih hl (hi s hs)

/-- An entry is combined with what `mix` computes from the list. -/
def update (d : α) (op : α → β → α) (mix : Nat → List α → β) (v : List α) (p : Nat) : List α :=
  v.set p (op (v.getD p d) (mix p v))

variable {d : α} {op op' : α → β → α} {mix : Nat → List α → β} {valid : α → Prop}

@[simp] theorem update_length (v : List α) (p : Nat) :
    (update d op mix v p).length = v.length := List.length_set

theorem update_valid (hop : ∀ a b, valid (op a b)) {v : List α} (hv : ∀ a ∈ v, valid a) (p : Nat) :
    ∀ a ∈ update d op mix v p, valid a := by
  intro a ha
  rcases List.mem_or_eq_of_mem_set ha with ha | rfl
  · exact hv a ha
  · exact hop _ _

/-- **An update is undone** by the same computation, where that does not read the entry. -/
theorem update_update {v : List α} {p : Nat} (hp : p < v.length) (hv : ∀ a ∈ v, valid a)
    (hmix : ∀ a, mix p (v.set p a) = mix p v) (hcancel : ∀ a b, valid a → op' (op a b) b = a) :
    update d op' mix (update d op mix v p) p = v := by
  have hentry : v.getD p d = v[p] := List.getD_eq_getElem v d hp
  have hset : (v.set p (op v[p] (mix p v))).getD p d = op v[p] (mix p v) := by
    rw [List.getD_eq_getElem _ d (by rwa [List.length_set]), List.getElem_set_self]
  rw [update, update, hentry, hmix, hset, hcancel _ _ (hv _ (List.getElem_mem hp)), List.set_set,
    List.set_getElem_self]

end RtuA118.Undo
