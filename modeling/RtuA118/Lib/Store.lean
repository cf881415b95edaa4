import Mathlib.Logic.Function.Basic
import Mathlib.Data.List.GetD

/-!
# RtuA118.Lib.Store

A **flat store**: an array addressed by a natural number, as a total function.
A C pointer into the array is an offset, so `p[i]` of a pointer `p = base + k`
is the cell `k + i`, and a write past one block lands in the next one exactly
as it does in memory.

Single writes are `Function.update`. This module adds the two block operations
(`copy` for `memcpy`, `fill` for `memset`) and `overlay`, a sequence of writes
in order. The two facts about `overlay` everything else rests on:

* a cell no write names keeps its content (`overlay_of_not_mem`);
* a cell some write names no longer depends on what was there before
  (`overlay_congr_of_mem`).
-/

namespace RtuA118.Store

variable {α β : Type}

/-! ### Block operations -/

/-- `memcpy(f + dst, f + src, len)`. -/
def copy (dst src len : Nat) (f : Nat → α) : Nat → α := fun i =>
  if dst ≤ i ∧ i < dst + len then f (src + (i - dst)) else f i

/-- `memset(f + dst, v, len)`, in units of the array's cells. -/
def fill (dst len : Nat) (v : α) (f : Nat → α) : Nat → α := fun i =>
  if dst ≤ i ∧ i < dst + len then v else f i

theorem copy_of_not_mem {dst src len i : Nat} {f : Nat → α}
    (h : ¬ (dst ≤ i ∧ i < dst + len)) : copy dst src len f i = f i := by
  unfold copy
  rw [if_neg h]

theorem copy_of_lt {dst src len i : Nat} {f : Nat → α} (h : i < dst) :
    copy dst src len f i = f i :=
  copy_of_not_mem fun hi => Nat.not_le.2 h hi.1

theorem copy_of_mem {dst src len k : Nat} {f : Nat → α} (h : k < len) :
    copy dst src len f (dst + k) = f (src + k) := by
  unfold copy
  rw [if_pos (by omega), Nat.add_sub_cancel_left]

theorem fill_of_not_mem {dst len i : Nat} {v : α} {f : Nat → α}
    (h : ¬ (dst ≤ i ∧ i < dst + len)) : fill dst len v f i = f i := by
  unfold fill
  rw [if_neg h]

theorem fill_of_mem {dst len i : Nat} {v : α} {f : Nat → α}
    (h : dst ≤ i ∧ i < dst + len) : fill dst len v f i = v := by
  unfold fill
  rw [if_pos h]

/-- The words `vs` written from `dst` on. -/
def put (dst : Nat) (vs : List α) (f : Nat → α) : Nat → α := fun i =>
  if dst ≤ i then vs.getD (i - dst) (f i) else f i

@[simp] theorem put_nil (dst : Nat) (f : Nat → α) : put dst [] f = f := by
  funext i
  unfold put
  split <;> rfl

/-- Word by word. -/
theorem put_cons (dst : Nat) (v : α) (vs : List α) (f : Nat → α) :
    put dst (v :: vs) f = put (dst + 1) vs (Function.update f dst v) := by
  funext i
  unfold put
  rcases Nat.lt_trichotomy i dst with h | h | h
  · rw [if_neg (by omega), if_neg (by omega), Function.update_of_ne (by omega)]
  · subst h
    rw [if_pos (Nat.le_refl _), if_neg (by omega), Function.update_self, Nat.sub_self]
    rfl
  · obtain ⟨k, rfl⟩ := Nat.exists_eq_add_of_lt h
    rw [if_pos (by omega), if_pos (by omega), Function.update_of_ne (by omega),
      show dst + k + 1 - dst = k + 1 by omega, show dst + k + 1 - (dst + 1) = k by omega]
    rfl

theorem put_of_lt {dst k : Nat} {vs : List α} {f : Nat → α} (d : α) (h : k < vs.length) :
    put dst vs f (dst + k) = vs.getD k d := by
  unfold put
  rw [if_pos (by omega), Nat.add_sub_cancel_left, List.getD_eq_getElem _ _ h,
    List.getD_eq_getElem _ _ h]

theorem put_of_not_mem {dst i : Nat} {vs : List α} {f : Nat → α}
    (h : ¬ (dst ≤ i ∧ i < dst + vs.length)) : put dst vs f i = f i := by
  unfold put
  split
  · rw [List.getD_eq_default _ _ (by omega)]
  · rfl

/-- Two blocks of words with no cell in common. -/
theorem put_comm {a b : Nat} {us vs : List α} (h : a + us.length ≤ b ∨ b + vs.length ≤ a)
    (f : Nat → α) : put a us (put b vs f) = put b vs (put a us f) := by
  funext i
  by_cases hi : a ≤ i ∧ i < a + us.length
  · obtain ⟨k, rfl⟩ := Nat.exists_eq_add_of_le hi.1
    rw [put_of_lt (f (a + k)) (by omega), put_of_not_mem (by omega),
      put_of_lt (f (a + k)) (by omega)]
  · rw [put_of_not_mem hi]
    have hf : put a us f i = f i := put_of_not_mem hi
    unfold put at hf ⊢
    rw [hf]

/-- One more word behind. -/
theorem put_append_singleton (dst : Nat) (vs : List α) (v : α) (f : Nat → α) :
    put dst (vs ++ [v]) f = Function.update (put dst vs f) (dst + vs.length) v := by
  induction vs generalizing dst f with
  | nil => simp [put_cons]
  | cons u vs ih =>
      rw [List.cons_append, put_cons, put_cons, ih, List.length_cons]
      congr 1
      omega

/-- Cells of different blocks of one size are at different addresses. -/
theorem block_ne {size j k i x : Nat} (hjk : j ≠ k) (hi : i < size) (hx : x < size) :
    k * size + x ≠ j * size + i := by
  intro heq
  have hpos := Nat.zero_lt_of_lt hi
  have hdiv := congrArg (· / size) heq
  simp only [Nat.mul_comm _ size, Nat.mul_add_div hpos, Nat.div_eq_of_lt hi, Nat.div_eq_of_lt hx,
    Nat.add_zero] at hdiv
  exact hjk hdiv.symm

/-- The cells of `n` blocks of one size. -/
theorem block_lt {size n k i : Nat} (hk : k < n) (hi : i < size) : k * size + i < size * n := by
  have hle : (k + 1) * size ≤ n * size := Nat.mul_le_mul_right _ hk
  rw [Nat.succ_mul] at hle
  rw [Nat.mul_comm size n]
  omega

/-! ### Sequences of writes -/

section Overlay

variable {κ : Type} [DecidableEq κ]

/-- The writes `ws`, address and word, done in order. -/
def overlay (f : κ → α) (ws : List (κ × α)) : κ → α :=
  ws.foldl (fun g w => Function.update g w.1 w.2) f

@[simp] theorem overlay_nil (f : κ → α) : overlay f [] = f := rfl

@[simp] theorem overlay_cons (f : κ → α) (w : κ × α) (ws : List (κ × α)) :
    overlay f (w :: ws) = overlay (Function.update f w.1 w.2) ws := rfl

theorem overlay_append (f : κ → α) (ws vs : List (κ × α)) :
    overlay f (ws ++ vs) = overlay (overlay f ws) vs := by
  unfold overlay
  rw [List.foldl_append]

/-- A cell that no write names keeps its content. -/
theorem overlay_of_not_mem {i : κ} : ∀ {ws : List (κ × α)} {f : κ → α},
    i ∉ ws.map Prod.fst → overlay f ws i = f i := by
  intro ws
  induction ws with
  | nil => intro f _; rfl
  | cons w ws ih =>
      intro f h
      simp only [List.map_cons, List.mem_cons, not_or] at h
      rw [overlay_cons, ih h.2, Function.update_of_ne h.1]

/-- A cell that some write names does not depend on the store before. -/
theorem overlay_congr_of_mem {i : κ} : ∀ {ws : List (κ × α)} {f g : κ → α},
    i ∈ ws.map Prod.fst → overlay f ws i = overlay g ws i := by
  intro ws
  induction ws with
  | nil => intro f g h; simp at h
  | cons w ws ih =>
      intro f g h
      rw [overlay_cons, overlay_cons]
      by_cases hi : i ∈ ws.map Prod.fst
      · exact ih hi
      · have hw : i = w.1 := by
          simp only [List.map_cons, List.mem_cons] at h
          exact h.resolve_right hi
        rw [overlay_of_not_mem hi, overlay_of_not_mem hi, hw, Function.update_self,
          Function.update_self]

/-- Overlaying the same writes makes two stores agree at `i` exactly when a
write names `i` or they agreed there already. -/
theorem overlay_eq_iff {i : κ} {ws : List (κ × α)} {f g : κ → α} :
    overlay f ws i = overlay g ws i ↔ (i ∉ ws.map Prod.fst → f i = g i) := by
  by_cases hi : i ∈ ws.map Prod.fst
  · exact ⟨fun _ h => absurd hi h, fun _ => overlay_congr_of_mem hi⟩
  · rw [overlay_of_not_mem hi, overlay_of_not_mem hi]
    exact ⟨fun h _ => h, fun h => h hi⟩

/-! ### Writes of what is there -/

/-- The last word that the writes give an address. -/
def lastWrite : List (κ × α) → κ → Option α
  | [], _ => none
  | w :: ws, i => (lastWrite ws i).or (if w.1 = i then some w.2 else none)

/-- Every address of `p` ends with the word that it holds already. -/
def Held (p : κ → Prop) (ws : List (κ × α)) (f : κ → α) : Prop :=
  ∀ i, p i → ∀ v, lastWrite ws i = some v → f i = v

theorem lastWrite_cons (w : κ × α) (ws : List (κ × α)) (i : κ) :
    lastWrite (w :: ws) i = (lastWrite ws i).or (if w.1 = i then some w.2 else none) := rfl

theorem lastWrite_append (ws vs : List (κ × α)) (i : κ) :
    lastWrite (ws ++ vs) i = (lastWrite vs i).or (lastWrite ws i) := by
  induction ws with
  | nil => simp [lastWrite]
  | cons w ws ih => rw [List.cons_append, lastWrite_cons, lastWrite_cons, ih, Option.or_assoc]

theorem lastWrite_eq_none {ws : List (κ × α)} {i : κ} (h : ∀ w ∈ ws, w.1 ≠ i) :
    lastWrite ws i = none := by
  induction ws with
  | nil => rfl
  | cons w ws ih =>
      rw [lastWrite_cons, ih fun v hv => h v (List.mem_cons_of_mem _ hv),
        if_neg (h w List.mem_cons_self)]
      rfl

/-- The writes leave at an address the last word they give it. -/
theorem overlay_eq_getD (f : κ → α) (ws : List (κ × α)) (i : κ) :
    overlay f ws i = (lastWrite ws i).getD (f i) := by
  induction ws generalizing f with
  | nil => rfl
  | cons w ws ih =>
      rw [overlay_cons, ih, lastWrite_cons]
      cases lastWrite ws i with
      | some v => simp
      | none =>
          by_cases hw : w.1 = i
          · simp [hw]
          · simp [hw, Function.update_of_ne (Ne.symm hw)]

/-- The addresses of `p` keep their words exactly when each is given its own at last. -/
theorem overlay_eqOn_iff {p : κ → Prop} {ws : List (κ × α)} {f : κ → α} :
    (∀ i, p i → overlay f ws i = f i) ↔ Held p ws f := by
  refine forall_congr' fun i => imp_congr_right fun _ => ?_
  rw [overlay_eq_getD]
  cases lastWrite ws i with
  | none => simp
  | some v => simp [eq_comm]

/-- An address with a last write is one that the writes name. -/
theorem mem_of_lastWrite {ws : List (κ × α)} {i : κ} {v : α} (h : lastWrite ws i = some v) :
    i ∈ ws.map Prod.fst := by
  induction ws with
  | nil => cases h
  | cons w ws ih =>
      rw [lastWrite_cons] at h
      cases hl : lastWrite ws i with
      | some u => exact List.mem_cons_of_mem _ (ih (by rw [← h, hl]; rfl))
      | none =>
          by_cases hw : w.1 = i
          · exact hw ▸ List.mem_cons_self
          · simp [hl, hw] at h

/-- Writes that name no address of `p`. -/
theorem Held.of_not_mem {p : κ → Prop} {ws : List (κ × α)} {f : κ → α}
    (h : ∀ w ∈ ws, ¬ p w.1) : Held p ws f := by
  intro i hp v hv
  obtain ⟨w, hw, rfl⟩ := List.mem_map.mp (mem_of_lastWrite hv)
  exact absurd hp (h w hw)

/-- A mark that occurs occurs somewhere for the last time. -/
theorem exists_last_of_mem {β : Type} {key : β → κ} {i : κ} {l : List β} (h : i ∈ l.map key) :
    ∃ before b behind, l = before ++ b :: behind ∧ key b = i ∧ i ∉ behind.map key := by
  induction l with
  | nil => simp at h
  | cons b l ih =>
      by_cases hl : i ∈ l.map key
      · obtain ⟨before, c, behind, rfl, hc⟩ := ih hl
        exact ⟨b :: before, c, behind, rfl, hc⟩
      · rw [List.map_cons, List.mem_cons] at h
        exact ⟨[], b, l, rfl, (h.resolve_right hl).symm, hl⟩

/-- The last of the writes that name an address. -/
theorem overlay_last {β : Type} {key : β → κ} {word : β → α} {i : κ} {before behind : List β}
    {b : β} (f : κ → α) (hb : key b = i) (hbehind : i ∉ behind.map key) :
    overlay f ((before ++ b :: behind).map fun c => (key c, word c)) i = word b := by
  rw [List.map_append, List.map_cons, overlay_append, overlay_cons,
    overlay_of_not_mem (by simpa using hbehind), hb, Function.update_self]

end Overlay

end RtuA118.Store
