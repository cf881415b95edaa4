import Mathlib.Data.List.Basic
import Mathlib.Logic.Function.Basic
import Mathlib.Logic.Function.Iterate

/-!
# RtuA118.Lib.Notify

**Copies that are kept up by notices.**

A listener has copies of blocks of a store that others write. It does not see the writes: it is sent
a notice, by way of a queue of bounded length that drops what does not fit, and then loads all its
blocks, one after the other, while the others write on. Nothing is lost all the same as long as a
notice is only dropped where another one waits (`Listener.post_settling`): once the listener has
nothing left to do its copies are those of the store (`Listener.fresh_of_idle`), and each step of
its own brings it nearer (`Listener.backlog_work`).
-/

namespace RtuA118.Notify

variable {σ κ β μ : Type}

/-! ### Queues -/

/-- A send that does not wait. -/
def enqueue (cap : Nat) (m : μ) (q : List μ) : List μ := if q.length < cap then q ++ [m] else q

theorem enqueue_length_le {cap : Nat} {m : μ} {q : List μ} (h : q.length ≤ cap) :
    (enqueue cap m q).length ≤ cap := by
  unfold enqueue
  split
  · rw [List.length_append, List.length_singleton]
    omega
  · exact h

theorem mem_enqueue_of_mem {cap : Nat} {m m' : μ} {q : List μ} (h : m' ∈ q) :
    m' ∈ enqueue cap m q := by
  unfold enqueue
  split
  · exact List.mem_append_left _ h
  · exact h

theorem mem_or_eq_of_mem_enqueue {cap : Nat} {m m' : μ} {q : List μ} (h : m' ∈ enqueue cap m q) :
    m' ∈ q ∨ m' = m := by
  unfold enqueue at h
  split at h
  · exact (List.mem_append.1 h).imp_right List.mem_singleton.1
  · exact .inl h

/-- A queue that drops a message is not empty. -/
theorem enqueue_ne_nil {cap : Nat} (hcap : 0 < cap) (m : μ) (q : List μ) :
    enqueue cap m q ≠ [] := by
  unfold enqueue
  split
  · simp
  · rename_i hfull
    rintro rfl
    exact hfull hcap

/-! ### Listeners -/

/-- The messages that wait, the blocks that are still to be loaded, and the copies. -/
structure Listener (κ β μ : Type) where
  queue : List μ
  todo : List κ
  copy : κ → β

namespace Listener

variable (load : κ → σ → β → β) (isNotice : μ → Bool) (blocks : List κ)

def post (cap : Nat) (m : μ) (r : Listener κ β μ) : Listener κ β μ :=
  { r with queue := enqueue cap m r.queue }

/-- The first message, when no block is left to be loaded. -/
def receive (r : Listener κ β μ) : Listener κ β μ :=
  match r.todo, r.queue with
  | [], m :: q => { r with queue := q, todo := if isNotice m then blocks else [] }
  | _, _ => r

/-- The next block, as the store has it now. -/
def read [DecidableEq κ] (s : σ) (r : Listener κ β μ) : Listener κ β μ :=
  match r.todo with
  | [] => r
  | k :: todo => { r with todo := todo, copy := Function.update r.copy k (load k s (r.copy k)) }

/-- The listener's next step. -/
def work [DecidableEq κ] (s : σ) (r : Listener κ β μ) : Listener κ β μ :=
  if r.todo = [] then r.receive isNotice blocks else r.read load s

def Idle (r : Listener κ β μ) : Prop := r.queue = [] ∧ r.todo = []

/-- The block will be loaded yet. -/
def Pending (k : κ) (r : Listener κ β μ) : Prop :=
  (∃ m ∈ r.queue, isNotice m = true) ∨ k ∈ r.todo

/-- The copy is good, or will be loaded yet. -/
def Settling (good : κ → β → Prop) (k : κ) (r : Listener κ β μ) : Prop :=
  good k (r.copy k) ∨ r.Pending isNotice k

variable {load isNotice blocks} {good : κ → β → Prop} {cap : Nat} {m : μ} {k : κ} {s : σ}
  {r : Listener κ β μ}

theorem fresh_of_idle (h : r.Settling isNotice good k) (hidle : r.Idle) : good k (r.copy k) := by
  rcases h with h | ⟨m, hm, -⟩ | h
  · exact h
  · rw [hidle.1] at hm
    cases hm
  · rw [hidle.2] at h
    cases h

/-! ### What each step keeps -/

theorem Settling.post (h : r.Settling isNotice good k) :
    (r.post cap m).Settling isNotice good k := by
  rcases h with h | ⟨m', hm, hnotice⟩ | h
  · exact .inl h
  · exact .inr (.inl ⟨m', mem_enqueue_of_mem hm, hnotice⟩)
  · exact .inr (.inr h)

/-- **A notice is not lost** in a queue of notices: where it is dropped there is another. -/
theorem post_pending (hcap : 0 < cap) (hq : ∀ m' ∈ r.queue, isNotice m' = true)
    (hm : isNotice m = true) : (r.post cap m).Pending isNotice k := by
  obtain ⟨m', hmem⟩ := List.exists_mem_of_ne_nil _ (enqueue_ne_nil hcap m r.queue)
  refine .inl ⟨m', hmem, ?_⟩
  rcases mem_or_eq_of_mem_enqueue hmem with h | rfl
  · exact hq m' h
  · exact hm

theorem post_settling (hcap : 0 < cap) (hq : ∀ m' ∈ r.queue, isNotice m' = true)
    (hm : isNotice m = true) : (r.post cap m).Settling isNotice good k :=
  .inr (post_pending hcap hq hm)

theorem Settling.receive (hk : k ∈ blocks) (h : r.Settling isNotice good k) :
    (r.receive isNotice blocks).Settling isNotice good k := by
  unfold Listener.receive
  split
  · rename_i m q htodo hqueue
    rcases h with h | ⟨m', hm, hnotice⟩ | h
    · exact .inl h
    · rw [hqueue] at hm
      rcases List.mem_cons.1 hm with rfl | hm
      · -- the notice is taken up
        exact .inr (.inr (by rw [if_pos hnotice]; exact hk))
      · exact .inr (.inl ⟨m', hm, hnotice⟩)
    · rw [htodo] at h
      cases h
  · exact h

theorem Settling.read [DecidableEq κ] (hload : ∀ b, good k (load k s b))
    (h : r.Settling isNotice good k) :
    (r.read load s).Settling isNotice good k := by
  unfold Listener.read
  split
  · exact h
  · rename_i k' todo htodo
    by_cases hk : k = k'
    · subst hk
      exact .inl (by dsimp only; rw [Function.update_self]; exact hload _)
    · rcases h with h | hnotice | h
      · exact .inl (by dsimp only; rw [Function.update_of_ne hk]; exact h)
      · exact .inr (.inl hnotice)
      · rw [htodo] at h
        exact .inr (.inr ((List.mem_cons.1 h).resolve_left hk))

theorem Settling.mono {good' : κ → β → Prop} (hgood : ∀ b, good k b → good' k b)
    (h : r.Settling isNotice good k) : r.Settling isNotice good' k :=
  h.imp_left (hgood _)

theorem Settling.work [DecidableEq κ] (hk : k ∈ blocks) (hload : ∀ b, good k (load k s b))
    (h : r.Settling isNotice good k) :
    (r.work load isNotice blocks s).Settling isNotice good k := by
  unfold Listener.work
  split
  · exact h.receive hk
  · exact h.read hload

/-! ### The work that is left -/

/-- Steps that are enough: each message may ask for all the blocks. -/
def backlog (blocks : List κ) (r : Listener κ β μ) : Nat :=
  r.todo.length + r.queue.length * (blocks.length + 1)

theorem backlog_eq_zero_iff : r.backlog blocks = 0 ↔ r.Idle := by
  unfold backlog Idle
  rw [Nat.add_eq_zero_iff, Nat.mul_eq_zero, List.length_eq_zero_iff, List.length_eq_zero_iff]
  constructor
  · rintro ⟨htodo, hqueue | hzero⟩
    · exact ⟨hqueue, htodo⟩
    · omega
  · rintro ⟨hqueue, htodo⟩
    exact ⟨htodo, .inl hqueue⟩

/-- **Each step lowers it**, down to none. -/
theorem backlog_work [DecidableEq κ] :
    (r.work load isNotice blocks s).backlog blocks ≤ r.backlog blocks - 1 := by
  unfold work
  split
  · rename_i htodo
    unfold receive backlog
    cases hqueue : r.queue with
    | nil => simp [htodo, hqueue]
    | cons m q =>
        simp only [htodo, List.length_cons, Nat.succ_mul, List.length_nil]
        split
        · omega
        · rw [List.length_nil]
          omega
  · rename_i htodo
    obtain ⟨k, todo, htodo⟩ := List.exists_cons_of_ne_nil htodo
    unfold read backlog
    simp only [htodo, List.length_cons]
    omega

theorem backlog_le (htodo : r.todo.length ≤ blocks.length) (hqueue : r.queue.length ≤ cap) :
    r.backlog blocks ≤ blocks.length + cap * (blocks.length + 1) :=
  Nat.add_le_add htodo (Nat.mul_le_mul_right _ hqueue)

end Listener

end RtuA118.Notify
