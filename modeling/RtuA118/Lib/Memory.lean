import RtuA118.Lib.Store

/-!
# RtuA118.Lib.Memory

**Tables in one block of memory.** A block is a function from addresses to bytes; a table
in it is an array of elements of `size` bytes each (`Table`). A pointer into a table is an
index, as in C, and a store past the end of the table lands in whatever lies there.

`Table.Holds` says that the bytes of a table are those of a function. A store, a `memcpy`
and a `memset` inside the table do to this function what they do to a flat store
(`RtuA118.Lib.Store`), and they leave every table apart from it alone
(`Holds.of_changes`).
-/

namespace RtuA118.Memory

/-- A table of `length` elements from `base` on; of the bytes of an element the first `size`
count. -/
structure Table (α : Type) where
  base : Nat
  length : Nat
  size : Nat
  byte : α → Nat → UInt8

namespace Table

variable {α β : Type}

/-- Where an element begins. -/
def addr (t : Table α) (i : Nat) : Nat := t.base + t.size * i

/-- `p[i] = v`. -/
def store (t : Table α) (i : Nat) (v : α) (mem : Nat → UInt8) : Nat → UInt8 := fun a =>
  if t.addr i ≤ a ∧ a < t.addr (i + 1) then t.byte v (a - t.addr i) else mem a

/-- `memcpy(p + dst, p + src, len * sizeof(*p))`. -/
def memcpy (t : Table α) (dst src len : Nat) : (Nat → UInt8) → Nat → UInt8 :=
  Store.copy (t.addr dst) (t.addr src) (t.size * len)

/-- `memset(p + dst, v, len * sizeof(*p))`. -/
def memset (t : Table α) (dst len : Nat) (v : UInt8) : (Nat → UInt8) → Nat → UInt8 :=
  Store.fill (t.addr dst) (t.size * len) v

/-- The elements of the table are those of the function. -/
def Holds (t : Table α) (mem : Nat → UInt8) (f : Nat → α) : Prop :=
  ∀ i < t.length, ∀ j < t.size, mem (t.addr i + j) = t.byte (f i) j

/-- Only the bytes of these elements change. -/
def Changes (t : Table α) (dst len : Nat) (mem mem' : Nat → UInt8) : Prop :=
  ∀ a, ¬ (t.addr dst ≤ a ∧ a < t.addr (dst + len)) → mem' a = mem a

/-- One table ends before the other begins. -/
def Apart (t : Table α) (u : Table β) : Prop :=
  t.addr t.length ≤ u.addr 0 ∨ u.addr u.length ≤ t.addr 0

variable {t : Table α} {u : Table β} {mem mem' : Nat → UInt8} {f : Nat → α}

theorem addr_add (t : Table α) (i k : Nat) : t.addr (i + k) = t.addr i + t.size * k := by
  rw [addr, addr, Nat.mul_add, Nat.add_assoc]

theorem addr_mono {i j : Nat} (h : i ≤ j) : t.addr i ≤ t.addr j :=
  Nat.add_le_add_left (Nat.mul_le_mul_left _ h) _

/-- A byte belongs to the element it is in, and to no other. -/
theorem addr_add_lt_iff {i j k : Nat} (hj : j < t.size) :
    t.addr i + j < t.addr k ↔ i < k := by
  constructor
  · intro h
    by_contra hle
    have := addr_mono (t := t) (Nat.le_of_not_lt hle)
    omega
  · intro h
    have hnext := addr_mono (t := t) (Nat.succ_le_of_lt h)
    rw [Nat.succ_eq_add_one, addr_add, Nat.mul_one] at hnext
    omega

/-- So the bytes of some elements are those between the first of them and the one behind. -/
theorem between_iff {i j k l : Nat} (hj : j < t.size) :
    t.addr k ≤ t.addr i + j ∧ t.addr i + j < t.addr l ↔ k ≤ i ∧ i < l := by
  rw [← Nat.not_lt, addr_add_lt_iff hj, addr_add_lt_iff hj, Nat.not_lt]

/-! ### What changes -/

theorem changes_store (i : Nat) (v : α) : t.Changes i 1 mem (t.store i v mem) := by
  intro a ha
  exact if_neg ha

theorem changes_memcpy (dst src len : Nat) : t.Changes dst len mem (t.memcpy dst src len mem) := by
  intro a ha
  rw [addr_add] at ha
  exact Store.copy_of_not_mem ha

theorem changes_memset (dst len : Nat) (v : UInt8) :
    t.Changes dst len mem (t.memset dst len v mem) := by
  intro a ha
  rw [addr_add] at ha
  exact Store.fill_of_not_mem ha

/-- **A table apart from the one that changes keeps its elements.** -/
theorem Holds.of_changes (h : t.Holds mem f) {dst len : Nat} (hc : u.Changes dst len mem mem')
    (hlen : dst + len ≤ u.length) (hapart : t.Apart u) : t.Holds mem' f := by
  intro i hi j hj
  rw [hc, h i hi j hj]
  rintro ⟨hlo, hhi⟩
  have hend := (addr_add_lt_iff hj).2 hi
  have hstart := addr_mono (t := t) (Nat.zero_le i)
  have hdst := addr_mono (t := u) (Nat.zero_le dst)
  have hlast := addr_mono (t := u) hlen
  obtain hleft | hright := hapart
  · omega
  · omega

/-! ### What the elements become -/

theorem Holds.store (h : t.Holds mem f) (i : Nat) (v : α) :
    t.Holds (t.store i v mem) (Function.update f i v) := by
  intro k hk j hj
  unfold Table.store
  simp only [between_iff hj]
  by_cases hki : k = i
  · subst hki
    rw [if_pos ⟨Nat.le_refl k, Nat.lt_succ_self k⟩, Function.update_self, Nat.add_sub_cancel_left]
  · rw [if_neg (by omega), Function.update_of_ne hki, h k hk j hj]

theorem Holds.memcpy (h : t.Holds mem f) {dst src len : Nat} (hsrc : src + len ≤ t.length) :
    t.Holds (t.memcpy dst src len mem) (Store.copy dst src len f) := by
  intro k hk j hj
  unfold Table.memcpy Store.copy
  simp only [← addr_add, between_iff hj]
  split
  · rename_i hin
    obtain ⟨d, rfl⟩ := Nat.exists_eq_add_of_le hin.1
    have hd : t.addr (dst + d) + j - t.addr dst = t.size * d + j := by
      rw [addr_add]
      omega
    rw [hd, Nat.add_sub_cancel_left, ← Nat.add_assoc, ← addr_add]
    exact h _ (by omega) j hj
  · exact h k hk j hj

theorem Holds.memset (h : t.Holds mem f) {dst len : Nat} {v : UInt8} {e : α}
    (hbyte : ∀ j < t.size, t.byte e j = v) :
    t.Holds (t.memset dst len v mem) (Store.fill dst len e f) := by
  intro k hk j hj
  unfold Table.memset Store.fill
  simp only [← addr_add, between_iff hj]
  split
  · exact (hbyte j hj).symm
  · exact h k hk j hj

/-- All of a table set to one byte. -/
theorem holds_memset {v : UInt8} {e : α} (hbyte : ∀ j < t.size, t.byte e j = v) :
    t.Holds (t.memset 0 t.length v mem) fun _ => e := by
  intro k hk j hj
  unfold Table.memset
  rw [Store.fill_of_mem, hbyte j hj]
  rw [← addr_add, between_iff hj]
  omega

end Table

end RtuA118.Memory
