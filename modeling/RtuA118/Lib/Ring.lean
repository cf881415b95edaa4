import Mathlib.Data.List.GetD

/-!
# RtuA118.Lib.Ring

A **ring of records** in a block of cells.

Records are written one behind the other, and from the start of the block again when one does not
fit in the rest. No record is broken by the end of the block, so the cells behind the last lap are
lost; and what is left of the last lap is overwritten from its start. All the same the block has
the end of everything that was written, up to the length of a record (`Ring.Holds.writeAll`).
-/

namespace RtuA118

variable {α : Type}

/-- The cells, and where the next record goes. -/
structure Ring (α : Type) where
  cells : Nat → α
  len : Nat

/-- The cells from `a` up to `b`. -/
def readCells (cells : Nat → α) (a b : Nat) : List α :=
  (List.range (b - a)).map fun i => cells (a + i)

/-- A record is put into the cells from `a` on. -/
def putCells (cells : Nat → α) (a : Nat) (record : List α) : Nat → α :=
  fun i => if a ≤ i then record.getD (i - a) (cells i) else cells i

section Cells

variable {cells cells' : Nat → α} {a b : Nat} {record : List α}

theorem length_readCells : (readCells cells a b).length = b - a := by simp [readCells]

theorem readCells_congr (h : ∀ i, a ≤ i → i < b → cells i = cells' i) :
    readCells cells a b = readCells cells' a b := by
  refine List.map_congr_left fun i hi => h _ (Nat.le_add_right a i) ?_
  have := List.mem_range.1 hi
  omega

theorem readCells_of_le (h : b ≤ a) : readCells cells a b = [] := by
  rw [readCells, Nat.sub_eq_zero_of_le h]
  rfl

/-- Reading on. -/
theorem readCells_append {m : Nat} (ha : a ≤ m) (hb : m ≤ b) :
    readCells cells a m ++ readCells cells m b = readCells cells a b := by
  have hlen : b - a = (m - a) + (b - m) := by omega
  rw [readCells, readCells, readCells, hlen, List.range_add, List.map_append, List.map_map]
  refine congrArg _ (List.map_congr_left fun i _ => congrArg cells ?_)
  rw [← Nat.add_assoc, Nat.add_sub_cancel' ha]

/-- What is read from further on is the end of what is read. -/
theorem readCells_suffix {m : Nat} (h : a ≤ m) : readCells cells m b <:+ readCells cells a b := by
  by_cases hb : m ≤ b
  · exact ⟨readCells cells a m, readCells_append h hb⟩
  · rw [readCells_of_le (by omega)]
    exact List.nil_suffix

theorem readCells_put_self (cells : Nat → α) (a : Nat) (record : List α) :
    readCells (putCells cells a record) a (a + record.length) = record := by
  refine List.ext_getElem (by rw [length_readCells, Nat.add_sub_cancel_left]) fun i hi hi' => ?_
  simp [readCells, putCells, hi']

theorem putCells_of_lt {i : Nat} (h : i < a) : putCells cells a record i = cells i :=
  if_neg (Nat.not_le.2 h)

theorem putCells_of_ge {i : Nat} (h : a + record.length ≤ i) :
    putCells cells a record i = cells i := by
  rw [putCells, if_pos (by omega), List.getD_eq_default _ _ (by omega)]

end Cells

namespace Ring

/-- A record is written in a block of `cap` cells. -/
def write (cap : Nat) (r : Ring α) (record : List α) : Ring α :=
  if cap ≤ r.len + record.length then ⟨putCells r.cells 0 record, record.length⟩
  else ⟨putCells r.cells r.len record, r.len + record.length⟩

/-- Where the last lap ended, when a record is written to a ring whose last lap ended at `lap`. -/
def lapAfter (cap : Nat) (r : Ring α) (lap : Nat) (record : List α) : Nat :=
  if cap ≤ r.len + record.length then r.len else lap

/-- Where the last lap ended after records. -/
def lastLap (cap : Nat) : Ring α → Nat → List (List α) → Nat
  | _, lap, [] => lap
  | r, lap, record :: records =>
    lastLap cap (r.write cap record) (r.lapAfter cap lap record) records

/-- What is read of a ring whose last lap ended at `lap`: what is left of that lap, then this. -/
def recent (r : Ring α) (lap : Nat) : List α :=
  readCells r.cells r.len lap ++ readCells r.cells 0 r.len

theorem length_recent (r : Ring α) (lap : Nat) : (r.recent lap).length = max lap r.len := by
  rw [recent, List.length_append, length_readCells, length_readCells]
  omega

/-- The ring has the end of what was written: all of it in the first lap, and then as much as a lap
has. -/
structure Holds (cap size : Nat) (r : Ring α) (text : List α) (lap : Nat) : Prop where
  suffix : r.recent lap <:+ text
  enough : lap = 0 ∧ r.recent lap = text ∨ cap ≤ lap + size

theorem holds_start (cap size : Nat) (cells : Nat → α) :
    Holds cap size ⟨cells, 0⟩ ([] : List α) 0 :=
  ⟨List.nil_suffix, .inl ⟨rfl, rfl⟩⟩

variable {cap size lap : Nat} {r : Ring α} {text record : List α}

/-- A record behind the others. -/
theorem recent_put (r : Ring α) (record : List α) (lap : Nat) :
    recent ⟨putCells r.cells r.len record, r.len + record.length⟩ lap =
      readCells r.cells (r.len + record.length) lap ++ (readCells r.cells 0 r.len ++ record) := by
  have hrest : readCells (putCells r.cells r.len record) (r.len + record.length) lap =
      readCells r.cells (r.len + record.length) lap :=
    readCells_congr fun i hi _ => putCells_of_ge hi
  have hbefore : readCells (putCells r.cells r.len record) 0 r.len = readCells r.cells 0 r.len :=
    readCells_congr fun i _ hi => putCells_of_lt hi
  rw [recent, hrest, ← readCells_append (Nat.zero_le r.len) (Nat.le_add_right _ _), hbefore,
    readCells_put_self]

/-- A record at the start: the lap ends where the next record was to go. -/
theorem recent_put_zero (r : Ring α) (record : List α) :
    recent ⟨putCells r.cells 0 record, record.length⟩ r.len =
      readCells r.cells record.length r.len ++ record := by
  have hrest : readCells (putCells r.cells 0 record) record.length r.len =
      readCells r.cells record.length r.len :=
    readCells_congr fun i hi _ => putCells_of_ge (by omega)
  have hself := readCells_put_self r.cells 0 record
  rw [Nat.zero_add] at hself
  rw [recent, hrest, hself]

theorem Holds.write (h : Holds cap size r text lap) (hsize : record.length ≤ size) :
    Holds cap size (r.write cap record) (text ++ record) (r.lapAfter cap lap record) := by
  unfold Ring.write lapAfter
  split
  · -- the next lap starts
    rename_i hfull
    have hlap : readCells r.cells record.length r.len <:+ r.recent lap :=
      (readCells_suffix (Nat.zero_le _)).trans (List.suffix_append _ _)
    refine ⟨?_, .inr (by omega)⟩
    rw [recent_put_zero]
    exact List.suffix_append_self_iff.2 (hlap.trans h.suffix)
  · have hrest : readCells r.cells (r.len + record.length) lap ++ readCells r.cells 0 r.len <:+
        r.recent lap :=
      List.suffix_append_self_iff.2 (readCells_suffix (Nat.le_add_right _ _))
    refine ⟨?_, h.enough.imp_left ?_⟩
    · rw [recent_put, ← List.append_assoc]
      exact List.suffix_append_self_iff.2 (hrest.trans h.suffix)
    · rintro ⟨rfl, hall⟩
      have hfirst : r.recent 0 = readCells r.cells 0 r.len := by
        rw [recent, readCells_of_le (Nat.zero_le _), List.nil_append]
      rw [recent_put, readCells_of_le (Nat.zero_le _), List.nil_append, ← hfirst, hall]
      exact ⟨rfl, rfl⟩

/-- **The ring has the end of everything written**: all of it, or all but a record's length of a
whole block. -/
theorem Holds.writeAll {records : List (List α)} (h : Holds cap size r text lap)
    (hsize : ∀ record ∈ records, record.length ≤ size) :
    Holds cap size (records.foldl (Ring.write cap) r) (text ++ records.flatten)
      (r.lastLap cap lap records) := by
  induction records generalizing r text lap with
  | nil => simpa [lastLap] using h
  | cons record records ih =>
      have h' := h.write (hsize record List.mem_cons_self)
      rw [List.foldl_cons, List.flatten_cons, ← List.append_assoc, lastLap]
      exact ih h' fun record' hmem => hsize record' (List.mem_cons_of_mem _ hmem)

/-- No lap is longer than the block. -/
theorem recent_le {records : List (List α)} (hsize : ∀ record ∈ records, record.length ≤ cap)
    (hlen : r.len ≤ cap) (hlap : lap ≤ cap) :
    ((records.foldl (Ring.write cap) r).recent (r.lastLap cap lap records)).length ≤ cap := by
  induction records generalizing r lap with
  | nil =>
      rw [length_recent, lastLap]
      exact Nat.max_le.2 ⟨hlap, hlen⟩
  | cons record records ih =>
      rw [List.foldl_cons, lastLap]
      refine ih (fun record' hmem => hsize record' (List.mem_cons_of_mem _ hmem)) ?_ ?_
      · unfold Ring.write
        split
        · exact hsize record List.mem_cons_self
        · exact Nat.le_of_lt (Nat.not_le.1 ‹_›)
      · unfold lapAfter
        split
        · exact hlen
        · exact hlap

end Ring

end RtuA118
