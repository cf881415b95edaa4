import RtuA118.Map.RemapBoot
import RtuA118.Map.Stores

/-!
# RtuA118.Map.Snapshot

The history record of `data/data.c` is a copy of `ram_x`; a live read of a flash
cell goes to the flash. For a recorded cell the two must hold the same word.

The map's life is cut into its smallest steps (`MapEvent`): one row loaded, one
well copied, one cell stored, one sweep. `MapReach.events` says that every life
of the map is made of these. For each step, `EventOk` says exactly when it keeps
a recorded flash cell and its flash together:

* a row loaded over a flash that is **not new** sets the RAM copy to the row's
  default, so the flash must hold that default already;
* a store into the **shared** flash sets one well's copy, so no other well may
  record the cell with another word;
* a store whose `msync` **fails** sets the flash and not the copy;
* an output cell is stored into the flash of **well 1**, whichever well it was
  written through;
* a sweep and the choice of a well type set one of the two places only.

And each step has to stay inside the arrays (`MapEvent.Inside`): a row or a copy that
runs past a table marks and fills cells of the next.
-/

namespace RtuA118

open Run (Reach Steps guarded)

/-! ### The history record -/

/-- The buffer `thread_data` copies from `ram_x`. -/
def historyRecord (m : MapT) : List UInt16 := (List.range (m.xMax * maxWellNum)).map m.ramX

/-- For every recorded cell, the history record's word is the one a read of the
cell returns. Cells with code behind them are left out. -/
def SnapshotAgrees (env : Platform) (s : Rtu) : Prop :=
  ∀ w i, 1 ≤ w → w ≤ maxWellNum → i < s.map.xMax →
    s.map.ramXMapRecord (s.map.xBase w + i) = .record →
    s.map.ramXMapType (s.map.xBase w + i) ∈ [.null, .ram, .flash1, .flash2] →
    ∀ buf, zigbeeReadRegisters env s buf 1 w i
      = (historyRecord s.map)[s.map.xBase w + i]?.map fun v => [v]

/-- Cell `b`, counted over all wells, has the same word in RAM and flash if it is
a recorded flash cell. -/
def RecordedAt (m : MapT) (b : Nat) : Prop :=
  m.ramXMapRecord b = .record →
    (m.ramXMapType b = .flash1 → m.ramX b = m.flash1 (b % m.xMax)) ∧
      (m.ramXMapType b = .flash2 → m.ramX b = m.flash2 b)

/-- All recorded flash cells do. -/
def Recorded (m : MapT) : Prop := ∀ b < m.xMax * maxWellNum, RecordedAt m b

theorem xBase_add_lt {m : MapT} {w i : Nat} (hw : 1 ≤ w) (hw8 : w ≤ maxWellNum)
    (hi : i < m.xMax) : m.xBase w + i < m.xMax * maxWellNum := by
  have hle : m.xMax * (w - 1) + m.xMax ≤ m.xMax * maxWellNum := by
    rw [← Nat.mul_succ]
    exact Nat.mul_le_mul_left _ (by omega)
  unfold MapT.xBase
  omega

theorem xBase_add_mod {m : MapT} {w i : Nat} (hi : i < m.xMax) :
    (m.xBase w + i) % m.xMax = i := by
  unfold MapT.xBase
  rw [Nat.mul_add_mod, Nat.mod_eq_of_lt hi]

/-- What the invariant is for. -/
theorem Recorded.snapshotAgrees {env : Platform} {s : Rtu} (h : Recorded s.map) :
    SnapshotAgrees env s := by
  intro w i hw hw8 hi hrec htype buf
  have hlt := xBase_add_lt hw hw8 hi
  obtain ⟨h1, h2⟩ := h _ hlt hrec
  rw [xBase_add_mod hi] at h1
  have hrecord : (historyRecord s.map)[s.map.xBase w + i]?
      = some (s.map.ramX (s.map.xBase w + i)) := by
    unfold historyRecord
    rw [List.getElem?_map, List.getElem?_range hlt]
    rfl
  rw [zigbeeReadRegisters_one hw hw8, if_pos hi, hrecord, Option.map_some]
  unfold readCell
  cases ht : s.map.ramXMapType (s.map.xBase w + i) with
  | null => rfl
  | ram => rfl
  | flash1 =>
      dsimp only
      rw [h1 ht]
  | flash2 =>
      dsimp only
      rw [h2 ht]
  | sys => simp [ht] at htype
  | record => simp [ht] at htype
  | ro => simp [ht] at htype
  | rw => simp [ht] at htype

/-! ### The smallest steps -/

/-- The smallest steps of the map's life. Addresses are counted over all wells. -/
inductive MapEvent where
  /-- The empty map over two flash contents. -/
  | powerUp (xMax : Nat) (flash1 flash2 : Nat → UInt16)
  /-- One cell of a row. -/
  | load (xb yb : Nat) (flash1IsNew flash2IsNew : Bool) (c : RowCell)
  /-- The copy of the common cells into one well. -/
  | copyWell (flash2IsNew : Bool) (wellIndex : Nat)
  /-- A type cell in the second flash. -/
  | typeCell (a : Nat) (v : UInt16)
  /-- A word of `ram_x` alone. -/
  | ramWord (a : Nat) (v : UInt16)
  /-- A cell through the write switch, other than a change of type. -/
  | store (w i : Nat) (v : UInt16)
  /-- The own word of an unmapped register. -/
  | regWord (w i : Nat) (v : UInt16)
  /-- A block of `ram_x` filled with one word. -/
  | sweep (a len : Nat) (v : UInt16)
  | elsewhere

/-- The steps as transitions of the unit. -/
inductive EventStep (env : Platform) : Rtu → MapEvent → Rtu → Prop where
  | powerUp (s : Rtu) (xMax : Nat) (f1 f2 : Nat → UInt16) :
      EventStep env s (.powerUp xMax f1 f2) (.start (emptyMap xMax f1 f2))
  | load (s : Rtu) (xb yb : Nat) (b1 b2 : Bool) (c : RowCell) :
      EventStep env s (.load xb yb b1 b2 c) (s.onMap (loadCell xb yb b1 b2 · c))
  | copyWell (s : Rtu) (b2 : Bool) (wellIndex : Nat) :
      EventStep env s (.copyWell b2 wellIndex) (s.onMap (copyWell b2 · wellIndex))
  | typeCell (s : Rtu) (a : Nat) (v : UInt16) :
      EventStep env s (.typeCell a v)
        (s.onMap fun m => { m with flash2 := Function.update m.flash2 a v })
  | ramWord (s : Rtu) (a : Nat) (v : UInt16) :
      EventStep env s (.ramWord a v)
        (s.onMap fun m => { m with ramX := Function.update m.ramX a v })
  | store (s : Rtu) {w i : Nat} (v : UInt16) : 1 ≤ w → w ≤ maxWellNum → i < s.map.xMax →
      (s.map.ramXMapType (s.map.xBase w + i) = .sys → i ≠ mapChangeWellType) →
      EventStep env s (.store w i v) (writeCell env w i v s).2
  | regWord (s : Rtu) (w i : Nat) (v : UInt16) :
      EventStep env s (.regWord w i v) (s.onMap (·.setRamY w i v))
  | sweep (s : Rtu) (a len : Nat) (v : UInt16) :
      EventStep env s (.sweep a len v)
        (s.onMap fun m => { m with ramX := Store.fill a len v m.ramX })
  | elsewhere {s s' : Rtu} : s'.map = s.map → EventStep env s .elsewhere s'

/-- A recorded cell of the given kind, at address `b`. -/
def MapT.Records (m : MapT) (k : MapKind) (b : Nat) : Prop :=
  b < m.xMax * maxWellNum ∧ m.ramXMapRecord b = .record ∧ m.ramXMapType b = k

/-- What the step writes is inside the arrays, and a cell that a row keeps in the shared
flash has its word there. -/
def MapEvent.Inside (xMax : Nat) : MapEvent → Prop
  | .load xb yb b1 _ c => c.Inside xMax xb yb b1 ∧ c.HasWord xMax xb
  | .copyWell _ k => k < maxWellNum ∧ k * xMax + flash1MaxLen ≤ xMax * maxWellNum
  | .typeCell a _ | .ramWord a _ => a < xMax * maxWellNum
  | .regWord w i _ => yBase w + i < maxRegisterNum * maxWellNum
  | .sweep a len _ => a + len ≤ xMax * maxWellNum
  | .powerUp _ _ _ | .store _ _ _ | .elsewhere => True

/-- When a row's cell can be loaded at base `xb`. -/
structure LoadOk (m : MapT) (xb : Nat) (b1 b2 : Bool) (c : RowCell) : Prop where
  /-- A recorded shared-flash cell: the flash is set with it or holds the default. -/
  own1 : c.flags.mapRecord = .record → c.flags.mapType = .flash1 →
    b1 = true ∧ c.x.toNat = (xb + c.x.toNat) % m.xMax ∨
      m.flash1 ((xb + c.x.toNat) % m.xMax) = c.dV
  /-- A recorded well-flash cell: likewise. -/
  own2 : c.flags.mapRecord = .record → c.flags.mapType = .flash2 →
    b2 = true ∨ m.flash2 (xb + c.x.toNat) = c.dV
  /-- Setting the shared flash meets no other recorded copy with another word. -/
  shared : b1 = true → c.flags.mapType = .sys ∨ c.flags.mapType = .flash1 →
    ∀ b, m.Records .flash1 b → b ≠ xb + c.x.toNat → b % m.xMax = c.x.toNat → m.ramX b = c.dV

/-- When word `v` can be stored into cell `i` of well `w`. -/
structure StoreOk (env : Platform) (s : Rtu) (w i : Nat) (v : UInt16) : Prop where
  /-- A failing `msync` leaves the copy as it was. -/
  synced : s.map.Records .flash1 (s.map.xBase w + i) ∨ s.map.Records .flash2 (s.map.xBase w + i) →
    env.msync s.msyncs = true ∨ s.map.ramX (s.map.xBase w + i) = v
  /-- No other well records the shared cell with another word. -/
  shared : s.map.ramXMapType (s.map.xBase w + i) = .flash1 →
    ∀ b, s.map.Records .flash1 b → b ≠ s.map.xBase w + i → b % s.map.xMax = i → s.map.ramX b = v
  /-- An output cell goes to well 1's flash. -/
  output : s.map.ramXMapType (s.map.xBase w + i) = .sys → mapGetDO0 ≤ i → i < mapGetDO0 + 8 →
    s.map.Records .flash2 (s.map.xBase 1 + i) → s.map.ramX (s.map.xBase 1 + i) = v

/-- When a step keeps every recorded flash cell and its flash together. -/
def KeepsTogether (env : Platform) (s : Rtu) : MapEvent → Prop
  | .powerUp _ _ _ => True
  | .load xb _ b1 b2 c => LoadOk s.map xb b1 b2 c
  | .copyWell b2 k => b2 = false → ∀ i < flash1MaxLen, s.map.ramXMapRecord i = .record →
      s.map.ramXMapType i = .flash2 → k * s.map.xMax + i < s.map.xMax * maxWellNum →
      s.map.flash2 (k * s.map.xMax + i) = s.map.ramX i
  | .typeCell a v => s.map.Records .flash2 a → s.map.ramX a = v
  | .ramWord a v => (s.map.Records .flash1 a → s.map.flash1 (a % s.map.xMax) = v) ∧
      (s.map.Records .flash2 a → s.map.flash2 a = v)
  | .store w i v => StoreOk env s w i v
  | .regWord _ _ _ => True
  | .sweep a len v => ∀ b, a ≤ b → b < a + len →
      (s.map.Records .flash1 b → s.map.flash1 (b % s.map.xMax) = v) ∧
        (s.map.Records .flash2 b → s.map.flash2 b = v)
  | .elsewhere => True

/-- When a step stays inside and keeps them together. -/
def EventOk (env : Platform) (s : Rtu) (e : MapEvent) : Prop :=
  e.Inside s.map.xMax ∧ KeepsTogether env s e

/-! ### One step keeps them together -/

theorem Recorded.load {m : MapT} {xb yb : Nat} {b1 b2 : Bool} {c : RowCell} (h : Recorded m)
    (hok : LoadOk m xb b1 b2 c) : Recorded (loadCell xb yb b1 b2 m c) := by
  intro b hb hrec
  have hxm : (loadCell xb yb b1 b2 m c).xMax = m.xMax := rfl
  rw [hxm] at hb
  dsimp only [loadCell] at hrec ⊢
  by_cases hbx : b = xb + c.x.toNat
  · -- the row's own cell
    subst hbx
    rw [Function.update_self] at hrec
    simp only [Function.update_self]
    constructor
    · intro ht
      cases b1 with
      | false => simpa using ((hok.own1 hrec ht).resolve_left (by simp)).symm
      | true =>
          rw [if_pos ⟨.inr ht, rfl⟩]
          by_cases hx : (xb + c.x.toNat) % m.xMax = c.x.toNat
          · rw [hx, Function.update_self]
          · rw [Function.update_of_ne hx]
            exact ((hok.own1 hrec ht).resolve_left (fun hc => hx hc.2.symm)).symm
    · intro ht
      have hne : ¬ ((c.flags.mapType = .sys ∨ c.flags.mapType = .flash1) ∧ b1 = true) := by
        rw [ht]
        simp
      rw [if_neg hne]
      cases b2 with
      | false => simpa using ((hok.own2 hrec ht).resolve_left (by simp)).symm
      | true => rw [if_pos ⟨.inr ht, rfl⟩, Function.update_self]
  · -- any other cell: only the shared flash can change under it
    simp only [Function.update_of_ne hbx] at hrec ⊢
    obtain ⟨h1, h2⟩ := h b hb hrec
    constructor
    · intro ht
      split
      · rename_i hset
        by_cases hx : b % m.xMax = c.x.toNat
        · rw [hx, Function.update_self]
          exact hok.shared hset.2 hset.1 b ⟨hb, hrec, ht⟩ hbx hx
        · rw [Function.update_of_ne hx]
          exact h1 ht
      · exact h1 ht
    · intro ht
      split
      · exact h2 ht
      · split
        · rw [Function.update_of_ne hbx]
          exact h2 ht
        · exact h2 ht

theorem Recorded.copyWell {m : MapT} {b2 : Bool} {k : Nat} (h : Recorded m)
    (hok : b2 = false → ∀ i < flash1MaxLen, m.ramXMapRecord i = .record →
      m.ramXMapType i = .flash2 → k * m.xMax + i < m.xMax * maxWellNum →
      m.flash2 (k * m.xMax + i) = m.ramX i) : Recorded (copyWell b2 m k) := by
  intro b hb hrec
  have hxm : (RtuA118.copyWell b2 m k).xMax = m.xMax := rfl
  rw [hxm] at hb
  dsimp only [RtuA118.copyWell] at hrec ⊢
  by_cases hin : k * m.xMax ≤ b ∧ b < k * m.xMax + flash1MaxLen
  · -- a copied cell is as good as its source
    obtain ⟨i, rfl⟩ := Nat.exists_eq_add_of_le hin.1
    have hi : i < flash1MaxLen := by omega
    simp only [Store.copy_of_mem hi, Nat.zero_add] at hrec ⊢
    obtain ⟨h1, h2⟩ := h i (by omega) hrec
    constructor
    · intro ht
      rw [h1 ht, Nat.add_comm (k * m.xMax) i, Nat.add_mul_mod_self_right]
    · intro ht
      cases b2 with
      | true => rw [if_pos rfl, Store.copy_of_mem hi, Nat.zero_add, h2 ht]
      | false =>
          rw [if_neg Bool.false_ne_true]
          exact (hok rfl i hi hrec ht hb).symm
  · have hout : ∀ {α : Type} (f : Nat → α), Store.copy (k * m.xMax) 0 flash1MaxLen f b = f b := by
      intro α f
      unfold Store.copy
      rw [if_neg hin]
    simp only [hout] at hrec ⊢
    obtain ⟨h1, h2⟩ := h b hb hrec
    refine ⟨h1, fun ht => ?_⟩
    cases b2 with
    | true => rw [if_pos rfl, hout, h2 ht]
    | false => rw [if_neg Bool.false_ne_true, h2 ht]

theorem Recorded.typeCell {m : MapT} {a : Nat} {v : UInt16} (h : Recorded m)
    (hok : m.Records .flash2 a → m.ramX a = v) :
    Recorded { m with flash2 := Function.update m.flash2 a v } := by
  intro b hb hrec
  obtain ⟨h1, h2⟩ := h b hb hrec
  refine ⟨h1, fun ht => ?_⟩
  dsimp only at hrec ht ⊢
  by_cases hba : b = a
  · subst hba
    rw [Function.update_self]
    exact hok ⟨hb, hrec, ht⟩
  · rw [Function.update_of_ne hba]
    exact h2 ht

theorem Recorded.ramWord {m : MapT} {a : Nat} {v : UInt16} (h : Recorded m)
    (hok : (m.Records .flash1 a → m.flash1 (a % m.xMax) = v) ∧
      (m.Records .flash2 a → m.flash2 a = v)) :
    Recorded { m with ramX := Function.update m.ramX a v } := by
  intro b hb hrec
  dsimp only at hb hrec ⊢
  by_cases hba : b = a
  · subst hba
    rw [Function.update_self]
    exact ⟨fun ht => (hok.1 ⟨hb, hrec, ht⟩).symm, fun ht => (hok.2 ⟨hb, hrec, ht⟩).symm⟩
  · rw [Function.update_of_ne hba]
    exact h b hb hrec

theorem Recorded.sweep {m : MapT} {a len : Nat} {v : UInt16} (h : Recorded m)
    (hok : ∀ b, a ≤ b → b < a + len → (m.Records .flash1 b → m.flash1 (b % m.xMax) = v) ∧
      (m.Records .flash2 b → m.flash2 b = v)) :
    Recorded { m with ramX := Store.fill a len v m.ramX } := by
  intro b hb hrec
  dsimp only at hb hrec ⊢
  by_cases hin : a ≤ b ∧ b < a + len
  · rw [Store.fill_of_mem hin]
    obtain ⟨h1, h2⟩ := hok b hin.1 hin.2
    exact ⟨fun ht => (h1 ⟨hb, hrec, ht⟩).symm, fun ht => (h2 ⟨hb, hrec, ht⟩).symm⟩
  · rw [Store.fill_of_not_mem hin]
    exact h b hb hrec

/-- Setting the shared flash under every recorded copy of the cell but one. -/
theorem Recorded.setFlash1 {m : MapT} {w i : Nat} {v : UInt16} (h : Recorded m)
    (hown : m.Records .flash1 (m.xBase w + i) → m.ramX (m.xBase w + i) = v)
    (hshared : ∀ b, m.Records .flash1 b → b ≠ m.xBase w + i → b % m.xMax = i → m.ramX b = v) :
    Recorded (m.setFlash1 i v) := by
  intro b hb hrec
  obtain ⟨h1, h2⟩ := h b hb hrec
  refine ⟨fun ht => ?_, h2⟩
  dsimp only [MapT.setFlash1] at hrec ht ⊢
  by_cases hx : b % m.xMax = i
  · rw [hx, Function.update_self]
    by_cases hbw : b = m.xBase w + i
    · subst hbw
      exact hown ⟨hb, hrec, ht⟩
    · exact hshared b ⟨hb, hrec, ht⟩ hbw hx
  · rw [Function.update_of_ne hx]
    exact h1 ht

/-- Setting the shared flash and the cell's own copy. -/
theorem Recorded.store1 {m : MapT} {w i : Nat} {v : UInt16} (h : Recorded m) (hi : i < m.xMax)
    (ht : m.ramXMapType (m.xBase w + i) = .flash1)
    (hshared : ∀ b, m.Records .flash1 b → b ≠ m.xBase w + i → b % m.xMax = i → m.ramX b = v) :
    Recorded ((m.setFlash1 i v).setRamX w i v) := by
  intro b hb hrec
  dsimp only [MapT.setFlash1, MapT.setRamX, MapT.xBase] at hb hrec ⊢
  by_cases hbw : b = m.xBase w + i
  · have hmod := xBase_add_mod (w := w) hi
    rw [← hbw] at hmod ht
    rw [show b = m.xMax * (w - 1) + i from hbw, Function.update_self,
      ← show b = m.xMax * (w - 1) + i from hbw, hmod, Function.update_self]
    exact ⟨fun _ => rfl, fun h2 => by rw [ht] at h2; cases h2⟩
  · rw [Function.update_of_ne (show b ≠ m.xMax * (w - 1) + i from hbw)]
    obtain ⟨h1, h2⟩ := h b hb hrec
    refine ⟨fun ht' => ?_, h2⟩
    by_cases hx : b % m.xMax = i
    · rw [hx, Function.update_self]
      exact hshared b ⟨hb, hrec, ht'⟩ hbw hx
    · rw [Function.update_of_ne hx]
      exact h1 ht'

/-- Setting a well's flash and the cell's copy. -/
theorem Recorded.store2 {m : MapT} {w i : Nat} {v : UInt16} (h : Recorded m)
    (ht : m.ramXMapType (m.xBase w + i) ≠ .flash1) :
    Recorded ((m.setFlash2 w i v).setRamX w i v) := by
  intro b hb hrec
  dsimp only [MapT.setFlash2, MapT.setRamX, MapT.xBase] at hb hrec ⊢
  by_cases hbw : b = m.xMax * (w - 1) + i
  · subst hbw
    rw [Function.update_self, Function.update_self]
    exact ⟨fun h1 => absurd h1 ht, fun _ => rfl⟩
  · rw [Function.update_of_ne hbw, Function.update_of_ne hbw]
    exact h b hb hrec

/-- The copy of a cell that is not a flash cell is free. -/
theorem Recorded.setRamX {m : MapT} {w i : Nat} {v : UInt16} (h : Recorded m)
    (h1 : m.ramXMapType (m.xBase w + i) ≠ .flash1) (h2 : m.ramXMapType (m.xBase w + i) ≠ .flash2) :
    Recorded (m.setRamX w i v) :=
  h.ramWord ⟨fun hr => absurd hr.2.2 h1, fun hr => absurd hr.2.2 h2⟩

theorem Recorded.store {env : Platform} {s : Rtu} {w i : Nat} {v : UInt16} (h : Recorded s.map)
    (hw : 1 ≤ w) (hw8 : w ≤ maxWellNum) (hi : i < s.map.xMax)
    (h0 : s.map.ramXMapType (s.map.xBase w + i) = .sys → i ≠ mapChangeWellType)
    (hok : StoreOk env s w i v) : Recorded (writeCell env w i v s).2.map := by
  have hlt := xBase_add_lt hw hw8 hi
  -- where `msync` fails the word in RAM is not set, and had to be there already
  cases ht : s.map.ramXMapType (s.map.xBase w + i) with
  | null =>
      simp only [writeCell, ht]
      exact h.setRamX (by simp [ht]) (by simp [ht])
  | ram =>
      simp only [writeCell, ht]
      exact h.setRamX (by simp [ht]) (by simp [ht])
  | flash1 =>
      rw [writeCell_flash1 ht]
      dsimp only [Rtu.onMap_map]
      split
      · exact h.store1 hi ht (hok.shared ht)
      · rename_i hfail
        refine h.setFlash1 (fun hr => ?_) (hok.shared ht)
        exact (hok.synced (.inl hr)).resolve_left hfail
  | flash2 =>
      rw [writeCell_flash2 ht]
      dsimp only [Rtu.onMap_map]
      split
      · exact h.store2 (by simp [ht])
      · rename_i hfail
        refine h.typeCell fun hr => ?_
        exact (hok.synced (.inr hr)).resolve_left hfail
  | sys =>
      simp only [writeCell, ht]
      have h1 : s.map.ramXMapType (s.map.xBase w + i) ≠ .flash1 := by simp [ht]
      have h2 : s.map.ramXMapType (s.map.xBase w + i) ≠ .flash2 := by simp [ht]
      split
      · rename_i v' s' hf
        rw [Rtu.onMap_map]
        obtain hm | hm | ⟨hlo, hhi, hm⟩ | hm := mapMapFunWrite_map hf (h0 ht)
        · rw [hm]
          exact h.setRamX h1 h2
        · rw [hm]
          exact (h.store2 h1).setRamX h1 h2
        · -- an output: well 1's flash, this well's copy
          rw [hm]
          have hflash : Recorded (s.map.setFlash2 1 i v) :=
            h.typeCell (hok.output ht hlo hhi)
          exact (hflash.setRamX (v := v) h1 h2).setRamX h1 h2
        · rw [hm]
          exact (h.setRamX (v := v) h1 h2).setRamX h1 h2
      · exact h.setRamX h1 h2
  | _ => simpa only [writeCell, ht] using h

/-- **One step.** -/
theorem Recorded.event {env : Platform} {s s' : Rtu} {e : MapEvent} (h : Recorded s.map)
    (hok : KeepsTogether env s e) (hstep : EventStep env s e s') : Recorded s'.map := by
  cases hstep with
  | powerUp xMax f1 f2 => intro b _ hrec; cases hrec
  | load xb yb b1 b2 c => exact h.load hok
  | copyWell b2 k => exact h.copyWell hok
  | typeCell a v => exact h.typeCell hok
  | ramWord a v => exact h.ramWord hok
  | store v hw hw8 hi h0 => exact h.store hw hw8 hi h0 hok
  | regWord w i v => exact h
  | sweep a len v => exact h.sweep hok
  | elsewhere hmap => rw [hmap]; exact h

/-! ### Every life of the map is made of these steps -/

/-- A unit with an empty map. -/
def PoweredUp (s : Rtu) : Prop := ∃ xMax f1 f2, s = .start (emptyMap xMax f1 f2)

/-- The states reached by the smallest steps. -/
def EventReach (env : Platform) : Rtu → Prop := Reach PoweredUp (EventStep env)

/-- A guard on the steps that admits what the operations on well `w` do. -/
structure AdmitsWell (env : Platform) (xMax w : Nat) (G : Rtu → MapEvent → Prop) : Prop where
  typeCell : ∀ s, s.map.xMax = xMax → ∀ t, G s (.typeCell (s.map.xBase w) t)
  row : ∀ s, s.map.xMax = xMax → ∀ t path, getMap00Path env t = some path →
    ∀ c ∈ fileCells env path, G s (.load (s.map.xBase w) (yBase w) false true c)
  ramWord : ∀ s, s.map.xMax = xMax → ∀ i < xMax, ∀ v, G s (.ramWord (s.map.xBase w + i) v)
  sweep : ∀ s, s.map.xMax = xMax → ∀ i len, i + len ≤ xMax → ∀ v : UInt16,
    G s (.sweep (s.map.xBase w + i) len (wordOfBytes (loByte v) (loByte v)))
  regWord : ∀ s, ∀ i < maxRegisterNum, ∀ v, G s (.regWord w i v)
  store : ∀ s i v, G s (.store w i v)
  elsewhere : ∀ s, G s .elsewhere

/-- A guard that admits what a boot does. -/
structure AdmitsBoot (env : Platform) (xMax : Nat) (G : Rtu → MapEvent → Prop) : Prop where
  common : ∀ s, s.map.xMax = xMax → ∀ b1 b2, ∀ c ∈ fileCells env pathMap1, G s (.load 0 0 b1 b2 c)
  copyWell : ∀ s, s.map.xMax = xMax → ∀ b2, ∀ k < maxWellNum, G s (.copyWell b2 k)
  typeCell : ∀ s, s.map.xMax = xMax → ∀ k < maxWellNum, G s (.typeCell (k * xMax) 1)
  row : ∀ s, s.map.xMax = xMax → ∀ b2, ∀ k < maxWellNum, ∀ t, ∀ c ∈ fileCells env (bootPath env t),
    G s (.load (k * xMax) (k * maxRegisterNum) false b2 c)

section Guard

variable {env : Platform} {G : Rtu → MapEvent → Prop} {w : Nat}

theorem foldl_loadCell_events {xb yb : Nat} {b1 b2 : Bool} :
    ∀ {cs : List RowCell} {s : Rtu},
      (∀ s', s'.map.xMax = s.map.xMax → ∀ c ∈ cs, G s' (.load xb yb b1 b2 c)) →
      Steps (guarded G (EventStep env)) s (s.onMap fun m => cs.foldl (loadCell xb yb b1 b2) m) := by
  intro cs
  induction cs with
  | nil => exact fun _ => .refl
  | cons c cs ih =>
      intro s hG
      refine (Steps.one ⟨hG s rfl c List.mem_cons_self, .load s xb yb b1 b2 c⟩).trans (ih ?_)
      exact fun s' hs' d hd => hG s' hs' d (List.mem_cons_of_mem _ hd)

theorem foldl_copyWell_events {b2 : Bool} : ∀ {is : List Nat} {s : Rtu},
    (∀ s', s'.map.xMax = s.map.xMax → ∀ i ∈ is, G s' (.copyWell b2 i)) →
    Steps (guarded G (EventStep env)) s (s.onMap fun m => is.foldl (copyWell b2) m) := by
  intro is
  induction is with
  | nil => exact fun _ => .refl
  | cons i is ih =>
      intro s hG
      refine (Steps.one ⟨hG s rfl i List.mem_cons_self, .copyWell s b2 i⟩).trans (ih ?_)
      exact fun s' hs' j hj => hG s' hs' j (List.mem_cons_of_mem _ hj)

theorem msync_events {s s' : Rtu} {b : Bool} (hG : ∀ s, G s .elsewhere)
    (h : s.msync env = (b, s')) : Steps (guarded G (EventStep env)) s s' := by
  obtain ⟨-, rfl⟩ := Rtu.msync_eq h
  exact .one ⟨hG s, .elsewhere rfl⟩

theorem mapItemRemap_events {t : UInt16} {s : Rtu} (hG : AdmitsWell env s.map.xMax w G) :
    Steps (guarded G (EventStep env)) s (mapItemRemap env w t s).2 := by
  obtain ⟨-, hs⟩ | ⟨path, hpath, -, s', rfl, hs⟩ := mapItemRemap_cases env w t s
  · rw [hs]
    exact .refl
  · have htype : Steps (guarded G (EventStep env)) s (s.onMap (·.setFlash2 w 0 t)) :=
      .one ⟨hG.typeCell s rfl t, .typeCell s (s.map.xBase w + 0) t⟩
    have hload : Steps (guarded G (EventStep env)) (s.onMap (·.setFlash2 w 0 t))
        ((s.onMap (·.setFlash2 w 0 t)).onMap fun m => (fileCells env path).foldl
          (loadCell (s.map.xBase w) (yBase w) false true) m) := by
      refine foldl_loadCell_events fun s' hs' c hc => ?_
      have hbase : s'.map.xBase w = s.map.xBase w := congrArg (· * (w - 1)) hs'
      exact hbase ▸ hG.row s' hs' t path hpath c hc
    rcases hs with hs | hs <;> rw [hs]
    · exact htype.trans hload
    · exact (htype.trans hload).trans (msync_events hG.elsewhere rfl)

theorem writeCell_events {i : Nat} {v : UInt16} {s : Rtu} (hG : AdmitsWell env s.map.xMax w G)
    (hw : 1 ≤ w) (hw8 : w ≤ maxWellNum) (hi : i < s.map.xMax) :
    Steps (guarded G (EventStep env)) s (writeCell env w i v s).2 := by
  by_cases h0 : s.map.ramXMapType (s.map.xBase w + i) = .sys ∧ i = mapChangeWellType
  · obtain ⟨ht, rfl⟩ := h0
    unfold writeCell
    rw [ht]
    dsimp only
    rw [mapMapFunWrite_change]
    exact (mapItemRemap_events hG).trans
      (.one ⟨hG.ramWord _ mapItemRemap_xMax _ hi v,
        .ramWord _ ((mapItemRemap env w v s).2.map.xBase w + mapChangeWellType) v⟩)
  · exact .one ⟨hG.store s i v, .store s v hw hw8 hi fun ht hi0 => h0 ⟨ht, hi0⟩⟩

theorem writeCells_events (hw : 1 ≤ w) (hw8 : w ≤ maxWellNum) :
    ∀ {vs : List UInt16} {i : Nat} {s : Rtu}, AdmitsWell env s.map.xMax w G →
      i + vs.length ≤ s.map.xMax →
      Steps (guarded G (EventStep env)) s (writeCells env w i vs s).2 := by
  intro vs
  induction vs with
  | nil => intro i s _ _; exact .refl
  | cons v vs ih =>
      intro i s hG hlen
      rw [List.length_cons] at hlen
      have hcell : Steps (guarded G (EventStep env)) s (writeCell env w i v s).2 :=
        writeCell_events hG hw hw8 (by omega)
      have hx : (writeCell env w i v s).2.map.xMax = s.map.xMax := writeCell_xMax
      unfold writeCells
      split
      · rename_i s' hs
        rw [hs] at hcell hx
        exact hcell.trans (ih (hx.symm ▸ hG) (by rw [hx]; omega))
      · rename_i s' hs
        rw [hs] at hcell
        exact hcell

theorem zigbeeWriteRegisters_events {buf : Nat → UInt16} {len wellNum addr : Int} {s : Rtu}
    (hG : ∀ w ≤ maxWellNum, AdmitsWell env s.map.xMax w G) :
    Steps (guarded G (EventStep env)) s (zigbeeWriteRegisters env buf len wellNum addr s).2 := by
  unfold zigbeeWriteRegisters
  split
  · rename_i hargs
    obtain ⟨h8, h1, ha, hl, hlen⟩ := cellArgsOk_iff.1 hargs
    have h8' : (maxWellNum : Int) = 8 := rfl
    refine writeCells_events (by omega) (by omega) (hG _ (by omega)) ?_
    rw [List.length_map, List.length_range]
    omega
  · exact .refl

theorem mapModbusWriteRegisters_events {buf : Nat → UInt16} {len wellNum addr : Int} {bigL : Bool}
    {s : Rtu} (hG : ∀ w ≤ maxWellNum, AdmitsWell env s.map.xMax w G) :
    Steps (guarded G (EventStep env)) s
      (mapModbusWriteRegisters env buf len wellNum addr bigL s).2 := by
  unfold mapModbusWriteRegisters modbusWriteLanded
  split
  · rename_i hargs
    obtain ⟨h8, -, h0, -, hend⟩ := registerArgsOk_iff.1 hargs
    have hw8 : wellNum.toNat ≤ maxWellNum := Int.toNat_le.2 h8
    dsimp only
    have hrun : ∀ n ≤ len.toNat,
        (modbusWriteLoop env buf bigL wellNum.toNat addr.toNat s n).rtu.map.xMax = s.map.xMax ∧
          Steps (guarded G (EventStep env)) s
            (modbusWriteLoop env buf bigL wellNum.toNat addr.toNat s n).rtu := by
      intro n
      induction n with
      | zero => exact fun _ => ⟨rfl, .refl⟩
      | succ n ih =>
          intro hn
          obtain ⟨hx, hsteps⟩ := ih (by omega)
          rw [modbusWriteLoop]
          refine ⟨WriteLoop.turn_xMax.trans hx, hsteps.trans ?_⟩
          unfold WriteLoop.turn
          dsimp only
          split
          · have hi : addr.toNat + n < maxRegisterNum := show addr.toNat + n < 10000 by omega
            rw [modbusWriteLoop_i]
            exact .one ⟨(hG _ hw8).regWord _ _ hi _, .regWord _ _ _ _⟩
          · split
            · exact .refl
            · exact zigbeeWriteRegisters_events (hx.symm ▸ hG)
          · exact .refl
    exact (hrun _ (Nat.le_refl _)).2
  · exact .refl

theorem loadWells_events {b2 : Bool} : ∀ {is : List Nat} {m m' : MapT},
    AdmitsBoot env m.xMax G → (∀ i ∈ is, i < maxWellNum) → loadWells env b2 is m = (some 0, m') →
      Steps (guarded G (EventStep env)) (.start m) (.start m') := by
  intro is
  induction is with
  | nil =>
      intro m m' _ _ h
      cases h
      exact .refl
  | cons i is ih =>
      intro m m' hG his h
      unfold loadWells at h
      split at h
      · rename_i m1 h1
        have hi := his i List.mem_cons_self
        have hrun : ramMapFlash1ValueInit env (i * (wellTypePath env i m).2.xMax)
            (i * maxRegisterNum) false b2 (wellTypePath env i m).1 false
            (wellTypePath env i m).2 = (some 0, m1) := h1
        have hm1 := ramMapFlash1ValueInit_ok hrun
        rw [if_neg Bool.false_ne_true] at hm1
        have htype : (wellTypePath env i m).2.xMax = m.xMax ∧
            (wellTypePath env i m).1 = bootPath env (m.flash2 (i * m.xMax)) ∧
            Steps (guarded G (EventStep env)) (.start m) (.start (wellTypePath env i m).2) := by
          unfold wellTypePath bootPath
          cases getMap00Path env (m.flash2 (i * m.xMax)) with
          | some path => exact ⟨rfl, rfl, .refl⟩
          | none =>
              exact ⟨rfl, rfl, .one ⟨hG.typeCell (.start m) rfl i hi,
                .typeCell (.start m) (i * m.xMax) 1⟩⟩
        obtain ⟨hx, hpath, htype⟩ := htype
        have hload : Steps (guarded G (EventStep env)) (.start (wellTypePath env i m).2)
            (.start m1) := by
          rw [hm1, hx, hpath]
          refine foldl_loadCell_events fun s' hs' c hc => ?_
          exact hG.row s' (hs'.trans hx) b2 i hi _ c hc
        have hx1 : m1.xMax = m.xMax := by rw [hm1, foldl_loadCell_xMax, hx]
        exact (htype.trans hload).trans
          (ih (hx1.symm ▸ hG) (fun j hj => his j (List.mem_cons_of_mem _ hj)) h)
      · rename_i hne
        exact (hne m' h).elim

/-- A boot is such steps from an empty map. -/
theorem mapInit_events {f1 f2 : Option FlashFile} {k : Nat} {m : MapT}
    (h : mapInit env f1 f2 k = some m) (hG : AdmitsBoot env m.xMax G) :
    ∃ g1 g2, Steps (guarded G (EventStep env)) (.start (emptyMap m.xMax g1 g2)) (.start m) := by
  obtain ⟨xMax, hx, hm⟩ := mapInit_xMax h
  obtain ⟨xMax', m1, hx', -, h1, h2⟩ := mapInit_ok h
  obtain rfl := Option.some.inj (hx.symm.trans hx')
  have hm1 := ramMapFlash1ValueInit_ok h1
  rw [if_pos rfl] at hm1
  have hx1 : m1.xMax = xMax.toNat := by rw [hm1, foldl_copyWell_xMax, foldl_loadCell_xMax, emptyMap]
  rw [hm] at hG ⊢
  have hcommon : Steps (guarded G (EventStep env)) (.start (emptyMap xMax.toNat
      (flashOpen flash1MaxLen f1).2 (flashOpen (xMax.toNat * maxWellNum) f2).2)) (.start m1) := by
    rw [hm1]
    refine (foldl_loadCell_events fun s' hs' c hc => hG.common s' hs' _ _ c hc).trans
      (foldl_copyWell_events fun s' hs' i hi => hG.copyWell s' (hs'.trans ?_) _ i ?_)
    · exact foldl_loadCell_xMax
    · rw [List.mem_range'_1] at hi
      omega
  exact ⟨_, _, hcommon.trans (loadWells_events (hx1.symm ▸ hG) (fun i => List.mem_range.1) h2)⟩

/-- An operation is such steps; a reboot is from an empty map. -/
theorem MapStep.events {s s' : Rtu} {op : MapOp} (h : MapStep env s op s')
    (hboot : AdmitsBoot env s'.map.xMax G)
    (hwell : ∀ w ≤ maxWellNum, AdmitsWell env s.map.xMax w G)
    (hremap : ∀ w t, op = .remap w t → AdmitsWell env s.map.xMax w G) :
    Steps (guarded G (EventStep env)) s s' ∨
      ∃ g1 g2, Steps (guarded G (EventStep env)) (.start (emptyMap s'.map.xMax g1 g2)) s' := by
  cases h with
  | modbusWrite => exact .inl (mapModbusWriteRegisters_events hwell)
  | internalWrite => exact .inl (zigbeeWriteRegisters_events hwell)
  | mset v len wellNum addr =>
      left
      unfold zigbeeWriteRegistersMset
      split
      · rename_i hargs
        obtain ⟨h8, h1, ha, hl, hlen⟩ := cellArgsOk_iff.1 hargs
        exact .one ⟨(hwell _ (Int.toNat_le.2 h8)).sweep s rfl _ _ (by omega) v,
          .sweep _ _ _ _⟩
      · exact .refl
  | remap w t => exact .inl (mapItemRemap_events (hremap w t rfl))
  | reboot hinit => exact .inr (mapInit_events hinit hboot)
  | elsewhere hm => exact .inl (.one ⟨(hwell 0 (by decide)).elsewhere s, .elsewhere hm⟩)

end Guard

theorem admitsWell_true (env : Platform) (xMax w : Nat) :
    AdmitsWell env xMax w fun _ _ => True := by
  constructor <;> intros <;> trivial

theorem admitsBoot_true (env : Platform) (xMax : Nat) :
    AdmitsBoot env xMax fun _ _ => True := by
  constructor <;> intros <;> trivial

/-- Every state of the map's life is reached by the smallest steps. -/
theorem MapReach.events {env : Platform} {s : Rtu} (h : MapReach env s) : EventReach env s := by
  refine Reach.refine ?_ ?_ h
  · rintro s ⟨f1, f2, k, m, hm, rfl⟩
    obtain ⟨g1, g2, hsteps⟩ := mapInit_events hm (admitsBoot_true env _)
    exact (Reach.start ⟨_, g1, g2, rfl⟩).steps hsteps.of_guarded
  · intro s a s' hstep hreach
    obtain hsteps | ⟨g1, g2, hsteps⟩ := hstep.events (admitsBoot_true env _)
      (fun w _ => admitsWell_true env _ w) fun w _ _ => admitsWell_true env _ w
    · exact hreach.steps hsteps.of_guarded
    · exact (Reach.start ⟨_, g1, g2, rfl⟩).steps hsteps.of_guarded

/-! ### The whole run -/

/-- **The snapshot is live.** Every life of the map is a run of the smallest steps,
and in every such run whose steps all meet `EventOk`, in every state, the history
record has the words a read returns. -/
theorem snapshot_live (env : Platform) :
    (∀ s, MapReach env s → EventReach env s) ∧
      ∀ s, Reach PoweredUp (guarded (EventOk env) (EventStep env)) s → SnapshotAgrees env s := by
  refine ⟨fun s h => h.events, fun s h => ?_⟩
  refine Recorded.snapshotAgrees (Reach.invariant (P := fun s => Recorded s.map) ?_ ?_ h)
  · rintro s ⟨xMax, f1, f2, rfl⟩ b _ hrec
    cases hrec
  · rintro s e s' hs ⟨hok, hstep⟩
    exact hs.event hok.2 hstep

/-! ### A recorded cell across a reboot -/

/-- One type whose only row is a recorded flash cell with default 5. -/
def oneRecorded : Platform := .bare fun path =>
  if path = pathMap0 then some "1,/a".toList
  else if path = pathMap1 then some "0,40001,1,RW,SYS".toList
  else if path = "/a".toList then some "300,40301,5,RW,RECORD,FLASH2".toList
  else none

/-- Its boot over a flash file that holds the word 1 everywhere. -/
def bootRecorded : MapT := (mapInit oneRecorded none (some (typedFlash 1)) 0).get (by decide)

theorem bootRecorded_reach : MapReach oneRecorded (.start bootRecorded) :=
  .start ⟨none, some (typedFlash 1), 0, bootRecorded, by simp [bootRecorded], rfl⟩

/-- The boot puts the default 5 into the RAM copy and leaves 1 in the flash. -/
theorem not_snapshotAgrees : ¬ ∀ env s, MapReach env s → SnapshotAgrees env s := by
  intro h
  have hread := h oneRecorded _ bootRecorded_reach 1 300 (by decide) (by decide) (by decide)
    (by decide) (by decide) (fun _ => 0)
  have hlive : zigbeeReadRegisters oneRecorded (.start bootRecorded) (fun _ => 0) 1 (1 : Nat)
      (300 : Nat) = some [1] := by decide
  have hcopy : (historyRecord bootRecorded)[300]?.map (fun v => [v]) = some [5] := by
    have hram : bootRecorded.ramX 300 = 5 := by decide
    have hlt : 300 < bootRecorded.xMax * maxWellNum := by decide
    unfold historyRecord
    rw [List.getElem?_map, List.getElem?_range hlt]
    simp [hram]
  exact absurd (hlive.symm.trans (hread.trans hcopy)) (by decide)

/-- The same row over a new flash, and then the word 9 stored into its cell. -/
def recordedRow : RowCell := ⟨300, 300, 5, ⟨.flash2, .record, .rw⟩⟩

def freshRecorded : Rtu :=
  (Rtu.start (emptyMap 301 (fun _ => 0) fun _ => 0)).onMap (loadCell 0 0 false true · recordedRow)

theorem recordedRow_inside : (MapEvent.load 0 0 false true recordedRow).Inside 301 :=
  ⟨⟨by decide, by decide, nofun⟩, nofun⟩

theorem recordedRow_ok (m : MapT) : LoadOk m 0 false true recordedRow where
  own1 := nofun
  own2 := fun _ _ => .inl rfl
  shared := nofun

theorem freshRecorded_kind :
    freshRecorded.map.ramXMapType (freshRecorded.map.xBase 1 + 300) = .flash2 := by decide

theorem freshRecorded_store : StoreOk oneRecorded freshRecorded 1 300 9 where
  synced := fun _ => .inl rfl
  shared := fun h => by simp [freshRecorded_kind] at h
  output := fun h => by simp [freshRecorded_kind] at h

theorem freshRecorded_snapshotAgrees :
    SnapshotAgrees oneRecorded (writeCell oneRecorded 1 300 9 freshRecorded).2 := by
  refine (snapshot_live oneRecorded).2 _ (.step (a := .store 1 300 9)
    (.step (a := .load 0 0 false true recordedRow) (.start ⟨301, fun _ => 0, fun _ => 0, rfl⟩)
      ⟨⟨recordedRow_inside, recordedRow_ok _⟩, .load _ 0 0 false true recordedRow⟩)
    ⟨⟨trivial, freshRecorded_store⟩, .store _ 9 (by decide) (by decide) (by decide) fun h => ?_⟩)
  exact absurd (freshRecorded_kind.symm.trans h) (by decide)

end RtuA118
