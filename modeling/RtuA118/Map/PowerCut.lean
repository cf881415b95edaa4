import RtuA118.Map.BootFlash

/-!
# RtuA118.Map.PowerCut

The register map and its flash files through **power cuts**.

The program may be stopped between any two of its accesses to the files, with any of the words it
has stored written back or not; then the power may be lost, and the next boot, which may be broken
off as well, has what is on the disk. `PowerStep` adds this to the steps of `RtuA118.Map.Life`.

As long as no change of type and no factory reset is interrupted, it comes to nothing new: an
interrupted write is one of fewer words (`interrupted_write`). So what holds over the life of the
map holds of it under power cuts (`powerCuts_add_nothing`).
-/

namespace RtuA118

open Mapped
open Run (Reach Steps guarded)

/-! ### The unit and its disk -/

/-- The unit runs, beside what is on the disk; or it stands still, with blocks of `xMax` cells in
its second flash. -/
inductive Powered where
  | running (s : Rtu) (disk : FlashWord → UInt16)
  | stopped (xMax : Nat) (files : File FlashWord UInt16)

/-- What can happen to it. -/
inductive PowerOp where
  | op (o : LifeOp)
  | stop (o : LifeOp)
  | powerLoss
  | boot
  | bootStop

/-- One step. A stop comes somewhere in an operation, or at its end. -/
inductive PowerStep (env : Platform) : Powered → PowerOp → Powered → Prop where
  | op {s s' : Rtu} {o : LifeOp} {disk : FlashWord → UInt16} {y : File FlashWord UInt16} :
      LifeStep env s o s' → o ≠ .map .reboot → Carries (o.accesses env s) ⟨s.map.flash, disk⟩ y →
      PowerStep env (.running s disk) (.op o) (.running s' y.disk)
  | stop {s : Rtu} {o : LifeOp} {disk : FlashWord → UInt16} {es : List FlashAccess}
      {y : File FlashWord UInt16} :
      es <+: o.accesses env s → Carries es ⟨s.map.flash, disk⟩ y →
      PowerStep env (.running s disk) (.stop o) (.stopped s.map.xMax y)
  | powerLoss {xMax : Nat} {x : File FlashWord UInt16} :
      PowerStep env (.stopped xMax x) .powerLoss (.stopped xMax x.powerLoss)
  | boot {xMax n : Nat} {x y : File FlashWord UInt16} {m : MapT} :
      bootFrom env xMax x.mem n = some m → Carries (bootAccesses env xMax x.mem n) x y →
      PowerStep env (.stopped xMax x) .boot (.running (.start m) y.disk)
  | bootStop {xMax n : Nat} {x y : File FlashWord UInt16} {es : List FlashAccess} :
      es <+: bootAccesses env xMax x.mem n → Carries es x y →
      PowerStep env (.stopped xMax x) .bootStop (.stopped xMax y)

/-- After a boot with whatever flash files were there, which has synced both. -/
def PoweredOn (env : Platform) (p : Powered) : Prop :=
  ∃ s, Booted env s ∧ p = .running s s.map.flash

/-- The states of the map's life, without power cuts. -/
def LifeReach (env : Platform) : Rtu → Prop := Reach (Booted env) (LifeStep env)

/-! ### Operations that can be stopped -/

/-- Accesses that store none of these words. -/
def Sparing (words : FlashWord → Prop) (es : List FlashAccess) : Prop :=
  ∀ a v, Access.store a v ∈ es → ¬ words a

theorem Sparing.left {words : FlashWord → Prop} {es es' : List FlashAccess}
    (h : Sparing words (es ++ es')) : Sparing words es :=
  fun a v hmem => h a v (List.mem_append_left _ hmem)

theorem Sparing.right {words : FlashWord → Prop} {es es' : List FlashAccess}
    (h : Sparing words (es ++ es')) : Sparing words es' :=
  fun a v hmem => h a v (List.mem_append_right _ hmem)

theorem Sparing.of_prefix {words : FlashWord → Prop} {es es' : List FlashAccess}
    (h : Sparing words es') (hpre : es <+: es') : Sparing words es :=
  fun a v hmem => h a v (hpre.subset hmem)

/-- The length of a well's block in the second flash, as the files of the types say. -/
def IsBlockSize (env : Platform) (k : Nat) : Prop :=
  ∃ xMax, getXYZMaxLen env = some xMax ∧ xMax ≠ 0 ∧ k = xMax.toNat

theorem isBlockSize_of_boot {env : Platform} {f1 f2 : Option FlashFile} {n : Nat} {m : MapT}
    (h : mapInit env f1 f2 n = some m) : IsBlockSize env m.xMax := by
  obtain ⟨xMax, -, hx, hx0, -, -⟩ := mapInit_ok h
  obtain ⟨xMax', hx', hm⟩ := mapInit_xMax h
  obtain rfl : xMax' = xMax := Option.some.inj (hx'.symm.trans hx)
  exact ⟨xMax', hx, hx0, hm⟩

/-- The words that hold the types of wells: the first of each block. -/
def IsTypeWord (env : Platform) (a : FlashWord) : Prop :=
  ∃ xMax k, getXYZMaxLen env = some xMax ∧ a = .two (k * xMax.toNat)

theorem isTypeWord_xBase {env : Platform} {xMax : UInt16} (hx : getXYZMaxLen env = some xMax)
    {m : MapT} (hsize : m.xMax = xMax.toNat) (w : Nat) : IsTypeWord env (.two (m.xBase w)) :=
  ⟨xMax, w - 1, hx, by rw [MapT.xBase, hsize, Nat.mul_comm]⟩

/-- An operation that ends is one of `ends`; one that is stopped is no factory reset and stores
none of `words`. -/
def PowerOp.Allowed (env : Platform) (ends : Rtu → LifeOp → Prop) (words : FlashWord → Prop) :
    Powered → PowerOp → Prop
  | .running s _, .op o => ends s o
  | .running s _, .stop o => o ≠ .factoryReset ∧ Sparing words (o.accesses env s)
  | _, _ => True

/-- What the loops need of a property `R` of the unit: where it holds before and after the write of
a cell, this can be stopped wherever `Q` allows. -/
structure Piecewise (env : Platform) (Q : File FlashWord UInt16 → Prop) (R : Rtu → Prop)
    (words : FlashWord → Prop) : Prop where
  start : ∀ {s}, R s → Q (.stored s.map.flash)
  cell : ∀ {s w i v}, R s → R (writeCell env w i v s).2 →
    Sparing words (writeCellAccesses env w i v s) →
    Recoverable Q (writeCellAccesses env w i v s) s.map.flash (writeCell env w i v s).2.map.flash

theorem take_range_map {buf : Nat → UInt16} {j n : Nat} (h : j ≤ n) :
    ((List.range n).map buf).take j = (List.range j).map buf := by
  rw [← List.map_take, List.take_range, Nat.min_eq_left h]

theorem zigbeeWriteRegisters_zero {env : Platform} {buf : Nat → UInt16} {wellNum addr : Int}
    {s : Rtu} : (zigbeeWriteRegisters env buf 0 wellNum addr s).2 = s := by
  unfold zigbeeWriteRegisters
  rw [if_neg fun hok => absurd (cellArgsOk_iff.1 hok).2.2.2.1 (by decide)]

namespace Piecewise

variable {env : Platform} {Q : File FlashWord UInt16 → Prop} {R : Rtu → Prop}
  {words : FlashWord → Prop} (h : Piecewise env Q R words) (hrel : env.Reliable)

include h

/-- No accesses, and the flash as before. -/
theorem nil {s s' : Rtu} (hs : R s) (hflash : s'.map.flash = s.map.flash) :
    Recoverable Q [] s.map.flash s'.map.flash := hflash.symm ▸ .nil (h.start hs)

include hrel

/-- The write loop, where `R` holds after each of its words. -/
theorem writeCells {w : Nat} : ∀ {vs : List UInt16} {i : Nat} {s : Rtu},
    (∀ j ≤ vs.length, R (writeCells env w i (vs.take j) s).2) →
    Sparing words (writeCellsAccesses env w i vs s) →
    Recoverable Q (writeCellsAccesses env w i vs s) s.map.flash
      (RtuA118.writeCells env w i vs s).2.map.flash := by
  intro vs
  induction vs with
  | nil => intro i s hR _; exact h.nil (hR 0 (Nat.le_refl 0)) rfl
  | cons v vs ih =>
      intro i s hR hes
      have hgo : (writeCell env w i v s).1 = true := (writeCell_accesses hrel w i v s).1
      have hnext : ∀ us, (RtuA118.writeCells env w i (v :: us) s).2 =
          (RtuA118.writeCells env w (i + 1) us (writeCell env w i v s).2).2 := fun us => by
        rw [writeCells_cons, if_pos hgo]
      rw [writeCellsAccesses, if_pos hgo] at hes ⊢
      have hR1 : ∀ j ≤ vs.length,
          R (RtuA118.writeCells env w (i + 1) (vs.take j) (writeCell env w i v s).2).2 :=
        fun j hj => hnext (vs.take j) ▸ hR (j + 1) (Nat.succ_le_succ hj)
      rw [hnext]
      exact (h.cell (hR 0 (Nat.zero_le _)) (hR1 0 (Nat.zero_le _)) hes.left).append
        (ih hR1 hes.right)

/-- `zigbee_write_registers`, where `R` holds after each number of its words. -/
theorem zigbeeWriteRegisters {buf : Nat → UInt16} {len wellNum addr : Int} {s : Rtu} (hs : R s)
    (hR : cellArgsOk s.map len wellNum addr = true → ∀ j : Nat, j ≤ len →
      R (zigbeeWriteRegisters env buf j wellNum addr s).2)
    (hes : Sparing words (zigbeeWriteRegistersAccesses env buf len wellNum addr s)) :
    Recoverable Q (zigbeeWriteRegistersAccesses env buf len wellNum addr s) s.map.flash
      (RtuA118.zigbeeWriteRegisters env buf len wellNum addr s).2.map.flash := by
  unfold zigbeeWriteRegistersAccesses at hes ⊢
  unfold RtuA118.zigbeeWriteRegisters
  by_cases hok : cellArgsOk s.map len wellNum addr = true
  · rw [if_pos hok] at hes
    rw [if_pos hok, if_pos hok]
    refine h.writeCells hrel (fun j hj => ?_) hes
    rw [List.length_map, List.length_range] at hj
    rw [take_range_map hj]
    have hargs := cellArgsOk_iff.1 hok
    have hj' := hR hok j (by omega)
    unfold RtuA118.zigbeeWriteRegisters at hj'
    by_cases h0 : j = 0
    · subst h0
      exact hs
    · rw [if_pos (cellArgsOk_iff.2 (by omega))] at hj'
      exact hj'
  · rw [if_neg hok, if_neg hok]
    exact h.nil hs rfl

/-- A turn of the loop of `map_modbus_write_registers`. -/
theorem turn {buf : Nat → UInt16} {bigL : Bool} {w : Nat} {c : WriteLoop} (hs : R c.rtu)
    (hs' : R (c.turn env buf bigL w).rtu) (hes : Sparing words (c.turnAccesses env buf bigL w)) :
    Recoverable Q (c.turnAccesses env buf bigL w) c.rtu.map.flash
      (c.turn env buf bigL w).rtu.map.flash := by
  unfold WriteLoop.turnAccesses at hes ⊢
  unfold WriteLoop.turn at hs' ⊢
  dsimp only at hes hs' ⊢
  cases hk : c.rtu.map.ramYMapType (yBase w + c.i) with
  | ram =>
      simp only [hk] at hes hs' ⊢
      by_cases hrw : c.rtu.map.ramXMapRw (c.rtu.map.xBase w + c.rtu.map.cellOf w c.i) ≠ .rw
      · rw [if_pos hrw, if_pos hrw]
        exact h.nil hs rfl
      · rw [if_neg hrw] at hes hs'
        rw [if_neg hrw, if_neg hrw]
        refine h.zigbeeWriteRegisters hrel hs (fun _ j hj => ?_) hes
        -- one word: none of it, or all
        obtain rfl | rfl : j = 0 ∨ j = 1 := by omega
        · rw [Int.natCast_zero, zigbeeWriteRegisters_zero]
          exact hs
        · exact hs'
  | _ =>
      simp only [hk] at hs' ⊢
      exact h.nil hs rfl

theorem modbusWriteLoop {buf : Nat → UInt16} {bigL : Bool} {w addr : Nat} {s : Rtu} :
    ∀ {n : Nat}, (∀ j ≤ n, R (modbusWriteLoop env buf bigL w addr s j).rtu) →
    Sparing words (modbusWriteAccesses env buf bigL w addr s n) →
    Recoverable Q (modbusWriteAccesses env buf bigL w addr s n) s.map.flash
      (RtuA118.modbusWriteLoop env buf bigL w addr s n).rtu.map.flash := by
  intro n
  induction n with
  | zero => intro hR _; exact h.nil (hR 0 (Nat.le_refl 0)) rfl
  | succ n ih =>
      intro hR hes
      rw [modbusWriteAccesses] at hes ⊢
      exact (ih (fun j hj => hR j (Nat.le_succ_of_le hj)) hes.left).append
        (h.turn hrel (hR n (Nat.le_succ n)) (hR (n + 1) (Nat.le_refl _)) hes.right)

/-- `map_modbus_write_registers`, where `R` holds after each number of its words. -/
theorem mapModbusWriteRegisters {buf : Nat → UInt16} {len wellNum addr : Int} {bigL : Bool}
    {s : Rtu} (hs : R s)
    (hR : registerArgsOk len wellNum addr = true → ∀ j : Nat, j ≤ len →
      R (mapModbusWriteRegisters env buf j wellNum addr bigL s).2)
    (hes : Sparing words (mapModbusWriteRegistersAccesses env buf len wellNum addr bigL s)) :
    Recoverable Q (mapModbusWriteRegistersAccesses env buf len wellNum addr bigL s) s.map.flash
      (RtuA118.mapModbusWriteRegisters env buf len wellNum addr bigL s).2.map.flash := by
  unfold mapModbusWriteRegistersAccesses at hes ⊢
  unfold RtuA118.mapModbusWriteRegisters modbusWriteLanded
  by_cases hok : registerArgsOk len wellNum addr = true
  · rw [if_pos hok] at hes
    rw [if_pos hok, if_pos hok]
    refine h.modbusWriteLoop hrel (fun j hj => ?_) hes
    have hargs := registerArgsOk_iff.1 hok
    have hj' := hR hok j (by omega)
    unfold RtuA118.mapModbusWriteRegisters modbusWriteLanded at hj'
    by_cases h0 : j = 0
    · subst h0
      exact hs
    · rw [if_pos (registerArgsOk_iff.2 (by omega))] at hj'
      exact hj'
  · rw [if_neg hok, if_neg hok]
    exact h.nil hs rfl

end Piecewise

/-! ### What an operation leaves on the disk -/

section Operations

variable {env : Platform}

theorem dataWriteLoop_flash {buf : Nat → UInt16} {bigL : Bool} {w addr : Nat} {s : Rtu} {n : Nat} :
    (dataWriteLoop buf bigL w addr s n).2.map.flash = s.map.flash ∧
      (dataWriteLoop buf bigL w addr s n).2.map.xMax = s.map.xMax := by
  induction n with
  | zero => exact ⟨rfl, rfl⟩
  | succ n ih =>
      unfold dataWriteLoop
      dsimp only
      split
      · exact ih
      · exact ih

/-- Recorded values are stored in registers, and in none of the cells. -/
theorem mapModbusWriteDataRegisters_flash {buf : Nat → UInt16} {len wellNum addr : Int}
    {bigL : Bool} {s : Rtu} :
    (mapModbusWriteDataRegisters buf len wellNum addr bigL s).2.map.flash = s.map.flash ∧
      (mapModbusWriteDataRegisters buf len wellNum addr bigL s).2.map.xMax = s.map.xMax := by
  unfold mapModbusWriteDataRegisters
  split
  · exact dataWriteLoop_flash
  · exact ⟨rfl, rfl⟩

theorem MapStep.xMax_eq {s s' : Rtu} {o : MapOp} (h : MapStep env s o s') (ho : o ≠ .reboot) :
    s'.map.xMax = s.map.xMax := by
  cases h with
  | modbusWrite => exact mapModbusWriteRegisters_xMax
  | internalWrite => exact zigbeeWriteRegisters_xMax
  | mset =>
      unfold zigbeeWriteRegistersMset
      split <;> rfl
  | remap => exact mapItemRemap_xMax
  | reboot => exact absurd rfl ho
  | elsewhere hm => rw [hm]

variable (hrel : env.Reliable)

include hrel

theorem mapItemRemap_recoverable {Q : File FlashWord UInt16 → Prop} (hQ : ∀ y, Q y) (w : Nat)
    (t : UInt16) (s : Rtu) :
    Recoverable Q (mapItemRemapAccesses env w t s) s.map.flash
      (mapItemRemap env w t s).2.map.flash := by
  obtain ⟨hes, hs⟩ | ⟨es, hin, hes, hflash⟩ := mapItemRemap_accesses hrel w t s
  · rw [hes, hs]
    exact .nil (hQ _)
  · rw [hes, hflash]
    refine .batch _ hQ fun e he => ?_
    rcases List.mem_cons.1 he with rfl | he
    · rfl
    · exact hin e he

/-- Whole operations, whatever they store. -/
theorem piecewise_whole :
    Piecewise env (fun _ => True) (fun _ => True) (fun _ => False) where
  start := fun _ => trivial
  cell := by
    intro s w i v _ _ _
    obtain ⟨-, ⟨hes, hflash⟩ | ⟨a, region, ha, hes, hflash⟩ | ⟨hes, hflash⟩⟩ :=
      writeCell_accesses hrel w i v s
    · rw [hes, hflash]
      exact .nil trivial
    · rw [hes, hflash]
      refine .batch [.store a v] (fun _ => trivial) fun e he => ?_
      rw [List.mem_singleton.1 he]
      exact ha
    · rw [hes, hflash]
      exact mapItemRemap_recoverable hrel (fun _ => trivial) w v s

/-- **An operation that ends has put on the disk what it has stored.** -/
theorem LifeStep.done {s s' : Rtu} {o : LifeOp} {y : File FlashWord UInt16}
    (h : LifeStep env s o s') (ho : o ≠ .map .reboot)
    (hy : Carries (o.accesses env s) (.stored s.map.flash) y) : y = .stored s'.map.flash := by
  have hall : ∀ es, Sparing (fun _ => False) es := fun _ _ _ _ => id
  have hnil : s'.map.flash = s.map.flash → o.accesses env s = [] → y = .stored s'.map.flash := by
    intro hflash hes
    rw [hes] at hy
    rw [hflash]
    exact (Recoverable.nil (Q := fun _ => True) trivial).done y hy
  cases h with
  | map h =>
      cases h with
      | modbusWrite =>
          exact ((piecewise_whole hrel).mapModbusWriteRegisters hrel trivial (fun _ _ _ => trivial)
            (hall _)).done y hy
      | internalWrite =>
          exact ((piecewise_whole hrel).zigbeeWriteRegisters hrel trivial (fun _ _ _ => trivial)
            (hall _)).done y hy
      | mset =>
          refine hnil ?_ rfl
          unfold zigbeeWriteRegistersMset
          split <;> rfl
      | remap =>
          exact (mapItemRemap_recoverable (Q := fun _ => True) hrel (fun _ => trivial) _ _ s).done
            y hy
      | reboot => exact absurd rfl ho
      | elsewhere hm => exact hnil (by rw [hm]) rfl
  | factoryReset =>
      obtain ⟨es, hin, hes, hflash⟩ := resetFlash1ToDefault_accesses hrel s
      rw [hflash]
      exact Recoverable.done_of_sync es hin y (hes ▸ hy)
  | dataWrite => exact hnil mapModbusWriteDataRegisters_flash.1 rfl

/-- What an operation stores is what it leaves. -/
theorem LifeStep.flash {s s' : Rtu} {o : LifeOp} (h : LifeStep env s o s') (ho : o ≠ .map .reboot) :
    s'.map.flash = memAfter s.map.flash (o.accesses env s) := by
  obtain ⟨y, hy⟩ := Carries.runs (o.accesses env s) (.stored s.map.flash)
  have hmem := hy.mem
  rw [h.done hrel ho hy] at hmem
  exact hmem

end Operations

/-! ### Stops -/

/-- `t` is the unit after the first words of an operation, none of them or all. -/
def LifeOp.Begun (env : Platform) (s t : Rtu) : LifeOp → Prop
  | .map (.modbusWrite buf len wellNum addr bigL) =>
      t = s ∨ registerArgsOk len wellNum addr = true ∧ ∃ j : Nat, j ≤ len ∧
        t = (mapModbusWriteRegisters env buf j wellNum addr bigL s).2
  | .map (.internalWrite buf len wellNum addr) =>
      t = s ∨ cellArgsOk s.map len wellNum addr = true ∧ ∃ j : Nat, j ≤ len ∧
        t = (zigbeeWriteRegisters env buf j wellNum addr s).2
  | _ => t = s

theorem writeCellsAccesses_take {env : Platform} {w : Nat} : ∀ {vs : List UInt16} {i : Nat}
    {s : Rtu} (j : Nat),
    writeCellsAccesses env w i (vs.take j) s <+: writeCellsAccesses env w i vs s := by
  intro vs
  induction vs with
  | nil => intro i s j; rw [List.take_nil]
  | cons v vs ih =>
      intro i s j
      cases j with
      | zero => exact List.nil_prefix
      | succ j =>
          rw [List.take_succ_cons, writeCellsAccesses, writeCellsAccesses]
          refine (List.prefix_append_right_inj _).2 ?_
          split
          · exact ih j
          · exact List.prefix_rfl

theorem modbusWriteAccesses_le {env : Platform} {buf : Nat → UInt16} {bigL : Bool} {w addr : Nat}
    {s : Rtu} {j n : Nat} (h : j ≤ n) :
    modbusWriteAccesses env buf bigL w addr s j <+:
      modbusWriteAccesses env buf bigL w addr s n := by
  induction h with
  | refl => exact List.prefix_rfl
  | step _ ih => exact ih.trans (List.prefix_append _ _)

/-- What has been done of an operation is an operation of its own, with the first of its
accesses. -/
theorem LifeOp.Begun.shorter {env : Platform} {s t : Rtu} {o : LifeOp} (h : o.Begun env s t) :
    t = s ∨ ∃ op, MapStep env s op t ∧ op ≠ .reboot ∧
      (LifeOp.map op).accesses env s <+: o.accesses env s := by
  unfold LifeOp.Begun at h
  split at h
  · rename_i buf len wellNum addr bigL
    obtain rfl | ⟨hok, j, hj, rfl⟩ := h
    · exact .inl rfl
    · refine .inr ⟨_, .modbusWrite s buf j wellNum addr bigL, by simp, ?_⟩
      show mapModbusWriteRegistersAccesses env buf j wellNum addr bigL s <+:
        mapModbusWriteRegistersAccesses env buf len wellNum addr bigL s
      unfold mapModbusWriteRegistersAccesses
      rw [if_pos hok]
      split
      · exact modbusWriteAccesses_le (by omega)
      · exact List.nil_prefix
  · rename_i buf len wellNum addr
    obtain rfl | ⟨hok, j, hj, rfl⟩ := h
    · exact .inl rfl
    · refine .inr ⟨_, .internalWrite s buf j wellNum addr, by simp, ?_⟩
      show zigbeeWriteRegistersAccesses env buf j wellNum addr s <+:
        zigbeeWriteRegistersAccesses env buf len wellNum addr s
      unfold zigbeeWriteRegistersAccesses
      rw [if_pos hok]
      split
      · rw [← take_range_map (show (j : Int).toNat ≤ len.toNat by omega)]
        exact writeCellsAccesses_take _
      · exact List.nil_prefix
  · exact .inl h

theorem LifeOp.begun_self (env : Platform) (s : Rtu) (o : LifeOp) : o.Begun env s s := by
  unfold Begun
  split
  · exact .inl rfl
  · exact .inl rfl
  · rfl

/-- What the files of a stopped unit are seen as: the flash of a unit that `R` allows. -/
def SeenOf (env : Platform) (R : Rtu → Prop) (xMax : Nat) (g : FlashWord → UInt16) : Prop :=
  ∃ s, R s ∧ s.map.xMax = xMax ∧ seen (settle env xMax) s.map.flash = g

/-- The unit's property, with everything on the disk while it runs. -/
def Powered.Holds (env : Platform) (R : Rtu → Prop) : Powered → Prop
  | running s disk => R s ∧ disk = s.map.flash
  | stopped xMax files =>
      IsBlockSize env xMax ∧ Intact (settle env xMax) (SeenOf env R xMax) files

/-- The block size is what the files of the types say, and `words` has all type words. -/
structure BlockSized (env : Platform) (R : Rtu → Prop) (words : FlashWord → Prop) : Prop where
  size : ∀ {s}, R s → IsBlockSize env s.map.xMax
  types : ∀ {a}, IsTypeWord env a → words a

section Stops

variable {env : Platform} {R : Rtu → Prop} {words : FlashWord → Prop} (hrel : env.Reliable)

theorem BlockSized.xBase_mem (h : BlockSized env R words) {s : Rtu} (hs : R s) (w : Nat) :
    words (.two (s.map.xBase w)) := by
  obtain ⟨xMax, hx, -, hsize⟩ := h.size hs
  exact h.types (isTypeWord_xBase hx hsize w)

include hrel

/-- Between two words the files are those of a unit that `R` allows. -/
theorem BlockSized.piecewise (h : BlockSized env R words) (k : Nat) :
    Piecewise env (Intact (settle env k) (SeenOf env R k)) (fun s => R s ∧ s.map.xMax = k)
      words where
  start := fun hs => .stored ⟨_, hs.1, hs.2, rfl⟩
  cell := by
    intro s w i v hs hs' hwords
    obtain ⟨-, ⟨hes, hflash⟩ | ⟨a, region, ha, hes, hflash⟩ | ⟨hes, hflash⟩⟩ :=
      writeCell_accesses hrel w i v s
    · rw [hes, hflash]
      exact .nil (.stored ⟨s, hs.1, hs.2, rfl⟩)
    · rw [hes, hflash]
      exact .put ha ⟨s, hs.1, hs.2, rfl⟩ ⟨_, hs'.1, hs'.2, by rw [hflash]⟩
    · rw [hes] at hwords ⊢
      rw [hflash]
      -- a change of type that is not refused stores the type
      obtain ⟨hnil, hrefused⟩ | ⟨es, -, hstore, -⟩ := mapItemRemap_accesses hrel w v s
      · rw [hnil, hrefused]
        exact .nil (.stored ⟨s, hs.1, hs.2, rfl⟩)
      · refine absurd (h.xBase_mem hs.1 w) (hwords (.two (s.map.xBase w)) v ?_)
        rw [hstore]
        exact List.mem_cons_self

/-- **An operation that is stopped** leaves the files of a unit that has done it for its first
words. -/
theorem BlockSized.stop (h : BlockSized env R words) {s : Rtu} {o : LifeOp} {es : List FlashAccess}
    {y : File FlashWord UInt16}
    (hbegun : ∀ {t}, o.Begun env s t → R t) (ho : o ≠ .factoryReset)
    (hwords : Sparing words (o.accesses env s)) (hpre : es <+: o.accesses env s)
    (hy : Carries es (.stored s.map.flash) y) : (Powered.stopped s.map.xMax y).Holds env R := by
  have hs : R s := hbegun (o.begun_self env s)
  refine ⟨h.size hs, ?_⟩
  have hs' : R s ∧ s.map.xMax = s.map.xMax := ⟨hs, rfl⟩
  have hnil : o.accesses env s = [] →
      Intact (settle env s.map.xMax) (SeenOf env R s.map.xMax) y := fun hes =>
    ((h.piecewise hrel s.map.xMax).nil hs' rfl).stopped es y (hes ▸ hpre) hy
  cases o with
  | map o =>
      cases o with
      | modbusWrite buf len w a b =>
          exact ((h.piecewise hrel _).mapModbusWriteRegisters hrel hs' (fun hok j hj =>
            ⟨hbegun (.inr ⟨hok, j, hj, rfl⟩), mapModbusWriteRegisters_xMax⟩) hwords).stopped es y
              hpre hy
      | internalWrite buf len w a =>
          exact ((h.piecewise hrel _).zigbeeWriteRegisters hrel hs' (fun hok j hj =>
            ⟨hbegun (.inr ⟨hok, j, hj, rfl⟩), zigbeeWriteRegisters_xMax⟩) hwords).stopped es y hpre
              hy
      | mset => exact hnil rfl
      | remap w t =>
          obtain ⟨hrefused, -⟩ | ⟨es', -, hstore, -⟩ := mapItemRemap_accesses hrel w t s
          · exact hnil hrefused
          · refine absurd (h.xBase_mem hs w) (hwords (.two (s.map.xBase w)) t ?_)
            show _ ∈ mapItemRemapAccesses env w t s
            rw [hstore]
            exact List.mem_cons_self
      | reboot => exact hnil rfl
      | elsewhere => exact hnil rfl
  | factoryReset => exact absurd rfl ho
  | dataWrite => exact hnil rfl

/-- What a boot finds is seen as the flash of a unit that `R` allows, and so it is a boot of that
unit. -/
theorem Powered.Holds.boot {k n : Nat} {x y : File FlashWord UInt16} {m : MapT}
    (hx : (Powered.stopped k x).Holds env R) (hboot : bootFrom env k x.mem n = some m)
    (hy : Carries (bootAccesses env k x.mem n) x y) :
    (∃ s, R s ∧ bootFrom env s.map.xMax s.map.flash n = some m) ∧ y.disk = m.flash := by
  obtain ⟨⟨xMax, hsize, -, rfl⟩, hintact⟩ := hx
  obtain ⟨s, hs, hxMax, hseen⟩ := hintact.mem
  refine ⟨⟨s, hs, ?_⟩, ?_⟩
  · rw [hxMax, bootFrom_congr hrel.default hseen]
    exact hboot
  · have hmem : y.mem = m.flash := by
      rw [hy.mem, memAfter_bootAccesses, bootFrom_flash hsize hboot]
    -- both files are synced last
    unfold bootAccesses at hy
    rw [if_pos (hrel.synced _), if_pos (hrel.synced _), ← List.singleton_append,
      ← List.append_assoc] at hy
    have hclean := hy.clean_of_sync fun hz => hz.clean_of_sync (S := fun _ => False)
      fun _ a ha => ha.elim
    have hstored : y = .stored y.mem := hclean.eq_stored fun a =>
      a.inOne_or_inTwo.imp_left .inr
    rw [← hmem]
    exact congrArg File.disk hstored

omit hrel in
/-- A boot that is broken off leaves files that are seen as before. -/
theorem Powered.Holds.bootStop {k n : Nat} {x y : File FlashWord UInt16} {es : List FlashAccess}
    (hx : (Powered.stopped k x).Holds env R) (hpre : es <+: bootAccesses env k x.mem n)
    (hy : Carries es x y) : (Powered.stopped k y).Holds env R := by
  obtain ⟨hsize, hintact⟩ := hx
  have hneutral : ∀ a v, Access.store a v ∈ es →
      settle env k a v = seen (settle env k) x.mem a := fun a v hmem =>
    settle_of_mem_bootAccesses (hpre.subset hmem)
  exact ⟨hsize, (Intact.carries hneutral hy hintact rfl).1⟩

/-- **One step** of a unit whose property is kept by the operations that end, by the beginnings of
those that are stopped, and by boots. -/
theorem BlockSized.power_step (h : BlockSized env R words) {ends : Rtu → LifeOp → Prop}
    {p p' : Powered} {o : PowerOp}
    (hends : ∀ {s s' o}, R s → LifeStep env s o s' → o ≠ .map .reboot → ends s o → R s')
    (hbegun : ∀ {s t} {o : LifeOp}, R s → o ≠ .factoryReset → Sparing words (o.accesses env s) →
      o.Begun env s t → R t)
    (hboot : ∀ {s n m}, R s → bootFrom env s.map.xMax s.map.flash n = some m → R (.start m))
    (hp : p.Holds env R) (hallowed : o.Allowed env ends words p) (hstep : PowerStep env p o p') :
    p'.Holds env R := by
  cases hstep with
  | op hlife ho hy =>
      obtain ⟨hs, rfl⟩ := hp
      exact ⟨hends hs hlife ho hallowed, congrArg File.disk (hlife.done hrel ho hy)⟩
  | stop hpre hy =>
      obtain ⟨hs, rfl⟩ := hp
      exact h.stop hrel (hbegun hs hallowed.1 hallowed.2) hallowed.1 hallowed.2 hpre hy
  | powerLoss => exact ⟨hp.1, hp.2.powerLoss⟩
  | boot hb hy =>
      obtain ⟨⟨s, hs, hb⟩, hdisk⟩ := hp.boot hrel hb hy
      exact ⟨hboot hs hb, hdisk⟩
  | bootStop hpre hy => exact hp.bootStop hpre hy

end Stops

/-! ### Every stop is followed by a boot -/

/-- The block size is that of every boot. -/
theorem LifeStep.size {env : Platform} {s s' : Rtu} {o : LifeOp} (h : LifeStep env s o s')
    (hs : IsBlockSize env s.map.xMax) : IsBlockSize env s'.map.xMax := by
  cases h with
  | map hmap =>
      rename_i o
      by_cases ho : o = .reboot
      · subst ho
        cases hmap with
        | reboot hboot => exact isBlockSize_of_boot hboot
      · rw [hmap.xMax_eq ho]
        exact hs
  | factoryReset =>
      rw [show (resetFlash1ToDefault env s).2.map.xMax = s.map.xMax from
        congrArg Tables.xMax resetFlash1ToDefault_tables]
      exact hs
  | dataWrite =>
      rw [mapModbusWriteDataRegisters_flash.2]
      exact hs

/-- A stop after the first access of an operation, the power lost, and a boot. -/
theorem exists_stop_boot {env : Platform} (hrel : env.Reliable) {s : Rtu}
    (hs : IsBlockSize env s.map.xMax) (disk : FlashWord → UInt16) (o : LifeOp) :
    ∃ x s' disk', PowerStep env (.running s disk) (.stop o) (.stopped s.map.xMax x) ∧
      PowerStep env (.stopped s.map.xMax x.powerLoss) .boot (.running s' disk') := by
  obtain ⟨x, hcarries⟩ := Carries.runs ((o.accesses env s).take 1) ⟨s.map.flash, disk⟩
  obtain ⟨k, hx, hx0, hk⟩ := hs
  obtain ⟨m, hb⟩ := bootFrom_succeeds hrel hx hx0 x.powerLoss.mem 0
  obtain ⟨y, hy⟩ := Carries.runs (bootAccesses env k.toNat x.powerLoss.mem 0) x.powerLoss
  rw [hk]
  exact ⟨x, _, _, hk ▸ .stop (List.take_prefix 1 _) hcarries, .boot hb hy⟩

/-- A write of register 300 of well 2. -/
def plainWrite : LifeOp := .map (.modbusWrite (fun _ => 9) 1 2 300 false)

theorem plainWrite_spares : Sparing (IsTypeWord plainFiles)
    (plainWrite.accesses plainFiles (.start plainBoot)) := by
  have hstores : ∀ e ∈ plainWrite.accesses plainFiles (.start plainBoot),
      e.StoresIn fun a => a = FlashWord.two 601 := by decide +kernel
  rintro a v hmem ⟨xMax, k, hx, heq⟩
  have hx' : getXYZMaxLen plainFiles = some 301 := by decide +kernel
  obtain rfl : xMax = 301 := Option.some.inj (hx.symm.trans hx')
  have ha : a = FlashWord.two 601 := of_decide_eq_true (hstores _ hmem)
  rw [ha] at heq
  have hmul : 601 = k * 301 := FlashWord.two.inj heq
  omega

theorem plainBoot_poweredOn :
    PoweredOn plainFiles (.running (.start plainBoot) plainBoot.flash) :=
  ⟨_, ⟨none, none, 0, plainBoot, plainBoot_eq, rfl⟩, rfl⟩

theorem plainWrite_cut : ∃ x s disk,
    PowerStep plainFiles (.running (.start plainBoot) plainBoot.flash) (.stop plainWrite)
      (.stopped plainBoot.xMax x) ∧
    PowerStep plainFiles (.stopped plainBoot.xMax x.powerLoss) .boot (.running s disk) :=
  exists_stop_boot (s := .start plainBoot) plainFiles_reliable (isBlockSize_of_boot plainBoot_eq)
    plainBoot.flash plainWrite

/-! ### Power cuts add nothing -/

theorem bootFrom_msyncs {env : Platform} (hrel : env.Reliable) {k n : Nat}
    {g : FlashWord → UInt16} (n' : Nat) : bootFrom env k g n = bootFrom env k g n' := by
  unfold bootFrom mapInit
  simp only [hrel.synced]

theorem LifeReach.size {env : Platform} {s : Rtu} (h : LifeReach env s) :
    IsBlockSize env s.map.xMax := by
  refine h.invariant (P := fun s => IsBlockSize env s.map.xMax) ?_ fun _ _ _ hs hstep =>
    hstep.size hs
  rintro s ⟨f1, f2, n, m, hboot, rfl⟩
  exact isBlockSize_of_boot hboot

theorem LifeReach.boot {env : Platform} (hrel : env.Reliable) {s : Rtu} {n : Nat} {m : MapT}
    (h : LifeReach env s) (hboot : bootFrom env s.map.xMax s.map.flash n = some m) :
    LifeReach env (.start m) :=
  .step h (.map (.reboot s ((bootFrom_msyncs hrel s.msyncs).symm.trans hboot)))

theorem LifeReach.begun {env : Platform} {s t : Rtu} {o : LifeOp} (h : LifeReach env s)
    (ht : o.Begun env s t) : LifeReach env t := by
  unfold LifeOp.Begun at ht
  split at ht
  · obtain rfl | ⟨-, j, -, rfl⟩ := ht
    · exact h
    · exact .step h (.map (.modbusWrite s _ j _ _ _))
  · obtain rfl | ⟨-, j, -, rfl⟩ := ht
    · exact h
    · exact .step h (.map (.internalWrite s _ j _ _))
  · exact ht ▸ h

theorem blockSized_life (env : Platform) : BlockSized env (LifeReach env) (IsTypeWord env) where
  size := LifeReach.size
  types := id

/-- **Power cuts add nothing.** Whatever operations the unit is stopped in, other than a change of
type and a factory reset, whatever words have been written back by then, and however often the power
is lost or a boot is broken off: the units that run are those of the life without all that, each
with its whole flash on the disk. -/
theorem powerCuts_add_nothing {env : Platform} (hrel : env.Reliable) {s : Rtu}
    {disk : FlashWord → UInt16}
    (h : Reach (PoweredOn env)
      (guarded (PowerOp.Allowed env (fun _ _ => True) (IsTypeWord env)) (PowerStep env))
      (.running s disk)) :
    LifeReach env s ∧ disk = s.map.flash := by
  refine h.invariant (P := Powered.Holds env (LifeReach env)) ?_ ?_
  · rintro p ⟨s, hs, rfl⟩
    exact ⟨.start hs, rfl⟩
  · rintro p o p' hp ⟨hallowed, hstep⟩
    exact (blockSized_life env).power_step hrel (fun hs hlife _ _ => .step hs hlife)
      (fun hs _ _ ht => hs.begun ht) (fun hs hboot => hs.boot hrel hboot) hp hallowed hstep

/-- A unit stopped in the write, whose power is lost and that boots, is one of a life without. -/
theorem plainWrite_adds_nothing : ∃ x s,
    PowerStep plainFiles (.running (.start plainBoot) plainBoot.flash) (.stop plainWrite)
      (.stopped plainBoot.xMax x) ∧
    PowerStep plainFiles (.stopped plainBoot.xMax x.powerLoss) .boot
      (.running s s.map.flash) ∧ LifeReach plainFiles s := by
  obtain ⟨x, s, disk, hstop, hboot⟩ := plainWrite_cut
  have hguard : plainWrite ≠ .factoryReset ∧ Sparing (IsTypeWord plainFiles)
      (plainWrite.accesses plainFiles (.start plainBoot)) :=
    ⟨by simp [plainWrite], plainWrite_spares⟩
  have hstopped : Reach (PoweredOn plainFiles) (guarded (PowerOp.Allowed plainFiles
      (fun _ _ => True) (IsTypeWord plainFiles)) (PowerStep plainFiles))
      (.stopped plainBoot.xMax x) :=
    .step (a := .stop plainWrite) (.start plainBoot_poweredOn) ⟨hguard, hstop⟩
  have hoff := hstopped.step (a := .powerLoss) ⟨trivial, .powerLoss⟩
  obtain ⟨hlife, rfl⟩ := powerCuts_add_nothing plainFiles_reliable
    (hoff.step (a := .boot) ⟨trivial, hboot⟩)
  exact ⟨x, s, hstop, hboot, hlife⟩

/-- Power losses and broken boots. -/
def PowerOp.StaysOff : PowerOp → Prop
  | .powerLoss | .bootStop => True
  | _ => False

/-- **An interrupted write is a shorter one.** A unit that runs again after it was stopped in an
operation, whatever came in between, is one that was started anew after the first words of it. -/
theorem interrupted_write {env : Platform} (hrel : env.Reliable) {s s' : Rtu} {o : LifeOp}
    {disk : FlashWord → UInt16} {p p' : Powered} (hs : LifeReach env s) (ho : o ≠ .factoryReset)
    (hwords : Sparing (IsTypeWord env) (o.accesses env s))
    (hstop : PowerStep env (.running s s.map.flash) (.stop o) p)
    (hoff : Steps (guarded (fun _ o => o.StaysOff) (PowerStep env)) p p')
    (hboot : PowerStep env p' .boot (.running s' disk)) :
    disk = s'.map.flash ∧ ∃ t, o.Begun env s t ∧ MapStep env t .reboot s' := by
  have hsized : BlockSized env (fun t => o.Begun env s t) (IsTypeWord env) :=
    ⟨fun ht => (hs.begun ht).size, id⟩
  have hp : p.Holds env fun t => o.Begun env s t := by
    cases hstop with
    | stop hpre hy => exact hsized.stop hrel id ho hwords hpre hy
  -- nothing that happens to the files until the boot is seen
  have hp' : p'.Holds env fun t => o.Begun env s t := by
    refine hoff.invariant ?_ hp
    rintro q e q' hq ⟨he, hstep⟩
    cases hstep with
    | op => exact he.elim
    | stop => exact he.elim
    | powerLoss => exact ⟨hq.1, hq.2.powerLoss⟩
    | boot => exact he.elim
    | bootStop hpre hy => exact hq.bootStop hpre hy
  cases hboot with
  | boot hb hy =>
      obtain ⟨⟨t, ht, hb⟩, hdisk⟩ := hp'.boot hrel hb hy
      exact ⟨hdisk, t, ht, .reboot t ((bootFrom_msyncs hrel t.msyncs).symm.trans hb)⟩

/-- The write stopped, the power lost, a boot. -/
theorem plainWrite_interrupted : ∃ s t, plainWrite.Begun plainFiles (.start plainBoot) t ∧
    MapStep plainFiles t .reboot s := by
  obtain ⟨x, s, disk, hstop, hboot⟩ := plainWrite_cut
  obtain ⟨-, t, ht, hreboot⟩ := interrupted_write plainFiles_reliable
    (.start ⟨none, none, 0, plainBoot, plainBoot_eq, rfl⟩) (by simp [plainWrite])
    plainWrite_spares hstop (.one (a := .powerLoss) ⟨trivial, .powerLoss⟩) hboot
  exact ⟨s, t, ht, hreboot⟩

end RtuA118
