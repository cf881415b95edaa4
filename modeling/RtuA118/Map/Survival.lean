import RtuA118.Map.PowerCut

/-!
# RtuA118.Map.Survival

**A register that has been written keeps its word**, through power cuts and restarts, until its
word is written again (`written_survives`).

A write that stores no type keeps the mapping (`MapStep.sameConfig_of_sparing`). A boot over the
flash of such a unit reads the same files as the boot before, so it builds the same mapping
(`Configured.boot`). What else the boot needs is the word itself, and it is on the disk.
-/

namespace RtuA118

open Mapped
open Run (Steps guarded)

/-! ### Operations that store no type -/

section Sparing

variable {env : Platform} (hrel : env.Reliable) {xMax : UInt16} (hx : getXYZMaxLen env = some xMax)

include hrel hx

/-- A write of a cell that stores no type. -/
theorem writeCell_sameConfig_of_sparing {w i : Nat} {v : UInt16} {s : Rtu}
    (hsize : s.map.xMax = xMax.toNat) (hi : i < s.map.xMax)
    (hes : Sparing (IsTypeWord env) (writeCellAccesses env w i v s)) :
    SameConfig s.map (writeCell env w i v s).2.map := by
  by_cases hstored : i = 0 ∧ s.map.TypeStored w
  · obtain ⟨rfl, ht⟩ := hstored
    have htype := isTypeWord_xBase hx hsize w
    rcases ht with ht | ht
    · have hacc : writeCellAccesses env w 0 v s = mapItemRemapAccesses env w v s := by
        simp [writeCellAccesses, ht, mapMapFunWriteAccesses, mapChangeWellType]
      obtain ⟨-, hrefused⟩ | ⟨es, -, hstore, -⟩ := mapItemRemap_accesses hrel w v s
      · have hfun : mapMapFunWrite env v w 0 s = some (v, s) :=
          mapMapFunWrite_change.trans (by rw [hrefused])
        have hwrite : (writeCell env w 0 v s).2 = s.onMap (·.setRamX w 0 v) := by
          simp only [writeCell, Nat.add_zero, ht, hfun]
        rw [hwrite]
        exact .of_tables rfl fun _ => rfl
      · refine absurd htype (hes _ v ?_)
        rw [hacc, hstore]
        exact List.mem_cons_self
    · refine absurd htype (hes _ v ?_)
      simp [writeCellAccesses, ht, synced]
  · exact writeCell_sameConfig hi fun h0 ht => hstored ⟨h0, ht⟩

theorem writeCells_sameConfig_of_sparing {w : Nat} : ∀ {vs : List UInt16} {i : Nat} {s : Rtu},
    s.map.xMax = xMax.toNat → i + vs.length ≤ s.map.xMax →
    Sparing (IsTypeWord env) (writeCellsAccesses env w i vs s) →
    SameConfig s.map (writeCells env w i vs s).2.map := by
  intro vs
  induction vs with
  | nil => intro i s _ _ _; exact .refl _
  | cons v vs ih =>
      intro i s hsize hi hes
      rw [List.length_cons] at hi
      have hgo : (writeCell env w i v s).1 = true := (writeCell_accesses hrel w i v s).1
      rw [writeCellsAccesses, if_pos hgo] at hes
      have hcell := writeCell_sameConfig_of_sparing hrel hx hsize (by omega) hes.left
      rw [writeCells_cons, if_pos hgo]
      exact hcell.trans (ih (hcell.xMax.trans hsize) (by rw [hcell.xMax]; omega) hes.right)

theorem zigbeeWriteRegisters_sameConfig_of_sparing {buf : Nat → UInt16} {len wellNum addr : Int}
    {s : Rtu} (hsize : s.map.xMax = xMax.toNat)
    (hes : Sparing (IsTypeWord env) (zigbeeWriteRegistersAccesses env buf len wellNum addr s)) :
    SameConfig s.map (zigbeeWriteRegisters env buf len wellNum addr s).2.map := by
  unfold zigbeeWriteRegistersAccesses at hes
  unfold zigbeeWriteRegisters
  split
  · rename_i hok
    rw [if_pos hok] at hes
    have hargs := cellArgsOk_iff.1 hok
    refine writeCells_sameConfig_of_sparing hrel hx hsize ?_ hes
    simp only [List.length_map, List.length_range]
    omega
  · exact .refl _

theorem turn_sameConfig_of_sparing {buf : Nat → UInt16} {bigL : Bool} {w : Nat} {c : WriteLoop}
    (hsize : c.rtu.map.xMax = xMax.toNat)
    (hes : Sparing (IsTypeWord env) (c.turnAccesses env buf bigL w)) :
    SameConfig c.rtu.map (c.turn env buf bigL w).rtu.map := by
  unfold WriteLoop.turnAccesses at hes
  unfold WriteLoop.turn
  dsimp only at hes ⊢
  split
  · rename_i hnull
    exact .setRamY (by simp [hnull])
  · rename_i hram
    simp only [hram] at hes
    split
    · exact .refl _
    · rename_i hrw
      rw [if_neg hrw] at hes
      exact zigbeeWriteRegisters_sameConfig_of_sparing hrel hx hsize hes
  · exact .refl _

theorem modbusWriteLoop_sameConfig_of_sparing {buf : Nat → UInt16} {bigL : Bool} {w addr : Nat}
    {s : Rtu} (hsize : s.map.xMax = xMax.toNat) : ∀ {n : Nat},
    Sparing (IsTypeWord env) (modbusWriteAccesses env buf bigL w addr s n) →
    SameConfig s.map (modbusWriteLoop env buf bigL w addr s n).rtu.map := by
  intro n
  induction n with
  | zero => exact fun _ => .refl _
  | succ n ih =>
      intro hes
      rw [modbusWriteAccesses] at hes
      have hloop := ih hes.left
      exact hloop.trans
        (turn_sameConfig_of_sparing hrel hx (hloop.xMax.trans hsize) hes.right)

/-- **Operations that store no type** keep the mapping and the types. -/
theorem MapStep.sameConfig_of_sparing {s s' : Rtu} {o : MapOp} (h : MapStep env s o s')
    (ho : o ≠ .reboot) (hsize : s.map.xMax = xMax.toNat)
    (hes : Sparing (IsTypeWord env) ((LifeOp.map o).accesses env s)) :
    SameConfig s.map s'.map := by
  cases h with
  | modbusWrite buf len w a b =>
      have hes' : Sparing (IsTypeWord env)
          (mapModbusWriteRegistersAccesses env buf len w a b s) := hes
      unfold mapModbusWriteRegistersAccesses at hes'
      unfold mapModbusWriteRegisters modbusWriteLanded
      split
      · rename_i hok
        rw [if_pos hok] at hes'
        exact modbusWriteLoop_sameConfig_of_sparing hrel hx hsize hes'
      · exact .refl _
  | internalWrite => exact zigbeeWriteRegisters_sameConfig_of_sparing hrel hx hsize hes
  | mset => exact zigbeeWriteRegistersMset_sameConfig _ _ _ _ _
  | remap w t =>
      obtain ⟨-, hrefused⟩ | ⟨es, -, hstore, -⟩ := mapItemRemap_accesses hrel w t s
      · rw [hrefused]
        exact .refl _
      · refine absurd (isTypeWord_xBase hx hsize w) (hes _ t ?_)
        show _ ∈ mapItemRemapAccesses env w t s
        rw [hstore]
        exact List.mem_cons_self
  | reboot => exact absurd rfl ho
  | elsewhere hm => exact hm ▸ .refl _

end Sparing

/-- The unit maps as after the boot `m`, and its types lead to the files of that boot. -/
structure Configured (env : Platform) (m : MapT) (s : Rtu) : Prop where
  mapping : SameMapping m s.map
  types : ∀ k < maxWellNum,
    bootPath env (s.map.flash2 (k * m.xMax)) = bootPath env (m.flash2 (k * m.xMax))

theorem configured_start (env : Platform) (m : MapT) : Configured env m (.start m) :=
  ⟨.refl m, fun _ _ => rfl⟩

theorem Configured.of_sameConfig {env : Platform} {m : MapT} {s s' : Rtu}
    (h : Configured env m s) (hsame : SameConfig s.map s'.map) : Configured env m s' where
  mapping := h.mapping.trans hsame.toSameMapping
  types := fun k hk => by
    have htype := hsame.types k
    rw [h.mapping.xMax] at htype
    rw [htype]
    exact h.types k hk

section Boots

variable {env : Platform} (hrel : env.Reliable) {f1 f2 : Option FlashFile} {n : Nat} {m : MapT}
  (hboot : mapInit env f1 f2 n = some m) (hfit : LoadFits env m.xMax f1 f2)
  (hstand : TypesStand env m.xMax f1 f2)

include hrel hboot hfit hstand

/-- A boot over the flash of a configured unit loads the same tables. -/
theorem Configured.boot {s : Rtu} {n' : Nat} {m' : MapT} (h : Configured env m s)
    (hb : bootFrom env s.map.xMax s.map.flash n' = some m') : Configured env m (.start m') := by
  obtain ⟨xMax, m1, hx, hx0, h1, h2⟩ := mapInit_ok hboot
  obtain ⟨xMax', hx', hm⟩ := mapInit_xMax hboot
  obtain rfl : xMax' = xMax := Option.some.inj (hx'.symm.trans hx)
  obtain ⟨htab, htype⟩ := boot_spec hboot hfit
  have hsx : s.map.xMax = xMax'.toNat := h.mapping.xMax.trans hm
  have hleft : ∀ k < maxWellNum, bootPath env (s.map.flash2 (k * xMax'.toNat))
      = bootPath env (typeAtBoot env m.xMax f1 f2 k) := by
    intro k hk
    rw [← hm, h.types k hk, htype k hk]
    cases hnew : (flashOpen (m.xMax * maxWellNum) f2).1 with
    | true => exact hstand hnew k hk
    | false => exact bootPath_typeLeftBy hrel.default _
  obtain ⟨m'', hload, htab', -⟩ := mapLoad_again (f := s.map.flash1) (g := s.map.flash2)
    (T := fun k => s.map.flash2 (k * xMax'.toNat)) hx hx0 hrel.common (fun _ _ => rfl)
    fun k hk => (hleft k hk).symm ▸ boot_loads hboot hfit k hk
  obtain rfl : m'' = m' := by
    unfold bootFrom mapInit at hb
    rw [hsx] at hb
    rw [show mapLoad env (some ⟨2 * flash1MaxLen, fun i => s.map.flash (.one i)⟩)
      (some ⟨2 * (xMax'.toNat * maxWellNum), fun a => s.map.flash (.two a)⟩) = _ from hload] at hb
    simp only [hrel.synced, Bool.and_self, if_true] at hb
    exact Option.some.inj hb
  refine ⟨.of_tables ?_, fun k hk => ?_⟩
  · rw [htab, hm]
    exact htab'.trans (foldl_loadType_congr fun k hk => hm ▸ hleft k (List.mem_range.1 hk))
  · -- the boot settles the type words it has found
    rw [hsx] at hb
    have hflash : m''.flash2 (k * xMax'.toNat) =
        settleTwo env xMax'.toNat (List.range maxWellNum) (k * xMax'.toNat)
          (s.map.flash2 (k * xMax'.toNat)) :=
      congrFun (bootFrom_flash hx hb) (.two (k * xMax'.toNat))
    rw [settleTwo, if_pos (List.mem_map_of_mem (List.mem_range.2 hk))] at hflash
    have htypes := h.types k hk
    rw [hm] at htypes ⊢
    show bootPath env (m''.flash2 (k * xMax'.toNat)) = _
    rw [hflash, bootPath_typeLeftBy hrel.default, htypes]

end Boots

/-! ### The word -/

/-- The flash word of a cell that lives in a flash. -/
def MapT.flashWord (m : MapT) (w i : Nat) : FlashWord :=
  if m.ramXMapType (m.xBase w + i) = .flash1 then .one i else .two (m.xBase w + i)

/-- What is read of such a cell. -/
theorem MapT.wordAt_cellStorage {m : MapT} {w i : Nat}
    (hk : m.ramXMapType (m.xBase w + i) ∈ [MapKind.flash1, .flash2]) :
    m.wordAt (m.cellStorage w i) = m.flash (m.flashWord w i) := by
  unfold cellStorage flashWord
  rcases List.mem_pair.1 hk with hk | hk
  · rw [if_pos hk, if_pos hk]
    rfl
  · have hne : m.ramXMapType (m.xBase w + i) ≠ .flash1 := by simp [hk]
    rw [if_neg hne, if_neg hne, wordAt, if_pos hk]
    rfl

/-- What a register that leads to a flash cell stands for, in any unit of the mapping. -/
theorem SameMapping.wordAt_storageOf {m m' : MapT} (h : SameMapping m m') {w y : Nat}
    (hram : m.ramYMapType (yBase w + y) = .ram)
    (hkind : m.ramXMapType (m.xBase w + m.cellOf w y) ∈ [MapKind.flash1, .flash2]) :
    m'.wordAt (m'.storageOf w y) = m'.flash (m.flashWord w (m.cellOf w y)) := by
  have hword : m'.flashWord w (m.cellOf w y) = m.flashWord w (m.cellOf w y) := by
    unfold MapT.flashWord
    rw [h.cellType, h.xBase]
  unfold MapT.storageOf
  rw [h.regType, if_pos hram, h.cellOf hram, MapT.wordAt_cellStorage, hword]
  rw [h.cellType, h.xBase]
  exact hkind

/-- No cell but cell 0 has its word where the types are. -/
theorem MapT.flashWord_not_type {env : Platform} {xMax : UInt16} {m : MapT} {w i : Nat}
    (hx : getXYZMaxLen env = some xMax) (hsize : m.xMax = xMax.toNat) (hi : i < m.xMax)
    (h0 : i ≠ 0) : ¬ IsTypeWord env (m.flashWord w i) := by
  rintro ⟨xMax', k, hx', heq⟩
  obtain rfl : xMax' = xMax := Option.some.inj (hx'.symm.trans hx)
  unfold flashWord at heq
  split at heq
  · cases heq
  · rw [← hsize] at heq
    exact mul_ne_xBase_add hi h0 (FlashWord.two.inj heq).symm

/-- A boot leaves the words that are no types. -/
theorem settle_of_not_type {env : Platform} {xMax : UInt16} {a : FlashWord} (v : UInt16)
    (hx : getXYZMaxLen env = some xMax) (ha : ¬ IsTypeWord env a) :
    settle env xMax.toNat a v = v := by
  cases a with
  | one i => rfl
  | two a =>
      refine if_neg fun hmem => ha ?_
      obtain ⟨k, -, rfl⟩ := List.mem_map.1 hmem
      exact ⟨xMax, k, hx, rfl⟩

/-- An operation on the map that stores none of `words`. -/
def LifeOp.Writes (env : Platform) (words : FlashWord → Prop) (s : Rtu) (o : LifeOp) : Prop :=
  (∃ op, o = .map op) ∧ Sparing words (o.accesses env s)

/-- The unit is configured as by the boot `m`, and these words are those of `f`. -/
structure KeepsWords (env : Platform) (m : MapT) (words : FlashWord → Prop) (f : FlashWord → UInt16)
    (s : Rtu) : Prop where
  configured : Configured env m s
  words : ∀ a, words a → s.map.flash a = f a

section Survival

variable {env : Platform} (hrel : env.Reliable) {f1 f2 : Option FlashFile} {n : Nat} {m : MapT}
  (hboot : mapInit env f1 f2 n = some m) (hfit : LoadFits env m.xMax f1 f2)
  (hstand : TypesStand env m.xMax f1 f2) {words : FlashWord → Prop} {f : FlashWord → UInt16}

include hboot

theorem Configured.size {s : Rtu} (h : Configured env m s) : IsBlockSize env s.map.xMax :=
  h.mapping.xMax.symm ▸ isBlockSize_of_boot hboot

theorem blockSized_keeps :
    BlockSized env (KeepsWords env m words f) (fun a => IsTypeWord env a ∨ words a) where
  size := fun h => h.configured.size hboot
  types := .inl

include hrel

/-- An operation that spares the types and the words. -/
theorem KeepsWords.step {s s' : Rtu} {o : MapOp} (h : KeepsWords env m words f s)
    (hstep : MapStep env s o s') (ho : o ≠ .reboot)
    (hes : Sparing (fun a => IsTypeWord env a ∨ words a) ((LifeOp.map o).accesses env s)) :
    KeepsWords env m words f s' where
  configured := by
    obtain ⟨xMax, hx, -, hsize⟩ := h.configured.size hboot
    exact h.configured.of_sameConfig
      (hstep.sameConfig_of_sparing hrel hx ho hsize fun a v hmem ht => hes a v hmem (.inl ht))
  words := fun a ha => by
    have hlife : LifeStep env s (.map o) s' := .map hstep
    rw [hlife.flash hrel fun heq => ho (LifeOp.map.inj heq),
      memAfter_of_not_stored fun v hmem => hes a v hmem (.inr ha)]
    exact h.words a ha

include hfit hstand

theorem KeepsWords.boot (hnot : ∀ a, words a → ¬ IsTypeWord env a) {s : Rtu} {n' : Nat} {m' : MapT}
    (h : KeepsWords env m words f s) (hb : bootFrom env s.map.xMax s.map.flash n' = some m') :
    KeepsWords env m words f (.start m') where
  configured := h.configured.boot hrel hboot hfit hstand hb
  words := fun a ha => by
    obtain ⟨xMax, hx, -, hsize⟩ := h.configured.size hboot
    rw [hsize] at hb
    show m'.flash a = f a
    rw [bootFrom_flash hx hb, seen, settle_of_not_type _ hx (hnot a ha)]
    exact h.words a ha

/-- **Runs that spare the types and the words**, with any power cuts in them. -/
theorem keeps_run (hnot : ∀ a, words a → ¬ IsTypeWord env a) {p p' : Powered}
    (hp : p.Holds env (KeepsWords env m words f))
    (hrun : Steps (guarded (PowerOp.Allowed env
      (LifeOp.Writes env fun a => IsTypeWord env a ∨ words a)
      fun a => IsTypeWord env a ∨ words a) (PowerStep env)) p p') :
    p'.Holds env (KeepsWords env m words f) := by
  refine hrun.invariant ?_ hp
  rintro p o p' hp ⟨hallowed, hstep⟩
  refine (blockSized_keeps hboot).power_step hrel ?_ ?_ ?_ hp hallowed hstep
  · rintro s s' o hs hlife ho ⟨⟨op, rfl⟩, hes⟩
    cases hlife with
    | map hop => exact hs.step hrel hboot hop (fun heq => ho (congrArg LifeOp.map heq)) hes
  · intro s t o hs _ hes hbegun
    obtain rfl | ⟨op, hop, ho, hpre⟩ := hbegun.shorter
    · exact hs
    · exact hs.step hrel hboot hop ho (hes.of_prefix hpre)
  · intro s n' m' hs hb
    exact hs.boot hrel hboot hfit hstand hnot hb

end Survival

/-! ### The register -/

section Register

variable {env : Platform} {m : MapT} (hinside : m.IndexesInside) {w y : Nat} (hw : 1 ≤ w)
  (hw8 : w ≤ maxWellNum) (hy : y < maxRegisterNum) (hram : m.ramYMapType (yBase w + y) = .ram)
  (hkind : m.ramXMapType (m.xBase w + m.cellOf w y) ∈ [MapKind.flash1, .flash2])

include hinside hw hw8 hy hram hkind

theorem Configured.read {s : Rtu} (h : Configured env m s) (bigL : Bool) :
    mapModbusReadRegisters env s 1 w y bigL =
      some [orderWord bigL (s.map.flash (m.flashWord w (m.cellOf w y)))] := by
  have hplain : m.PlainRegister w y :=
    .inr ⟨hram, .inr (.inr (List.mem_pair.1 hkind))⟩
  rw [mapModbusReadRegisters_plain bigL (h.mapping.indexesInside hinside) hw hw8 hy
    (h.mapping.plainRegister hplain), h.mapping.wordAt_storageOf hram hkind]

/-- One word written to it. -/
theorem Configured.write {s : Rtu} (hrel : env.Reliable) (h : Configured env m s)
    (hrw : m.ramXMapRw (m.xBase w + m.cellOf w y) = .rw) (h0 : m.cellOf w y ≠ 0) (v : UInt16)
    (bigL : Bool) :
    Configured env m (mapModbusWriteRegisters env (fun _ => v) 1 w y bigL s).2 ∧
      (mapModbusWriteRegisters env (fun _ => v) 1 w y bigL s).2.map.flash
        (m.flashWord w (m.cellOf w y)) = orderWord bigL v := by
  have hin : s.map.IndexesInside := h.mapping.indexesInside hinside
  have hcell : s.map.cellOf w y = m.cellOf w y := h.mapping.cellOf hram
  have hwritable : s.map.WritableRegister w y := by
    unfold MapT.WritableRegister
    rw [h.mapping.regType, h.mapping.cellType, h.mapping.cellRw, h.mapping.xBase, hcell]
    exact .inr ⟨hram, .inr (.inr (List.mem_pair.1 hkind)), hrw⟩
  -- it leads to no type
  have hsame : SameConfig s.map (mapModbusWriteRegisters env (fun _ => v) 1 w y bigL s).2.map := by
    refine mapModbusWriteRegisters_sameConfig ?_
    rintro ⟨-, k, hk, -, hlead, -⟩
    obtain rfl : k = 0 := Nat.lt_one_iff.1 hk
    exact h0 (hcell.symm.trans hlead)
  have hconf := h.of_sameConfig hsame
  refine ⟨hconf, ?_⟩
  have hmap := mapModbusWriteRegisters_plain (orderWord bigL v) bigL hrel.synced hin hw hw8 hy
    hwritable
  rw [orderWord_orderWord] at hmap
  rw [← hconf.mapping.wordAt_storageOf hram hkind, hsame.toSameMapping.storageOf, hmap,
    MapT.wordAt_putRegister hin hw hw8 hy (MapT.valid_storageOf hin hw hw8 hy), if_pos rfl]

end Register

/-- **Written registers survive.** After a boot within bounds and any run in which no type is
stored, one word is written to a register that leads to a writable flash cell of the well, other
than cell 0, and the write ends. Then any run in which neither a type nor the flash word of the
cell is stored, with operations that are stopped at any access, power losses and boots, broken off
or not: whenever the unit runs, the register reads as it was written. -/
theorem written_survives (env : Platform) (f1 f2 : Option FlashFile) (n : Nat) (m : MapT)
    (s s' : Rtu) (disk disk' : FlashWord → UInt16) (p : Powered) (w y : Nat) (v : UInt16)
    (bigL : Bool) (hrel : env.Reliable) (hboot : mapInit env f1 f2 n = some m)
    (hfit : StoreFits env m.xMax f1 f2) (hstand : TypesStand env m.xMax f1 f2)
    (hw : 1 ≤ w) (hw8 : w ≤ maxWellNum) (hy : y < maxRegisterNum)
    (hram : m.ramYMapType (yBase w + y) = .ram)
    (hkind : m.ramXMapType (m.xBase w + m.cellOf w y) ∈ [MapKind.flash1, .flash2])
    (hrw : m.ramXMapRw (m.xBase w + m.cellOf w y) = .rw) (h0 : m.cellOf w y ≠ 0)
    (hbefore : Steps (guarded (PowerOp.Allowed env (LifeOp.Writes env (IsTypeWord env))
      (IsTypeWord env)) (PowerStep env)) (.running (.start m) m.flash) (.running s disk))
    (hwrite : PowerStep env (.running s disk)
      (.op (.map (.modbusWrite (fun _ => v) 1 w y bigL))) p)
    (hafter : Steps (guarded (PowerOp.Allowed env
      (LifeOp.Writes env fun a => IsTypeWord env a ∨ a = m.flashWord w (m.cellOf w y))
      fun a => IsTypeWord env a ∨ a = m.flashWord w (m.cellOf w y)) (PowerStep env))
      p (.running s' disk')) :
    mapModbusReadRegisters env s' 1 w y bigL = some [v] := by
  obtain ⟨xMax, hx, hm⟩ := mapInit_xMax hboot
  have hload : LoadFits env m.xMax f1 f2 := hfit.toLoadFits
  have hinside : m.IndexesInside := (mapInit_mappedInside hboot hload).indexesInside
  have hnot : ¬ IsTypeWord env (m.flashWord w (m.cellOf w y)) :=
    MapT.flashWord_not_type hx hm (hinside w y hw hw8 hy hram) h0
  have hstart : (Powered.running (.start m) m.flash).Holds env
      (KeepsWords env m (fun _ => False) m.flash) :=
    ⟨⟨configured_start env m, fun _ => False.elim⟩, rfl⟩
  have hs : (Powered.running s disk).Holds env (KeepsWords env m (fun _ => False) m.flash) := by
    refine keeps_run hrel hboot hload hstand (fun _ => False.elim) hstart ?_
    simpa only [or_false] using hbefore
  obtain ⟨⟨hconf, -⟩, rfl⟩ := hs
  have hp : p.Holds env (KeepsWords env m (fun a => a = m.flashWord w (m.cellOf w y))
      fun _ => orderWord bigL v) := by
    cases hwrite with
    | op hlife ho hcarries =>
        have hdisk := congrArg File.disk (hlife.done hrel ho hcarries)
        cases hlife with
        | map hop =>
            cases hop with
            | modbusWrite =>
                obtain ⟨hconf', hword⟩ :=
                  hconf.write hinside hw hw8 hy hram hkind hrel hrw h0 v bigL
                exact ⟨⟨hconf', fun a ha => ha ▸ hword⟩, hdisk⟩
  have hspared : ∀ a, a = m.flashWord w (m.cellOf w y) → ¬ IsTypeWord env a := fun a ha => ha ▸ hnot
  obtain ⟨hkeeps, -⟩ := keeps_run hrel hboot hload hstand hspared hp hafter
  rw [hkeeps.configured.read hinside hw hw8 hy hram hkind, hkeeps.words _ rfl, orderWord_orderWord]

/-- The same value for well 3. -/
def otherWrite : LifeOp := .map (.modbusWrite (fun _ => 9) 1 3 300 false)

theorem otherWrite_spares : Sparing
    (fun a => IsTypeWord plainFiles a ∨ a = plainBoot.flashWord 2 (plainBoot.cellOf 2 300))
    (otherWrite.accesses plainFiles plainSet) := by
  have hstores : ∀ e ∈ otherWrite.accesses plainFiles plainSet,
      e.StoresIn fun a => a = FlashWord.two 902 := by decide +kernel
  have hword : plainBoot.flashWord 2 (plainBoot.cellOf 2 300) = .two 601 := by decide +kernel
  intro a v hmem hspared
  have ha : a = FlashWord.two 902 := of_decide_eq_true (hstores _ hmem)
  rcases hspared with ⟨xMax, k, hx, heq⟩ | heq
  · have hx' : getXYZMaxLen plainFiles = some 301 := by decide +kernel
    obtain rfl : xMax = 301 := Option.some.inj (hx.symm.trans hx')
    rw [ha] at heq
    have hmul : 902 = k * 301 := FlashWord.two.inj heq
    omega
  · rw [ha, hword] at heq
    cases heq

/-- The value of well 2 is read after a power cut in the write of well 3. -/
theorem plainSet_survives : ∃ x s disk,
    PowerStep plainFiles (.running plainSet plainSet.map.flash) (.stop otherWrite)
      (.stopped plainSet.map.xMax x) ∧
    PowerStep plainFiles (.stopped plainSet.map.xMax x.powerLoss) .boot (.running s disk) ∧
    mapModbusReadRegisters plainFiles s 1 2 300 false = some [9] := by
  obtain ⟨y, hy⟩ := Carries.runs (plainWrite.accesses plainFiles (.start plainBoot))
    (.stored plainBoot.flash)
  have hlife : LifeStep plainFiles (.start plainBoot) plainWrite plainSet :=
    .map (.modbusWrite _ _ _ _ _ _)
  have hwrite : PowerStep plainFiles (.running (.start plainBoot) plainBoot.flash) (.op plainWrite)
      (.running plainSet y.disk) := .op hlife (by simp [plainWrite]) hy
  rw [show y.disk = plainSet.map.flash from
    congrArg File.disk (hlife.done plainFiles_reliable (by simp [plainWrite]) hy)] at hwrite
  obtain ⟨x, s, disk, hstop, hboot⟩ := exists_stop_boot (s := plainSet) plainFiles_reliable
    (hlife.size (isBlockSize_of_boot plainBoot_eq)) plainSet.map.flash otherWrite
  refine ⟨x, s, disk, hstop, hboot, ?_⟩
  refine written_survives plainFiles none none 0 plainBoot (.start plainBoot) s plainBoot.flash disk
    (.running plainSet plainSet.map.flash) 2 300 9 false plainFiles_reliable plainBoot_eq
    plainBoot_fits plainBoot_stand (by decide) (by decide) (by decide) (by decide +kernel)
    (by decide +kernel) (by decide +kernel) (by decide +kernel) .refl hwrite ?_
  refine .trans (.one (a := .stop otherWrite) ⟨⟨by simp [otherWrite], otherWrite_spares⟩, hstop⟩) ?_
  exact .trans (.one (a := .powerLoss) ⟨trivial, .powerLoss⟩) (.one (a := .boot) ⟨trivial, hboot⟩)

end RtuA118
