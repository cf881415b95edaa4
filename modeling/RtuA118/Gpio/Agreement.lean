import RtuA118.Gpio.Outputs
import RtuA118.Map.Integrity

/-!
# RtuA118.Gpio.Agreement

Do the outputs stand where a reboot would put them? `Agrees` compares the level an
output was driven to last with the one that the boot would drive from the register
stored in well 1.

Four things keep it, each under a condition (`OutputsOk`): a boot, if it can open the
battery's converter (`gpio_init` gives up before the outputs otherwise) and the files
make the eight cells of well 1 function-mapped; a write through a function-mapped cell, if
the word is one that pin and boot read alike; a write through a cell of well 1 in the
second flash, which stores and does not drive, if it changes nothing; and a change of
type of well 1, which stores the defaults of the new type and does not drive, likewise.

Reading is right in every state (`read_do`).
-/

namespace RtuA118

open Run (Steps guarded)

/-! ### Agreement -/

/-- The output was driven last to the level that the boot would drive it to. -/
def Agrees (s : Rtu) (i : Nat) : Prop := s.board.output i = some (bootLevel i (s.storedDo i))

/-- The output's cell of the well has code behind it. -/
def MapT.DoIsSys (m : MapT) (w i : Nat) : Prop :=
  m.ramXMapType (m.xBase w + (mapGetDO0 + i)) = .sys

instance (m : MapT) (w i : Nat) : Decidable (m.DoIsSys w i) :=
  inferInstanceAs (Decidable (_ = _))

/-- The block has room for the outputs' cells. -/
def MapT.HasOutputs (m : MapT) : Prop := mapGetDO0 + 8 ≤ m.xMax

section Cell

variable {env : Platform} {w i j : Nat} {v : UInt16} {s : Rtu}

/-- A store into another well is no store into an output's word. -/
theorem stored_ne (h : s.map.HasOutputs) (hw : w ≠ 1) (hw1 : 1 ≤ w) (hi : i < 8) {x : Nat}
    (hx : x < s.map.xMax) : s.map.xBase 1 + (mapGetDO0 + i) ≠ s.map.xBase w + x := by
  unfold MapT.HasOutputs at h
  intro heq
  exact hw ((MapT.xBase_add_inj (Nat.le_refl 1) hw1 (by omega) hx).1 heq).1.symm

/-- A function-mapped cell drives and stores one output. -/
theorem writeCell_sys (hio : env.ioOpen = true) (hi : i < 8) (hsys : s.map.DoIsSys w i) :
    (writeCell env w (mapGetDO0 + i) v s).1 = true ∧
      ∀ j < 8,
        (writeCell env w (mapGetDO0 + i) v s).2.board.output j
          = (if j = i then some (driveLevel i v) else s.board.output j) ∧
        (writeCell env w (mapGetDO0 + i) v s).2.storedDo j
          = if j = i then v else s.storedDo j := by
  obtain ⟨htab, hboard, hflash⟩ := writeCell_do w v s hio hi
  have hbase := xBase_eq_of_tables htab 1
  have hk : s.map.ramXMapType (s.map.xBase w + (mapGetDO0 + i)) = .sys := hsys
  rw [if_pos hk] at hboard hflash
  refine ⟨?_, fun j hj => ⟨?_, ?_⟩⟩
  · unfold writeCell
    rw [hk]
    dsimp only
    rw [mapMapFunWrite_do env w v s hi]
  · rw [hboard, (Board.drive_output s.board_rest hi).2 j hj]
  · unfold Rtu.storedDo
    rw [hbase, hflash]
    by_cases hji : j = i
    · rw [if_pos hji, hji, Function.update_self]
    · rw [if_neg hji, Function.update_of_ne (by omega)]

/-- Any other write drives nothing and stores in its own well. -/
theorem writeCell_not_sys (hio : env.ioOpen = true) (hi : i < 8) (hsys : ¬ s.map.DoIsSys w i)
    (hout : s.map.HasOutputs) (hw : 1 ≤ w) (hj : j < 8) :
    (writeCell env w (mapGetDO0 + i) v s).2.board = s.board ∧
      (writeCell env w (mapGetDO0 + i) v s).2.storedDo j
        = if w = 1 ∧ j = i ∧ s.map.ramXMapType (s.map.xBase w + (mapGetDO0 + i)) = .flash2 then v
          else s.storedDo j := by
  obtain ⟨htab, hboard, hflash⟩ := writeCell_do w v s hio hi
  have hk : s.map.ramXMapType (s.map.xBase w + (mapGetDO0 + i)) ≠ .sys := hsys
  rw [if_neg hk] at hboard hflash
  refine ⟨hboard, ?_⟩
  unfold Rtu.storedDo
  rw [xBase_eq_of_tables htab 1, hflash]
  unfold MapT.HasOutputs at hout
  by_cases hk : s.map.ramXMapType (s.map.xBase w + (mapGetDO0 + i)) = .flash2
  · rw [if_pos hk]
    by_cases hw1 : w = 1
    · subst hw1
      by_cases hji : j = i
      · rw [if_pos ⟨rfl, hji, hk⟩, hji, Function.update_self]
      · rw [if_neg fun h => hji h.2.1, Function.update_of_ne (by omega)]
    · rw [if_neg fun h => hw1 h.1, Function.update_of_ne]
      exact stored_ne hout hw1 hw hj (by omega)
  · rw [if_neg hk, if_neg fun h => hk h.2.2]

end Cell

/-! ### The boot's writes -/

/-- Words 0 and 1 through function-mapped cells bring the outputs into agreement, one
after the other. -/
theorem writeCells_agrees {env : Platform} (hio : env.ioOpen = true) : ∀ {vs : List UInt16}
    {j : Nat} {s : Rtu}, j + vs.length ≤ 8 → (∀ v ∈ vs, initWord v = v) →
    (∀ i < 8, s.map.DoIsSys 1 i) → (∀ i < j, Agrees s i) →
    ∀ i < j + vs.length, Agrees (writeCells env 1 (mapGetDO0 + j) vs s).2 i := by
  intro vs
  induction vs with
  | nil => intro j s _ _ _ h; exact h
  | cons v vs ih =>
      intro j s hlen hvs hsys h
      rw [List.length_cons] at hlen
      obtain ⟨hok, hcell⟩ := writeCell_sys (v := v) hio (by omega) (hsys j (by omega))
      have htab := (writeCell_do 1 v s hio (show j < 8 by omega)).1
      have hv := hvs v List.mem_cons_self
      rw [writeCells_cons, if_pos hok, Nat.add_assoc, List.length_cons,
        show j + (vs.length + 1) = j + 1 + vs.length by omega]
      refine ih (by omega) (fun u hu => hvs u (List.mem_cons_of_mem _ hu)) (fun i hi => ?_)
        fun i hi => ?_
      · unfold MapT.DoIsSys
        rw [ramXMapType_eq_of_tables htab, xBase_eq_of_tables htab]
        exact hsys i hi
      · -- the cell just written, or one before it
        obtain ⟨hlevel, hstored⟩ := hcell i (by omega)
        unfold Agrees
        rw [hlevel, hstored]
        by_cases hij : i = j
        · rw [if_pos hij, if_pos hij, hij]
          unfold bootLevel
          rw [hv]
        · rw [if_neg hij, if_neg hij]
          exact h i (by omega)

theorem initWord_initWord (v : UInt16) : initWord (initWord v) = initWord v := by
  unfold initWord
  split
  · rfl
  · rfl

theorem gpioDoInit_agrees {env : Platform} {buf : Nat → UInt16} {s : Rtu}
    (hio : env.ioOpen = true) (hout : s.map.HasOutputs) (hsys : ∀ i < 8, s.map.DoIsSys 1 i) :
    ∀ i < 8, Agrees (gpioDoInit env buf s) i := by
  have hok : cellArgsOk s.map 8 1 mapGetDO0 = true := by
    unfold MapT.HasOutputs at hout
    rw [cellArgsOk_iff]
    omega
  unfold gpioDoInit
  dsimp only
  unfold zigbeeWriteRegisters
  rw [if_pos hok]
  generalize hvs : List.map _ (List.range (Int.toNat 8)) = vs
  have hlen : vs.length = 8 := by
    rw [← hvs, List.length_map]
    rfl
  have hwords : ∀ v ∈ vs, initWord v = v := by
    intro v hv
    rw [← hvs] at hv
    obtain ⟨k, -, rfl⟩ := List.mem_map.1 hv
    exact initWord_initWord _
  intro i hi
  exact writeCells_agrees hio (j := 0) (by omega) hwords hsys
    (fun i hi => absurd hi (Nat.not_lt_zero i)) i (by omega)

/-! ### A change of type -/

/-- What a change of type does to the map and to the outputs. -/
theorem mapItemRemap_spec (env : Platform) (w : Nat) (t : UInt16) (s : Rtu) :
    (mapItemRemap env w t s).2.board = s.board ∧
      ((mapItemRemap env w t s).2.map = s.map ∨
        ∃ path, getMap00Path env t = some path ∧
          (mapItemRemap env w t s).2.map = (fileCells env path).foldl
            (loadCell (s.map.xBase w) (yBase w) false true) (s.map.setFlash2 w 0 t)) := by
  obtain ⟨-, hs⟩ | ⟨path, hpath, -, s', rfl, hs⟩ := mapItemRemap_cases env w t s
  · rw [hs]
    exact ⟨rfl, .inl rfl⟩
  · rcases hs with hs | hs <;> rw [hs] <;> exact ⟨rfl, .inr ⟨path, hpath, rfl⟩⟩

/-- The words stored for the outputs change with the type of well 1 only, to the
defaults of the new type. -/
theorem mapItemRemap_storedDo {env : Platform} {w i : Nat} {t : UInt16} {s : Rtu} (hw : 1 ≤ w)
    (hsize : Sized env s.map) (hout : s.map.HasOutputs) (hi : i < 8) :
    (mapItemRemap env w t s).2.storedDo i = s.storedDo i ∨
      w = 1 ∧ ∃ path, getMap00Path env t = some path ∧
        (mapItemRemap env w t s).2.storedDo i
          = lastDefault false (mapGetDO0 + i) (fileCells env path) (s.storedDo i) := by
  obtain ⟨-, hsame | ⟨path, hpath, hmap⟩⟩ := mapItemRemap_spec env w t s
  · left
    unfold Rtu.storedDo
    rw [hsame]
  · have hx : (mapItemRemap env w t s).2.map.xMax = s.map.xMax := mapItemRemap_xMax
    have hbase : (mapItemRemap env w t s).2.map.xBase 1 = s.map.xBase 1 :=
      congrArg (· * (1 - 1)) hx
    unfold Rtu.storedDo
    rw [hbase, hmap]
    have hpos : 0 < s.map.xMax := by
      unfold MapT.HasOutputs at hout
      omega
    by_cases hw1 : w = 1
    · subst hw1
      right
      refine ⟨rfl, path, hpath, ?_⟩
      rw [foldl_loadCell_lastDefault]
      unfold mapGetDO0
      exact congrArg _ (Function.update_of_ne (by omega) _ _)
    · left
      obtain ⟨xMax, hscan, hx0, hxm⟩ := hsize
      have hrows := fileCells_lt_of_listed hscan hx0 (listed_of_getMap00Path hpath)
      rw [← hxm] at hrows
      rw [foldl_loadCell_flash2_of_ne fun c hc => stored_ne hout hw1 hw hi (hrows c hc)]
      exact Function.update_of_ne (stored_ne hout hw1 hw hi hpos) _ _

/-! ### Steps -/

/-- What happens to the outputs. -/
inductive OutputOp where
  /-- A word `u` to register `y` of well `w`, which leads to the cell of output `i`. -/
  | register (w y i : Nat) (u : UInt16) (bigL : Bool)
  /-- A word to the cell itself. -/
  | cell (w i : Nat) (v : UInt16)
  | changeType (w : Nat) (t : UInt16)
  /-- A boot that can open the converter of the battery, or cannot. -/
  | reboot (adcOpen : Bool)

/-- Register `y` of the well leads to the cell of output `i`. -/
def MapT.LeadsToDo (m : MapT) (w y i : Nat) : Prop :=
  1 ≤ w ∧ w ≤ maxWellNum ∧ y < maxRegisterNum ∧ i < 8 ∧
    m.ramYMapType (yBase w + y) = .ram ∧ m.cellOf w y = mapGetDO0 + i

/-- The unit after a boot, over what was driven before: the map loaded, and the outputs
driven, unless `gpio_init` returns before it because the converter of the battery
cannot be opened. -/
def bootOutputs (env : Platform) (adcOpen : Bool) (buf : Nat → UInt16)
    (driven : List (Nat × UInt16)) (m : MapT) : Rtu :=
  let s := { Rtu.start m with driven := driven }
  if adcOpen then gpioDoInit env buf s else s

theorem bootOutputs_open (env : Platform) (buf : Nat → UInt16) (driven : List (Nat × UInt16))
    (m : MapT) :
    bootOutputs env true buf driven m =
      gpioDoInit env buf { Rtu.start m with driven := driven } := by
  unfold bootOutputs
  rw [if_pos rfl]

theorem gpioDoInit_xMax (env : Platform) (buf : Nat → UInt16) (s : Rtu) :
    (gpioDoInit env buf s).map.xMax = s.map.xMax := by
  unfold gpioDoInit
  dsimp only
  rw [zigbeeWriteRegisters_xMax]

theorem bootOutputs_xMax (env : Platform) (adcOpen : Bool) (buf : Nat → UInt16)
    (driven : List (Nat × UInt16)) (m : MapT) :
    (bootOutputs env adcOpen buf driven m).map.xMax = m.xMax := by
  cases adcOpen with
  | false => rfl
  | true =>
      rw [bootOutputs_open, gpioDoInit_xMax]
      rfl

/-- One step. -/
inductive OutputStep (env : Platform) : Rtu → OutputOp → Rtu → Prop where
  | register {s : Rtu} {w y i : Nat} (u : UInt16) (bigL : Bool) : s.map.LeadsToDo w y i →
      OutputStep env s (.register w y i u bigL)
        (mapModbusWriteRegisters env (fun _ => u) 1 w y bigL s).2
  | cell {w i : Nat} (s : Rtu) (v : UInt16) : 1 ≤ w → w ≤ maxWellNum → i < 8 →
      OutputStep env s (.cell w i v)
        (zigbeeWriteRegisters env (fun _ => v) 1 w (mapGetDO0 + i : Nat) s).2
  | changeType {w : Nat} (s : Rtu) (t : UInt16) : 1 ≤ w → w ≤ maxWellNum →
      OutputStep env s (.changeType w t) (mapItemRemap env w t s).2
  | reboot {m : MapT} (s : Rtu) (adcOpen : Bool) (buf : Nat → UInt16) :
      mapInit env (some s.map.flash1File) (some s.map.flash2File) s.msyncs = some m →
      OutputStep env s (.reboot adcOpen) (bootOutputs env adcOpen buf s.driven m)

/-- The first boot, over any flash files. -/
def FirstBoot (env : Platform) (adcOpen : Bool) (f1 f2 : Option FlashFile) (s : Rtu) : Prop :=
  ∃ n m buf driven, mapInit env f1 f2 n = some m ∧ s = bootOutputs env adcOpen buf driven m

/-! ### The conditions -/

/-- The converter can be opened, and the files have the outputs' cells, in well 1 with
code behind them. -/
structure BootOk (env : Platform) (adcOpen : Bool) (f1 f2 : Option FlashFile) (xMax : Nat) :
    Prop where
  adc : adcOpen = true
  room : mapGetDO0 + 8 ≤ xMax
  sys : ∀ i < 8, kindAfter (fileCells env pathMap1 ++
    fileCells env (bootPath env (typeAtBoot env xMax f1 f2 0))) (mapGetDO0 + i) = .sys

/-- A write through a function-mapped cell has a word that pin and boot read alike; one
into the second flash of well 1 does not change what the boot would drive. -/
def WriteOk (s : Rtu) (w i : Nat) (v : UInt16) : Prop :=
  if s.map.DoIsSys w i then i < 2 ∨ v = 1 ∨ loByte v = 0
  else w = 1 → s.map.ramXMapType (s.map.xBase w + (mapGetDO0 + i)) = .flash2 →
    (v = 1 ↔ s.storedDo i = 1)

/-- What a step asks for. -/
def OutputsOk (env : Platform) (s : Rtu) : OutputOp → Prop
  | .register w _ i u bigL =>
    s.map.ramXMapRw (s.map.xBase w + (mapGetDO0 + i)) = .rw → WriteOk s w i (orderWord bigL u)
  | .cell w i v => WriteOk s w i v
  | .changeType w t => w = 1 → ∀ path, getMap00Path env t = some path → ∀ i < 8,
    (lastDefault false (mapGetDO0 + i) (fileCells env path) (s.storedDo i) = 1
      ↔ s.storedDo i = 1)
  | .reboot adcOpen =>
    BootOk env adcOpen (some s.map.flash1File) (some s.map.flash2File) s.map.xMax

/-! ### The invariant -/

/-- Agreement, with the block size it rests on. -/
structure OutputsInv (env : Platform) (s : Rtu) : Prop where
  sized : Sized env s.map
  room : s.map.HasOutputs
  agrees : ∀ i < 8, Agrees s i

theorem OutputsInv.writeCell {env : Platform} {w i : Nat} {v : UInt16} {s : Rtu}
    (h : OutputsInv env s) (hio : env.ioOpen = true) (hw : 1 ≤ w) (hi : i < 8)
    (hok : WriteOk s w i v) : OutputsInv env (writeCell env w (mapGetDO0 + i) v s).2 := by
  have hx : (RtuA118.writeCell env w (mapGetDO0 + i) v s).2.map.xMax = s.map.xMax := writeCell_xMax
  refine ⟨h.sized.of_xMax hx, ?_, fun j hj => ?_⟩
  · unfold MapT.HasOutputs
    rw [hx]
    exact h.room
  · unfold WriteOk at hok
    unfold Agrees
    split at hok
    · rename_i hsys
      obtain ⟨hlevel, hstored⟩ := (writeCell_sys (v := v) hio hi hsys).2 j hj
      rw [hlevel, hstored]
      by_cases hji : j = i
      · rw [if_pos hji, if_pos hji, hji]
        exact congrArg some ((driveLevel_eq_bootLevel_iff i v).2 hok)
      · rw [if_neg hji, if_neg hji]
        exact h.agrees j hj
    · rename_i hsys
      obtain ⟨hboard, hstored⟩ := writeCell_not_sys (v := v) hio hi hsys h.room hw hj
      rw [hboard, hstored]
      have hj' := h.agrees j hj
      unfold Agrees at hj'
      rw [hj']
      split
      · rename_i hst
        obtain ⟨hw1, rfl, hk⟩ := hst
        -- stored without driving
        rw [bootLevel_eq, bootLevel_eq, Option.some_inj, decide_eq_decide]
        exact (hok hw1 hk).symm
      · rfl

theorem OutputsInv.changeType {env : Platform} {w : Nat} {t : UInt16} {s : Rtu}
    (h : OutputsInv env s) (hw : 1 ≤ w) (hok : OutputsOk env s (.changeType w t)) :
    OutputsInv env (mapItemRemap env w t s).2 := by
  have hx : (mapItemRemap env w t s).2.map.xMax = s.map.xMax := mapItemRemap_xMax
  refine ⟨h.sized.of_xMax hx, ?_, fun i hi => ?_⟩
  · unfold MapT.HasOutputs
    rw [hx]
    exact h.room
  · have hi' := h.agrees i hi
    unfold Agrees at hi' ⊢
    rw [(mapItemRemap_spec env w t s).1, hi']
    rcases mapItemRemap_storedDo hw h.sized h.room hi with hsame | ⟨hw1, path, hpath, hnew⟩
    · rw [hsame]
    · rw [hnew, bootLevel_eq, bootLevel_eq, Option.some_inj, decide_eq_decide]
      exact (hok hw1 path hpath i hi).symm

theorem OutputsInv.boot {env : Platform} {adcOpen : Bool} {f1 f2 : Option FlashFile} {n : Nat}
    {m : MapT} {buf : Nat → UInt16} {driven : List (Nat × UInt16)} (hio : env.ioOpen = true)
    (hinit : mapInit env f1 f2 n = some m) (hok : BootOk env adcOpen f1 f2 m.xMax) :
    OutputsInv env (bootOutputs env adcOpen buf driven m) := by
  have hx := bootOutputs_xMax env adcOpen buf driven m
  obtain rfl := hok.adc
  refine ⟨(mapInit_sized hinit).of_xMax hx, ?_, ?_⟩
  · unfold MapT.HasOutputs
    rw [hx]
    exact hok.room
  · rw [bootOutputs_open]
    refine gpioDoInit_agrees hio hok.room fun i hi => ?_
    have hroom := hok.room
    have hbase : m.xBase 1 + (mapGetDO0 + i) = mapGetDO0 + i := by
      rw [MapT.xBase, Nat.sub_self, Nat.mul_zero, Nat.zero_add]
    show m.ramXMapType (m.xBase 1 + (mapGetDO0 + i)) = .sys
    rw [hbase, mapInit_kind hinit (by omega)]
    exact hok.sys i hi

/-- A write to a register is a write to its cell, unless the cell is read-only. -/
theorem mapModbusWriteRegisters_do {env : Platform} {w y i : Nat} {u : UInt16} {bigL : Bool}
    {s : Rtu} (h : s.map.LeadsToDo w y i) (hout : s.map.HasOutputs) :
    (mapModbusWriteRegisters env (fun _ => u) 1 w y bigL s).2 =
      if s.map.ramXMapRw (s.map.xBase w + (mapGetDO0 + i)) = .rw then
        (writeCell env w (mapGetDO0 + i) (orderWord bigL u) s).2
      else s := by
  obtain ⟨hw, hw8, hy, hi, hram, hcell⟩ := h
  have hx : mapGetDO0 + i < s.map.xMax := by
    unfold MapT.HasOutputs at hout
    omega
  have hland : modbusWriteLanded env (fun _ => u) (1 : Nat) w y bigL s
      = (0, (modbusWriteLoop env (fun _ => u) bigL w y s 1).landed,
          (modbusWriteLoop env (fun _ => u) bigL w y s 1).rtu) :=
    modbusWriteLanded_of_ok hw hw8 (Nat.le_refl 1) (Nat.succ_le_of_lt hy)
  have hone : (mapModbusWriteRegisters env (fun _ => u) 1 w y bigL s).2
      = (WriteLoop.turn env (fun _ => u) bigL w ⟨y, 0, [], s⟩).rtu :=
    congrArg (fun r => r.2.2) hland
  rw [hone]
  unfold WriteLoop.turn
  dsimp only
  rw [hram]
  dsimp only
  rw [hcell]
  by_cases hrw : s.map.ramXMapRw (s.map.xBase w + (mapGetDO0 + i)) = .rw
  · rw [if_neg (not_not.2 hrw), if_pos hrw]
    dsimp only
    rw [zigbeeWriteRegisters_one hw hw8, if_pos hx]
  · rw [if_pos hrw, if_neg hrw]

/-- **Every step keeps agreement**, under its condition. -/
theorem OutputStep.inv {env : Platform} {s s' : Rtu} {op : OutputOp} (hio : env.ioOpen = true)
    (h : OutputStep env s op s') (hok : OutputsOk env s op) (hinv : OutputsInv env s) :
    OutputsInv env s' := by
  cases h with
  | register u bigL hlead =>
      rw [mapModbusWriteRegisters_do hlead hinv.room]
      split
      · rename_i hrw
        exact hinv.writeCell hio hlead.1 hlead.2.2.2.1 (hok hrw)
      · exact hinv
  | cell _ v hw hw8 hi =>
      rw [zigbeeWriteRegisters_one hw hw8]
      split
      · exact hinv.writeCell hio hw hi hok
      · exact hinv
  | changeType _ t hw hw8 => exact hinv.changeType hw hok
  | reboot _ adcOpen buf hinit =>
      have hx := hinv.sized.xMax_eq (mapInit_sized hinit)
      exact OutputsInv.boot hio hinit (hx ▸ hok)

/-! ### Reading -/

/-- A register that leads to a function-mapped cell of an output reads as the word stored
in well 1. -/
theorem read_do {env : Platform} {s : Rtu} {w y i : Nat} {bigL : Bool}
    (hlead : s.map.LeadsToDo w y i) (hout : s.map.HasOutputs) (hsys : s.map.DoIsSys w i) :
    mapModbusReadRegisters env s 1 w y bigL = some [orderWord bigL (s.storedDo i)] := by
  obtain ⟨hw, hw8, hy, hi, hram, hcell⟩ := hlead
  have hok : registerArgsOk 1 w y = true := by
    unfold maxWellNum at hw8
    unfold maxRegisterNum at hy
    rw [registerArgsOk_iff]
    omega
  have hx : mapGetDO0 + i < s.map.xMax := by
    unfold MapT.HasOutputs at hout
    omega
  have hidx : (s.map.ramY (yBase w + y)).toNat = mapGetDO0 + i := hcell
  -- the outputs come last in the reader, so no test before theirs may hold
  have hfun : ∀ cur, mapMapFunRead env s cur w (mapGetDO0 + i) = some (s.storedDo i) := by
    intro cur
    have hin : mapGetDO0 ≤ mapGetDO0 + i ∧ mapGetDO0 + i < mapGetDO0 + 8 := by omega
    unfold mapMapFunRead
    rw [if_pos hin]
    unfold mapGetDO0 mapChangeWellType mapGetRtuVer mapGetTimeHour mapGetTimeDay
      mapGetBatteryVoltage mapConfig1 mapGetMac0 mapConfig2ElecInterv mapConfig2ActInterv mapGetDI0
    rw [if_neg (by omega), if_neg (by omega), if_neg (by omega), if_neg (by omega),
      if_neg (by omega), if_neg (by omega), if_neg (by omega), if_neg (by omega)]
    rfl
  have hkind : s.map.ramXMapType (s.map.xBase w + (mapGetDO0 + i)) = .sys := hsys
  unfold mapModbusReadRegisters
  rw [if_pos hok, Int.toNat_natCast, Int.toNat_natCast]
  unfold Int.toNat
  dsimp only
  unfold modbusReadLoop readRegister
  dsimp only
  rw [hram]
  dsimp only
  rw [hidx, zigbeeReadRegisters_one hw hw8, if_pos hx]
  dsimp only
  unfold readCell
  rw [hkind]
  dsimp only
  rw [hfun, Option.getD_some]
  rfl

/-- **Digital outputs.** With the device open, in every state of a run whose steps meet
their conditions each output stands where the boot would put it; and every register of
a function-mapped output cell reads as the word stored in well 1. -/
theorem outputs_agree (env : Platform) (adcOpen : Bool) (f1 f2 : Option FlashFile) (s0 s : Rtu)
    (hio : env.ioOpen = true) (hboot : FirstBoot env adcOpen f1 f2 s0)
    (hok : BootOk env adcOpen f1 f2 s0.map.xMax)
    (hrun : Steps (guarded (OutputsOk env) (OutputStep env)) s0 s) :
    (∀ i < 8, Agrees s i) ∧
      ∀ w y i bigL, s.map.LeadsToDo w y i → s.map.DoIsSys w i →
        mapModbusReadRegisters env s 1 w y bigL = some [orderWord bigL (s.storedDo i)] := by
  have hinv : OutputsInv env s := by
    induction hrun with
    | refl =>
        obtain ⟨n, m, buf, driven, hinit, hs0⟩ := hboot
        rw [hs0, bootOutputs_xMax] at hok
        rw [hs0]
        exact OutputsInv.boot hio hinit hok
    | tail _ hstep ih =>
        obtain ⟨op, hguard, hstep⟩ := hstep
        exact hstep.inv hio hguard ih
  exact ⟨hinv.agrees, fun w y i bigL hlead hsys => read_do hlead hinv.room hsys⟩

/-- A type whose output cells are all function-mapped. -/
def outputsFiles : Platform :=
  { Platform.bare (fun path =>
      if path = pathMap0 then some "1,/a".toList
      else if path = pathMap1 then some "0,40001,1,RW,SYS".toList
      else if path = "/a".toList then some "1862~1869,41863~41870,0,RW,SYS".toList
      else none) with ioOpen := true }

/-- A second flash file of that size, with the word 1 everywhere. -/
def outputsFlash : FlashFile := ⟨2 * (1870 * maxWellNum), fun _ => 1⟩

def outputsMap : MapT := (mapInit outputsFiles none (some outputsFlash) 0).get (by decide)

def outputsBooted : Rtu := bootOutputs outputsFiles true (fun _ => 0) [] outputsMap

theorem outputsBooted_first : FirstBoot outputsFiles true none (some outputsFlash) outputsBooted :=
  ⟨0, outputsMap, fun _ => 0, [], by simp [outputsMap], rfl⟩

/-- The word 2 makes the pin of output 2 high, and the boot would make it low. -/
theorem not_outputs_agree : ¬ ∀ (env : Platform) (adcOpen : Bool) (f1 f2 : Option FlashFile)
    (s0 s : Rtu), env.ioOpen = true → FirstBoot env adcOpen f1 f2 s0 →
    Steps (OutputStep env) s0 s → ∀ i < 8, Agrees s i := by
  intro h
  have hagree :=
    h outputsFiles true none (some outputsFlash) outputsBooted _ rfl outputsBooted_first
    (.one (.cell (w := 1) (i := 2) outputsBooted 2 (by decide) (by decide) (by decide))) 2
    (by decide)
  unfold Agrees at hagree
  exact absurd hagree (by decide +kernel)

theorem outputsBooted_ok :
    BootOk outputsFiles true none (some outputsFlash) outputsBooted.map.xMax := by
  have hx : outputsBooted.map.xMax = 1870 := bootOutputs_xMax _ _ _ _ _
  rw [hx]
  exact ⟨rfl, by decide, by decide⟩

/-- The word 1 written through the register of output 3 in well 2. -/
theorem outputsBooted_agree : Agrees
    (mapModbusWriteRegisters outputsFiles (fun _ => 1) 1 (2 : Nat) (1865 : Nat) false
      outputsBooted).2 2 :=
  (outputs_agree outputsFiles true none (some outputsFlash) outputsBooted _ rfl outputsBooted_first
    outputsBooted_ok (.one (a := .register 2 1865 3 1 false)
      ⟨fun _ => by unfold WriteOk; decide +kernel,
        .register 1 false (by unfold MapT.LeadsToDo; decide +kernel)⟩)).1 2 (by decide)

end RtuA118
