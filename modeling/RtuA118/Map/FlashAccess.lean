import RtuA118.Lib.Mapped
import RtuA118.Map.Life
import RtuA118.Map.Restart

/-!
# RtuA118.Map.FlashAccess

What the operations of the register map do to the **flash files**, access by access: the words
they store in the mapped memory, and where they call `msync`.

The lists stand beside the functions of `RtuA118.Map.Access`, `RtuA118.Map.Modbus` and
`RtuA118.Map.Load`, in the order in which these touch the files. A write stores one flash word and
syncs it before it goes on (`writeCell_accesses`). A change of type and a factory reset store all
their words first and sync at the end.
-/

namespace RtuA118

open Mapped

/-! ### The words -/

/-- A word of the first or of the second flash. -/
inductive FlashWord where
  | one (i : Nat)
  | two (a : Nat)
  deriving DecidableEq, Repr

namespace FlashWord

def inOne : FlashWord → Bool
  | one _ => true
  | two _ => false

def inTwo : FlashWord → Bool
  | one _ => false
  | two _ => true

theorem inOne_or_inTwo (a : FlashWord) : a.inOne = true ∨ a.inTwo = true := by
  cases a <;> simp [inOne, inTwo]

end FlashWord

/-- Both flashes as the program sees them. -/
def MapT.flash (m : MapT) : FlashWord → UInt16
  | .one i => m.flash1 i
  | .two a => m.flash2 a

abbrev FlashAccess := Access FlashWord UInt16

theorem MapT.flash_ext {m m' : MapT} (h1 : m'.flash1 = m.flash1) (h2 : m'.flash2 = m.flash2) :
    m'.flash = m.flash := by
  funext a
  cases a with
  | one i => exact congrFun h1 i
  | two a => exact congrFun h2 a

@[simp] theorem MapT.flash_setRamX (m : MapT) (w i : Nat) (v : UInt16) :
    (m.setRamX w i v).flash = m.flash := rfl

@[simp] theorem MapT.flash_setRamY (m : MapT) (w i : Nat) (v : UInt16) :
    (m.setRamY w i v).flash = m.flash := rfl

@[simp] theorem MapT.flash_setFlash1 (m : MapT) (i : Nat) (v : UInt16) :
    (m.setFlash1 i v).flash = Function.update m.flash (.one i) v := by
  funext a
  cases a with
  | one j =>
      by_cases h : j = i
      · subst h
        simp [flash, setFlash1]
      · simp [flash, setFlash1, h]
  | two a => simp [flash, setFlash1]

theorem MapT.flash_update (m : MapT) (b : Nat) (v : UInt16) :
    ({ m with flash2 := Function.update m.flash2 b v } : MapT).flash
      = Function.update m.flash (.two b) v := by
  funext a
  cases a with
  | one i => simp [flash]
  | two a =>
      by_cases h : a = b
      · subst h
        simp [flash]
      · simp [flash, h]

@[simp] theorem MapT.flash_setFlash2 (m : MapT) (w i : Nat) (v : UInt16) :
    (m.setFlash2 w i v).flash = Function.update m.flash (.two (m.xBase w + i)) v :=
  m.flash_update _ v

/-! ### Loading a file -/

/-- The stores of the loader's loop body. -/
def RowCell.stores (xb : Nat) (flash1IsNew flash2IsNew : Bool) (c : RowCell) : List FlashAccess :=
  if (c.flags.mapType = .sys ∨ c.flags.mapType = .flash1) ∧ flash1IsNew then
    [.store (.one c.x.toNat) c.dV]
  else if (c.flags.mapType = .sys ∨ c.flags.mapType = .flash2) ∧ flash2IsNew then
    [.store (.two (xb + c.x.toNat)) c.dV]
  else []

theorem loadCell_flash {xb yb : Nat} {b1 b2 : Bool} {m : MapT} {c : RowCell} :
    (loadCell xb yb b1 b2 m c).flash = memAfter m.flash (c.stores xb b1 b2) := by
  unfold RowCell.stores
  split
  · rename_i h
    refine Eq.trans ?_ (m.flash_setFlash1 c.x.toNat c.dV)
    exact MapT.flash_ext (if_pos h) (if_pos h)
  · rename_i h
    split
    · rename_i h'
      refine Eq.trans ?_ (m.flash_update (xb + c.x.toNat) c.dV)
      exact MapT.flash_ext (if_neg h) ((if_neg h).trans (if_pos h'))
    · rename_i h'
      exact MapT.flash_ext (if_neg h) ((if_neg h).trans (if_neg h'))

theorem foldl_loadCell_flash {xb yb : Nat} {b1 b2 : Bool} {cs : List RowCell} {m : MapT} :
    (cs.foldl (loadCell xb yb b1 b2) m).flash =
      memAfter m.flash (cs.flatMap (·.stores xb b1 b2)) := by
  induction cs generalizing m with
  | nil => rfl
  | cons c cs ih => rw [List.foldl_cons, ih, loadCell_flash, List.flatMap_cons, memAfter_append]

/-- A new first flash takes the stores of a file, or a new second one. -/
theorem storesIn_flatMap {xb : Nat} {cs : List RowCell} (b1 : Bool) :
    ∀ e ∈ cs.flatMap (·.stores xb b1 (!b1)),
      e.StoresIn (if b1 then FlashWord.inOne else FlashWord.inTwo) := by
  intro e he
  obtain ⟨c, -, he⟩ := List.mem_flatMap.1 he
  unfold RowCell.stores at he
  cases b1 with
  | true =>
      split at he
      · rw [List.mem_singleton.1 he]
        rfl
      · simp at he
  | false =>
      rw [if_neg (by simp)] at he
      split at he
      · rw [List.mem_singleton.1 he]
        rfl
      · cases he

/-! ### The operations -/

/-- What is stored, and `msync` of the file, where it succeeds. -/
def synced (env : Platform) (s : Rtu) (region : FlashWord → Bool) (es : List FlashAccess) :
    List FlashAccess :=
  es ++ if env.msync s.msyncs then [.sync region] else []

/-- `map_item_remap`. -/
def mapItemRemapAccesses (env : Platform) (wellNum : Nat) (wellType : UInt16) (s : Rtu) :
    List FlashAccess :=
  if wellNum < 1 ∨ wellNum - 1 > maxWellNum then []
  else
    match getMap00Path env wellType with
    | none => []
    | some path =>
      let xb := s.map.xBase wellNum
      let es := .store (.two xb) wellType :: (fileCells env path).flatMap (·.stores xb false true)
      if (ramMapFlash1ValueInit env xb (yBase wellNum) false true path false
          (s.map.setFlash2 wellNum 0 wellType)).1 = some 0 then
        synced env s FlashWord.inTwo es
      else es

/-- `map_map_fun_write`. -/
def mapMapFunWriteAccesses (env : Platform) (v : UInt16) (w addr : Nat) (s : Rtu) :
    List FlashAccess :=
  if addr = mapChangeWellType then mapItemRemapAccesses env w v s
  else if mapGetTimeHour ≤ addr ∧ addr ≤ mapGetTimeDay then []
  else if addr = mapConfig1 then []
  else if addr = mapConfig2ElecInterv ∨ addr = mapConfig2ActInterv then
    synced env s FlashWord.inTwo [.store (.two (s.map.xBase w + addr)) v]
  else if mapGetDO0 ≤ addr ∧ addr < mapGetDO0 + 8 then
    synced env s FlashWord.inTwo [.store (.two (s.map.xBase 1 + addr)) v]
  else []

/-- The switch of the write loop on one cell. -/
def writeCellAccesses (env : Platform) (w i : Nat) (v : UInt16) (s : Rtu) : List FlashAccess :=
  match s.map.ramXMapType (s.map.xBase w + i) with
  | .flash1 => synced env s FlashWord.inOne [.store (.one i) v]
  | .flash2 => synced env s FlashWord.inTwo [.store (.two (s.map.xBase w + i)) v]
  | .sys => mapMapFunWriteAccesses env v w i s
  | _ => []

/-- The write loop. -/
def writeCellsAccesses (env : Platform) (w : Nat) : Nat → List UInt16 → Rtu → List FlashAccess
  | _, [], _ => []
  | i, v :: vs, s =>
    writeCellAccesses env w i v s ++
      if (writeCell env w i v s).1 then
        writeCellsAccesses env w (i + 1) vs (writeCell env w i v s).2
      else []

/-- `zigbee_write_registers`. -/
def zigbeeWriteRegistersAccesses (env : Platform) (buf : Nat → UInt16) (len wellNum addr : Int)
    (s : Rtu) : List FlashAccess :=
  if cellArgsOk s.map len wellNum addr then
    writeCellsAccesses env wellNum.toNat addr.toNat ((List.range len.toNat).map buf) s
  else []

/-- A turn of the loop of `map_modbus_write_registers`. -/
def WriteLoop.turnAccesses (env : Platform) (buf : Nat → UInt16) (bigL : Bool) (w : Nat)
    (c : WriteLoop) : List FlashAccess :=
  let m := c.rtu.map
  let x := m.cellOf w c.i
  match m.ramYMapType (yBase w + c.i) with
  | .ram =>
    if m.ramXMapRw (m.xBase w + x) ≠ .rw then []
    else zigbeeWriteRegistersAccesses env (fun _ => orderWord bigL (buf c.p)) 1 w x c.rtu
  | _ => []

/-- Its turns. -/
def modbusWriteAccesses (env : Platform) (buf : Nat → UInt16) (bigL : Bool) (w addr : Nat)
    (s : Rtu) : Nat → List FlashAccess
  | 0 => []
  | n + 1 => modbusWriteAccesses env buf bigL w addr s n ++
      (modbusWriteLoop env buf bigL w addr s n).turnAccesses env buf bigL w

/-- `map_modbus_write_registers`. -/
def mapModbusWriteRegistersAccesses (env : Platform) (buf : Nat → UInt16) (len wellNum addr : Int)
    (bigL : Bool) (s : Rtu) : List FlashAccess :=
  if registerArgsOk len wellNum addr then
    modbusWriteAccesses env buf bigL wellNum.toNat addr.toNat s len.toNat
  else []

/-- `reset_flash1_to_default`. -/
def resetFlash1ToDefaultAccesses (env : Platform) (s : Rtu) : List FlashAccess :=
  let es := (fileCells env pathMap1).flatMap (·.stores 0 true false)
  if (ramMapFlash1ValueInit env 0 0 true false pathMap1 false s.map).1 = some 0 then
    synced env s FlashWord.inOne es
  else es

/-- What an operation does to the flash files. The boot has its own list. -/
def LifeOp.accesses (env : Platform) (s : Rtu) : LifeOp → List FlashAccess
  | .map (.modbusWrite buf len wellNum addr bigL) =>
      mapModbusWriteRegistersAccesses env buf len wellNum addr bigL s
  | .map (.internalWrite buf len wellNum addr) =>
      zigbeeWriteRegistersAccesses env buf len wellNum addr s
  | .map (.remap wellNum wellType) => mapItemRemapAccesses env wellNum wellType s
  | .map (.mset _ _ _ _) | .map .reboot | .map .elsewhere => []
  | .factoryReset => resetFlash1ToDefaultAccesses env s
  | .dataWrite _ _ _ _ _ => []

/-! ### What they come to -/

/-- `msync` succeeds and all files load; the file that unlisted types fall back on is the one
listed for type 1, if there is one. -/
structure Platform.Reliable (env : Platform) : Prop where
  synced : ∀ n, env.msync n = true
  common : Loads env pathMap1
  listed : ∀ t path, getMap00Path env t = some path → Loads env path
  fallback : Loads env pathMap001
  default : ∀ path, getMap00Path env 1 = some path → path = pathMap001

section Reliable

variable {env : Platform} (hrel : env.Reliable)

include hrel

theorem synced_eq (s : Rtu) (region : FlashWord → Bool) (es : List FlashAccess) :
    synced env s region es = es ++ [.sync region] := by
  unfold synced
  rw [if_pos (hrel.synced _)]

/-- A change of type is refused, or stores the type and its rows and syncs them all. -/
theorem mapItemRemap_accesses (w : Nat) (t : UInt16) (s : Rtu) :
    (mapItemRemapAccesses env w t s = [] ∧ (mapItemRemap env w t s).2 = s) ∨
    ∃ es, (∀ e ∈ es, e.StoresIn FlashWord.inTwo) ∧
      mapItemRemapAccesses env w t s =
        .store (.two (s.map.xBase w)) t :: es ++ [.sync FlashWord.inTwo] ∧
      (mapItemRemap env w t s).2.map.flash =
        memAfter s.map.flash (.store (.two (s.map.xBase w)) t :: es) := by
  unfold mapItemRemapAccesses mapItemRemap
  by_cases hw : w < 1 ∨ w - 1 > maxWellNum
  · exact .inl ⟨if_pos hw, by rw [if_pos hw]⟩
  rw [if_neg hw, if_neg hw]
  cases hpath : getMap00Path env t with
  | none => exact .inl ⟨rfl, rfl⟩
  | some path =>
      obtain ⟨m, hload⟩ := (hrel.listed t path hpath).run (s.map.xBase w) (yBase w) false true false
        (s.map.setFlash2 w 0 t)
      have hm : m = (fileCells env path).foldl (loadCell (s.map.xBase w) (yBase w) false true)
          (s.map.setFlash2 w 0 t) := (congrArg Prod.snd hload).symm.trans ramMapFlash1ValueInit_snd
      refine .inr ⟨(fileCells env path).flatMap (·.stores (s.map.xBase w) false true),
        storesIn_flatMap false, ?_, ?_⟩
      · dsimp only
        rw [if_pos (congrArg Prod.fst hload), synced_eq hrel]
      · have hflash : m.flash = memAfter s.map.flash (.store (.two (s.map.xBase w)) t ::
            (fileCells env path).flatMap (·.stores (s.map.xBase w) false true)) := by
          rw [hm, foldl_loadCell_flash, MapT.flash_setFlash2]
          rfl
        have hrun : ramMapFlash1ValueInit env ((s.onMap (·.setFlash2 w 0 t)).map.xBase w) (yBase w)
            false true path false (s.onMap (·.setFlash2 w 0 t)).map = (some 0, m) := hload
        dsimp only
        rw [← hflash, hrun]
        split
        · rename_i m' heq
          obtain rfl : m = m' := congrArg Prod.snd heq
          split <;>
            · rename_i s' hsync
              obtain ⟨-, rfl⟩ := Rtu.msync_eq hsync
              rfl
        · rename_i hne heq
          cases heq
          exact (hne rfl).elim

/-- The factory reset stores its rows and syncs them all. -/
theorem resetFlash1ToDefault_accesses (s : Rtu) :
    ∃ es, (∀ e ∈ es, e.StoresIn FlashWord.inOne) ∧
      resetFlash1ToDefaultAccesses env s = es ++ [.sync FlashWord.inOne] ∧
      (resetFlash1ToDefault env s).2.map.flash = memAfter s.map.flash es := by
  refine ⟨(fileCells env pathMap1).flatMap (·.stores 0 true false), storesIn_flatMap true, ?_, ?_⟩
  · unfold resetFlash1ToDefaultAccesses
    dsimp only
    rw [if_pos (ramMapFlash1ValueInit_fst_iff.2 hrel.common), synced_eq hrel]
  · rw [resetFlash1ToDefault_map, foldl_loadCell_flash]

omit hrel in
theorem storeFun_flash (wf w i : Nat) (v : UInt16) (s : Rtu) :
    (storeFun env wf w i v s).map.flash
      = Function.update s.map.flash (.two (s.map.xBase wf + i)) v := by
  rw [storeFun_map, MapT.flash_setRamX, MapT.flash_setFlash2]

/-- The actions of the function-mapped cells other than the well type's. -/
theorem mapMapFunWrite_accesses {w i : Nat} (v : UInt16) (s : Rtu) (h0 : i ≠ mapChangeWellType) :
    (mapMapFunWriteAccesses env v w i s = [] ∧
      ∀ v' s', mapMapFunWrite env v w i s = some (v', s') → s'.map.flash = s.map.flash) ∨
    ∃ a v' s', a.inTwo = true ∧
      mapMapFunWriteAccesses env v w i s = [.store a v, .sync FlashWord.inTwo] ∧
      mapMapFunWrite env v w i s = some (v', s') ∧
      s'.map.flash = Function.update s.map.flash a v := by
  unfold mapMapFunWriteAccesses mapMapFunWrite
  rw [if_neg h0, if_neg h0]
  split_ifs with htime hreset hinterv hdo hhistory
  · exact .inl ⟨rfl, fun v' s' h => by cases h; rfl⟩
  · refine .inl ⟨rfl, fun v' s' h => ?_⟩
    have hs : (rtuResetFlash1 v s).2 = s' := congrArg Prod.snd (Option.some.inj h)
    rw [← hs, rtuResetFlash1_map]
  · exact .inr ⟨_, _, _, rfl, synced_eq hrel _ _ _, rfl, storeFun_flash _ _ _ _ _⟩
  · refine .inr ⟨_, _, _, rfl, synced_eq hrel _ _ _, rfl, ?_⟩
    rw [storeFun_flash, gpioSetDo_map]
  · exact .inl ⟨rfl, fun v' s' h => by cases h; rfl⟩
  · exact .inl ⟨rfl, fun v' s' h => by cases h⟩

/-- **One store at a time.** A write of a cell never fails here; it leaves the flash, or stores one
word and syncs it, or it is a change of type. -/
theorem writeCell_accesses (w i : Nat) (v : UInt16) (s : Rtu) :
    (writeCell env w i v s).1 = true ∧
    ((writeCellAccesses env w i v s = [] ∧
        (writeCell env w i v s).2.map.flash = s.map.flash) ∨
      (∃ a region, region a = true ∧
        writeCellAccesses env w i v s = [.store a v, .sync region] ∧
        (writeCell env w i v s).2.map.flash = Function.update s.map.flash a v) ∨
      (writeCellAccesses env w i v s = mapItemRemapAccesses env w v s ∧
        (writeCell env w i v s).2.map.flash = (mapItemRemap env w v s).2.map.flash)) := by
  cases hk : s.map.ramXMapType (s.map.xBase w + i) with
  | flash1 =>
      rw [writeCell_flash1 hk]
      refine ⟨hrel.synced _, .inr (.inl ⟨.one i, FlashWord.inOne, rfl, ?_, ?_⟩)⟩
      · simp only [writeCellAccesses, hk, synced_eq hrel, List.cons_append, List.nil_append]
      · simp [hrel.synced]
  | flash2 =>
      rw [writeCell_flash2 hk]
      refine ⟨hrel.synced _, .inr (.inl ⟨.two (s.map.xBase w + i), FlashWord.inTwo, rfl, ?_, ?_⟩)⟩
      · simp only [writeCellAccesses, hk, synced_eq hrel, List.cons_append, List.nil_append]
      · simp [hrel.synced]
  | sys =>
      simp only [writeCell, writeCellAccesses, hk]
      by_cases h0 : i = mapChangeWellType
      · subst h0
        rw [mapMapFunWrite_change, mapMapFunWriteAccesses, if_pos rfl]
        exact ⟨rfl, .inr (.inr ⟨rfl, rfl⟩)⟩
      · obtain ⟨hes, hflash⟩ | ⟨a, v', s', ha, hes, hwrite, hflash⟩ :=
          mapMapFunWrite_accesses hrel v s h0
        · refine ⟨by split <;> rfl, .inl ⟨hes, ?_⟩⟩
          split
          · rename_i v' s' hwrite
            exact hflash v' s' hwrite
          · rfl
        · rw [hwrite]
          exact ⟨rfl, .inr (.inl ⟨a, FlashWord.inTwo, ha, hes, hflash⟩)⟩
  | _ => simp [writeCell, writeCellAccesses, hk]

end Reliable

theorem plainFiles_listed {t : UInt16} {path : List Char}
    (h : getMap00Path plainFiles t = some path) : path = pathMap001 ∨ path = "/b".toList := by
  have hread : plainFiles.readFile pathMap0 = some "1,/usr/share/map_001.csv\n2,/b".toList := by
    decide
  have hwords : scanWords "1,/usr/share/map_001.csv\n2,/b".toList =
      ["1,/usr/share/map_001.csv".toList, "2,/b".toList] := by decide +kernel
  have h1 : parseMap0 "1,/usr/share/map_001.csv".toList = some (1, pathMap001) := by decide +kernel
  have h2 : parseMap0 "2,/b".toList = some (2, "/b".toList) := by decide +kernel
  simp only [getMap00Path, hread, Option.bind_eq_bind, Option.bind_some, hwords, findType, h1,
    h2] at h
  split at h
  · exact .inl (Option.some.inj h).symm
  · split at h
    · exact .inr (Option.some.inj h).symm
    · cases h

theorem plainFiles_reliable : plainFiles.Reliable where
  synced := fun _ => rfl
  common := ⟨"0,40001,1,RW,SYS\n3,40004,118,WR,FLASH1".toList, by decide, by decide +kernel⟩
  listed := by
    intro t path h
    rcases plainFiles_listed h with rfl | rfl
    · exact ⟨"300,40301,7,RW,FLASH2".toList, by decide, by decide +kernel⟩
    · exact ⟨"300,40302,0,RW".toList, by decide, by decide +kernel⟩
  fallback := ⟨"300,40301,7,RW,FLASH2".toList, by decide, by decide +kernel⟩
  default := by
    intro path h
    have h1 : getMap00Path plainFiles 1 = some pathMap001 := by decide +kernel
    exact Option.some.inj (h.symm.trans h1)

end RtuA118
