import RtuA118.Map.Integrity
import RtuA118.Map.Snapshot

/-!
# RtuA118.Map.Restart

A restart over the flash files that a run has left.

The first boot may create the flash files, the second finds both. What the second has
to read back are the type cells, for they choose the files it loads, and everything else
follows: `boot_tables` gives the tables of any boot by the types it started from,
`boot_type` the type cells it leaves.

Writes that miss the type cells keep both (`SameConfig`). One thing is left that can
come between the two boots: a new second flash takes the defaults of a type file's
rows, and such a row may name cell 0 (`TypesStand` excludes it).
-/

namespace RtuA118

open Run (Steps guarded)

/-! ### Writes beside the type cells -/

/-- Writes to the well's cell 0 reach the type in the second flash. -/
def MapT.TypeStored (m : MapT) (w : Nat) : Prop :=
  m.ramXMapType (m.xBase w) = .sys ∨ m.ramXMapType (m.xBase w) = .flash2

/-- The mapping tables and the type cells are as before. -/
structure SameConfig (m m' : MapT) : Prop extends SameMapping m m' where
  record : m'.ramXMapRecord = m.ramXMapRecord
  types : ∀ k, m'.flash2 (k * m.xMax) = m.flash2 (k * m.xMax)

namespace SameConfig

theorem refl (m : MapT) : SameConfig m m := ⟨.refl m, rfl, fun _ => rfl⟩

theorem trans {m m' m'' : MapT} (h : SameConfig m m') (h' : SameConfig m' m'') :
    SameConfig m m'' where
  toSameMapping := h.toSameMapping.trans h'.toSameMapping
  record := h'.record.trans h.record
  types := fun k => (h.xMax ▸ h'.types k).trans (h.types k)

theorem of_tables {m m' : MapT} (h : m'.tables = m.tables)
    (hf : ∀ k, m'.flash2 (k * m.xMax) = m.flash2 (k * m.xMax)) : SameConfig m m' :=
  ⟨.of_tables h, congrArg Tables.ramXMapRecord h, hf⟩

theorem setRamY {m : MapT} {w y : Nat} {v : UInt16} (h : m.ramYMapType (yBase w + y) ≠ .ram) :
    SameConfig m (m.setRamY w y v) := ⟨.setRamY h, rfl, fun _ => rfl⟩

theorem typeStored {m m' : MapT} {w : Nat} (h : SameConfig m m') (ht : m'.TypeStored w) :
    m.TypeStored w := by
  unfold MapT.TypeStored at ht ⊢
  rwa [h.cellType, h.toSameMapping.xBase] at ht

end SameConfig

/-- A type cell is no other cell of a block. -/
theorem mul_ne_xBase_add {m : MapT} {k w i : Nat} (hi : i < m.xMax) (h0 : i ≠ 0) :
    k * m.xMax ≠ m.xBase w + i := by
  intro heq
  have hmod := congrArg (· % m.xMax) heq
  simp only [Nat.mul_mod_left, xBase_add_mod hi] at hmod
  exact h0 hmod.symm

section Writes

variable {env : Platform} {w : Nat} {v : UInt16} {s : Rtu}

/-- A cell of another kind leaves the second flash. -/
theorem writeCell_flash2_of_kind {i : Nat} (hs : s.map.ramXMapType (s.map.xBase w + i) ≠ .sys)
    (hf : s.map.ramXMapType (s.map.xBase w + i) ≠ .flash2) :
    (writeCell env w i v s).2.map.flash2 = s.map.flash2 := by
  cases ht : s.map.ramXMapType (s.map.xBase w + i) with
  | sys => exact absurd ht hs
  | flash2 => exact absurd ht hf
  | flash1 =>
      rw [writeCell_flash1 ht]
      dsimp only [Rtu.onMap_map]
      split <;> rfl
  | _ => simp [writeCell, ht, MapT.setRamX]

theorem writeCell_sameConfig {i : Nat} (hi : i < s.map.xMax)
    (h0 : i = 0 → ¬ s.map.TypeStored w) : SameConfig s.map (writeCell env w i v s).2.map := by
  by_cases hi0 : i = 0
  · subst hi0
    obtain ⟨hs, hf⟩ := not_or.1 (h0 rfl)
    exact .of_tables (writeCell_tables_of_ne fun h => absurd h hs) fun k => by
      rw [writeCell_flash2_of_kind hs hf]
  · refine .of_tables (writeCell_tables_of_ne fun _ => hi0) fun k => ?_
    exact writeCell_flash2_of_ne (fun _ => hi0) (mul_ne_xBase_add hi hi0)
      fun _ _ => mul_ne_xBase_add hi hi0

theorem writeCells_sameConfig : ∀ {vs : List UInt16} {i : Nat} {s : Rtu},
    i + vs.length ≤ s.map.xMax → (i = 0 → ¬ s.map.TypeStored w) →
    SameConfig s.map (writeCells env w i vs s).2.map := by
  intro vs
  induction vs with
  | nil => intro i s _ _; exact .refl _
  | cons v vs ih =>
      intro i s hi h0
      rw [List.length_cons] at hi
      have hcell : SameConfig s.map (writeCell env w i v s).2.map :=
        writeCell_sameConfig (by omega) h0
      rw [writeCells_cons]
      split
      · refine hcell.trans (ih ?_ fun h => absurd h (Nat.succ_ne_zero i))
        rw [hcell.xMax]
        omega
      · exact hcell

/-- The internal write starts at a stored type. -/
def MapT.StoresTypeCell (m : MapT) (len wellNum addr : Int) : Prop :=
  cellArgsOk m len wellNum addr = true ∧ addr.toNat = mapChangeWellType ∧
    m.TypeStored wellNum.toNat

/-- The register leads to a stored type. -/
def MapT.LeadsToTypeCell (m : MapT) (w y : Nat) : Prop :=
  m.ramYMapType (yBase w + y) = .ram ∧ m.cellOf w y = mapChangeWellType ∧
    m.ramXMapRw (m.xBase w) = .rw ∧ m.TypeStored w

/-- The external write reaches a stored type. -/
def MapT.WritesTypeCell (m : MapT) (len wellNum addr : Int) : Prop :=
  registerArgsOk len wellNum addr = true ∧
    ∃ k < len.toNat, m.LeadsToTypeCell wellNum.toNat (addr.toNat + k)

variable {buf : Nat → UInt16} {bigL : Bool} {len wellNum addr : Int}

theorem zigbeeWriteRegisters_sameConfig (hl : ¬ s.map.StoresTypeCell len wellNum addr) :
    SameConfig s.map (zigbeeWriteRegisters env buf len wellNum addr s).2.map := by
  unfold zigbeeWriteRegisters
  split
  · rename_i hok
    obtain ⟨-, -, haddr, hlen, hend⟩ := cellArgsOk_iff.1 hok
    refine writeCells_sameConfig ?_ fun h0 ht => hl ⟨hok, h0, ht⟩
    simp only [List.length_map, List.length_range]
    omega
  · exact .refl _

theorem WriteLoop.turn_sameConfig {c : WriteLoop} (hw : 1 ≤ w) (hw8 : w ≤ maxWellNum)
    (hl : ¬ c.rtu.map.LeadsToTypeCell w c.i) :
    SameConfig c.rtu.map (c.turn env buf bigL w).rtu.map := by
  unfold WriteLoop.turn
  dsimp only
  split
  · rename_i hnull
    exact .setRamY (by simp [hnull])
  · rename_i hram
    split
    · exact .refl _
    · rename_i hrw
      dsimp only
      rw [zigbeeWriteRegisters_one hw hw8]
      split
      · rename_i hi
        refine writeCell_sameConfig hi fun h0 ht => hl ⟨hram, h0, ?_, ht⟩
        rw [h0] at hrw
        exact not_not.1 hrw
      · exact .refl _
  · exact .refl _

theorem SameConfig.leadsToTypeCell {m m' : MapT} {y : Nat} (h : SameConfig m m')
    (hl : m'.LeadsToTypeCell w y) : m.LeadsToTypeCell w y := by
  obtain ⟨hr, hc, hrw, ht⟩ := hl
  rw [h.regType] at hr
  rw [h.toSameMapping.cellOf hr] at hc
  rw [h.cellRw, h.toSameMapping.xBase] at hrw
  exact ⟨hr, hc, hrw, h.typeStored ht⟩

theorem modbusWriteLoop_sameConfig {addr : Nat} (hw : 1 ≤ w) (hw8 : w ≤ maxWellNum) (n : Nat)
    (hl : ∀ k < n, ¬ s.map.LeadsToTypeCell w (addr + k)) :
    SameConfig s.map (modbusWriteLoop env buf bigL w addr s n).rtu.map := by
  induction n with
  | zero => exact .refl _
  | succ n ih =>
      have hsame := ih fun k hk => hl k (Nat.lt_succ_of_lt hk)
      rw [modbusWriteLoop]
      refine hsame.trans (WriteLoop.turn_sameConfig hw hw8 fun hlead => ?_)
      rw [modbusWriteLoop_i] at hlead
      exact hl n (Nat.lt_succ_self n) (hsame.leadsToTypeCell hlead)

theorem mapModbusWriteRegisters_sameConfig (hl : ¬ s.map.WritesTypeCell len wellNum addr) :
    SameConfig s.map (mapModbusWriteRegisters env buf len wellNum addr bigL s).2.map := by
  unfold mapModbusWriteRegisters modbusWriteLanded
  split
  · rename_i hok
    obtain ⟨hw8, hw, -⟩ := registerArgsOk_iff.1 hok
    exact modbusWriteLoop_sameConfig (by omega) (Int.toNat_le.2 hw8) _
      fun k hk hlead => hl ⟨hok, k, hk, hlead⟩
  · exact .refl _

theorem zigbeeWriteRegistersMset_sameConfig (s : Rtu) (v : UInt16) (len wellNum addr : Int) :
    SameConfig s.map (zigbeeWriteRegistersMset v len wellNum addr s).2.map := by
  unfold zigbeeWriteRegistersMset
  split <;> exact .of_tables rfl fun _ => rfl

end Writes

/-- The step is a write, and not one to a well type. -/
def MapOp.LeavesTypes (s : Rtu) : MapOp → Prop
  | .modbusWrite _ len wellNum addr _ => ¬ s.map.WritesTypeCell len wellNum addr
  | .internalWrite _ len wellNum addr => ¬ s.map.StoresTypeCell len wellNum addr
  | .mset _ _ _ _ | .elsewhere => True
  | .remap _ _ | .reboot => False

theorem MapStep.sameConfig {env : Platform} {s s' : Rtu} {op : MapOp} (h : MapStep env s op s')
    (hop : op.LeavesTypes s) : SameConfig s.map s'.map := by
  cases h with
  | modbusWrite => exact mapModbusWriteRegisters_sameConfig hop
  | internalWrite => exact zigbeeWriteRegisters_sameConfig hop
  | mset => exact zigbeeWriteRegistersMset_sameConfig _ _ _ _ _
  | remap => exact hop.elim
  | reboot => exact hop.elim
  | elsewhere hm => exact hm ▸ .refl _

/-- A run of such writes. -/
theorem steps_sameConfig {env : Platform} {s s' : Rtu}
    (h : Steps (guarded (fun s op => op.LeavesTypes s) (MapStep env)) s s') :
    SameConfig s.map s'.map := by
  induction h with
  | refl => exact .refl _
  | tail _ hstep ih =>
      obtain ⟨op, hop, hstep⟩ := hstep
      exact ih.trans (hstep.sameConfig hop)

/-! ### What a boot leaves -/

/-- The type cell after a well's file, for one that held `t`: an unlisted type is
replaced, and in a new flash the file's default for cell 0 is stored over it. -/
def typeLeftBy (env : Platform) (b2 : Bool) (t : UInt16) : UInt16 :=
  let t' := if (getMap00Path env t).isSome then t else 1
  if b2 then lastDefault false 0 (fileCells env (bootPath env t)) t' else t'

section Boot

variable {env : Platform} {b2 : Bool}

theorem runEvents_typeEvents_type {k : Nat} {t : UInt16} {m : MapT}
    (ht : m.flash2 (k * m.xMax) = t) :
    (runEvents (typeEvents env b2 k t) m).flash2 (k * m.xMax) = typeLeftBy env b2 t := by
  -- the rows over whatever the choice of the file has left in the cell
  have hrows : ∀ (m1 : MapT) (path : List Char), m1.xMax = m.xMax →
      (runEvents (fileEvents env k false b2 path) m1).flash2 (k * m.xMax) =
        if b2 then lastDefault false 0 (fileCells env path) (m1.flash2 (k * m.xMax))
        else m1.flash2 (k * m.xMax) := by
    intro m1 path hx
    rw [runEvents_fileEvents, hx]
    cases b2 with
    | false => rw [foldl_loadCell_flash2, if_neg Bool.false_ne_true]
    | true =>
        rw [if_pos rfl]
        exact foldl_loadCell_lastDefault (x := 0)
  unfold typeEvents typeLeftBy bootPath
  cases hp : getMap00Path env t with
  | some path => simp [hrows m path rfl, ht]
  | none =>
      have hset : (LoadEvent.run m (.defaultType k)).flash2 (k * m.xMax) = 1 :=
        Function.update_self _ _ _
      have hrun := hrows (LoadEvent.run m (.defaultType k)) pathMap001 rfl
      rw [hset] at hrun
      simpa using hrun

theorem runEvents_typeEvents_tables {k : Nat} {t : UInt16} {m : MapT} :
    (runEvents (typeEvents env b2 k t) m).tables =
      m.tables.loadCells (k * m.xMax) (k * maxRegisterNum) (fileCells env (bootPath env t)) := by
  unfold typeEvents bootPath
  cases getMap00Path env t with
  | some path =>
      dsimp only
      rw [runEvents_fileEvents, tables_foldl_loadCell]
      rfl
  | none =>
      dsimp only
      rw [runEvents_cons, runEvents_fileEvents, tables_foldl_loadCell]
      rfl

/-- The wells' files, one after the other, each with rows inside its block. -/
theorem runEvents_wells {T : Nat → UInt16} : ∀ {ks : List Nat} {m : MapT}, ks.Nodup → 0 < m.xMax →
    (∀ k ∈ ks, m.flash2 (k * m.xMax) = T k) →
    (∀ k ∈ ks, ∀ c ∈ fileCells env (bootPath env (T k)), c.x.toNat < m.xMax) →
    (runEvents (ks.flatMap fun k => typeEvents env b2 k (T k)) m).tables
        = ks.foldl (Tables.loadType env T) m.tables ∧
      (∀ k ∈ ks, (runEvents (ks.flatMap fun k => typeEvents env b2 k (T k)) m).flash2 (k * m.xMax)
        = typeLeftBy env b2 (T k)) ∧
      ∀ j, j ∉ ks →
        (runEvents (ks.flatMap fun k => typeEvents env b2 k (T k)) m).flash2 (j * m.xMax)
          = m.flash2 (j * m.xMax) := by
  intro ks
  induction ks with
  | nil => intro m _ _ _ _; exact ⟨rfl, fun k hk => absurd hk List.not_mem_nil, fun _ _ => rfl⟩
  | cons k ks ih =>
      intro m hnd hx ht hin
      obtain ⟨hk, hnd⟩ := List.nodup_cons.1 hnd
      have hxm := runEvents_xMax (typeEvents env b2 k (T k)) m
      -- a well's rows leave the type words of the others, where they stay inside it
      have hother : ∀ j, j ≠ k → (runEvents (typeEvents env b2 k (T k)) m).flash2 (j * m.xMax)
          = m.flash2 (j * m.xMax) := fun j hj =>
        runEvents_typeEvents_flash2 hx hj (hin k List.mem_cons_self)
      have hown : (runEvents (typeEvents env b2 k (T k)) m).flash2 (k * m.xMax)
          = typeLeftBy env b2 (T k) := runEvents_typeEvents_type (ht k List.mem_cons_self)
      have htab : (runEvents (typeEvents env b2 k (T k)) m).tables = m.tables.loadType env T k :=
        runEvents_typeEvents_tables
      obtain ⟨htabs, hleft, hkeep⟩ := ih hnd (hxm ▸ hx)
        (fun j hj => by
          rw [hxm, hother j fun h => hk (h ▸ hj)]
          exact ht j (List.mem_cons_of_mem _ hj))
        (fun j hj => by
          rw [hxm]
          exact hin j (List.mem_cons_of_mem _ hj))
      rw [hxm] at hleft hkeep
      rw [List.flatMap_cons, runEvents_append, List.foldl_cons]
      refine ⟨by rw [htabs, htab], fun j hj => ?_, fun j hj => ?_⟩
      · rcases List.mem_cons.1 hj with rfl | hj
        · rw [hkeep j hk, hown]
        · exact hleft j hj
      · obtain ⟨hjk, hjs⟩ := not_or.1 (fun h => hj (List.mem_cons.2 h))
        rw [hkeep j hjs, hother j hjk]

theorem runEvents_common_tables {b1 : Bool} {xMax : Nat} {flash1 flash2 : Nat → UInt16} :
    (runEvents (commonEvents env b1 b2) (emptyMap xMax flash1 flash2)).tables
      = commonTables env xMax := by
  rw [commonEvents, runEvents_append, runEvents_fileEvents, runEvents_copy, foldl_copyWell_tables,
    tables_foldl_loadCell, Nat.zero_mul, Nat.zero_mul]
  rfl

variable {f1 f2 : Option FlashFile} {n : Nat} {m : MapT}

/-- The types a boot has loaded. -/
theorem boot_spec (h : mapInit env f1 f2 n = some m) (hfit : LoadFits env m.xMax f1 f2) :
    m.tables = (List.range maxWellNum).foldl (Tables.loadType env (typeAtBoot env m.xMax f1 f2))
        (commonTables env m.xMax) ∧
      ∀ k < maxWellNum, m.flash2 (k * m.xMax) =
        typeLeftBy env (flashOpen (m.xMax * maxWellNum) f2).1 (typeAtBoot env m.xMax f1 f2 k) := by
  have hrun := mapInit_runEvents h
  obtain ⟨hpos, -⟩ := bootEvents_split h
  have hcells := hfit.typeCell h
  obtain ⟨x, hx⟩ : ∃ x, x = m.xMax := ⟨_, rfl⟩
  rw [← hx] at hrun hpos hcells ⊢
  unfold bootEvents at hrun
  dsimp only at hrun
  obtain ⟨m0, hm0⟩ : ∃ m0, m0 = runEvents (commonEvents env (flashOpen flash1MaxLen f1).1
    (flashOpen (x * maxWellNum) f2).1) (bootStart x f1 f2) := ⟨_, rfl⟩
  have hx0 : m0.xMax = x := by
    rw [hm0, runEvents_xMax]
    rfl
  have htab0 : m0.tables = commonTables env x := by
    rw [hm0]
    exact runEvents_common_tables
  have ht0 : ∀ k ∈ List.range maxWellNum, m0.flash2 (k * m0.xMax) = typeAtBoot env x f1 f2 k := by
    intro k hk
    rw [hx0, hm0]
    exact common_type hpos (List.mem_range.1 hk)
  have hin0 : ∀ k ∈ List.range maxWellNum,
      ∀ c ∈ fileCells env (bootPath env (typeAtBoot env x f1 f2 k)), c.x.toNat < m0.xMax :=
    fun k hk c hc => hx0 ▸ hcells k (List.mem_range.1 hk) c hc
  rw [runEvents_append, ← hm0, wellsEvents_eq List.nodup_range (hx0 ▸ hpos) ht0 hin0] at hrun
  obtain ⟨htab, htype, -⟩ := runEvents_wells List.nodup_range (hx0 ▸ hpos) ht0 hin0
  rw [hx0] at htype
  rw [hrun, htab, htab0]
  exact ⟨rfl, fun k hk => htype k (List.mem_range.2 hk)⟩

end Boot

/-! ### A boot over existing flash files -/

/-- The file is there and its rows scan to the end. -/
def Loads (env : Platform) (path : List Char) : Prop :=
  ∃ text, env.readFile path = some text ∧
    (loadWords 0 0 false false (scanWords text) (emptyMap 0 (fun _ => 0) fun _ => 0)).1 = some 0

section Second

variable {env : Platform} {b1 b2 : Bool}

/-- Whether a load succeeds depends on the file alone. -/
theorem ramMapFlash1ValueInit_fst_iff {xb yb : Nat} {isFlash1 : Bool} {path : List Char}
    {m : MapT} : (ramMapFlash1ValueInit env xb yb b1 b2 path isFlash1 m).1 = some 0 ↔
      Loads env path := by
  unfold Loads
  cases hread : env.readFile path with
  | none => simp [ramMapFlash1ValueInit, hread]
  | some text =>
      have hfst :
          (loadWords 0 0 false false (scanWords text) (emptyMap 0 (fun _ => 0) fun _ => 0)).1
            = (loadWords xb yb b1 b2 (scanWords text) m).1 := loadWords_fst
      simp [ramMapFlash1ValueInit_of_readFile hread, hfst]

theorem ramMapFlash1ValueInit_loads {xb yb : Nat} {isFlash1 : Bool} {path : List Char}
    {m m' : MapT} (h : ramMapFlash1ValueInit env xb yb b1 b2 path isFlash1 m = (some 0, m')) :
    Loads env path :=
  ramMapFlash1ValueInit_fst_iff.1 (congrArg Prod.fst h)

theorem Loads.run {path : List Char} (h : Loads env path) (xb yb : Nat) (b1 b2 isFlash1 : Bool)
    (m : MapT) : ∃ m', ramMapFlash1ValueInit env xb yb b1 b2 path isFlash1 m = (some 0, m') :=
  ⟨_, Prod.ext (ramMapFlash1ValueInit_fst_iff.2 h) rfl⟩

/-- The files of the types that the wells' turns have started from are loaded. -/
theorem loadWells_loads {T : Nat → UInt16} : ∀ {ks : List Nat} {m m' : MapT}, ks.Nodup →
    0 < m.xMax → (∀ k ∈ ks, m.flash2 (k * m.xMax) = T k) →
    (∀ k ∈ ks, ∀ c ∈ fileCells env (bootPath env (T k)), c.x.toNat < m.xMax) →
    loadWells env b2 ks m = (some 0, m') → ∀ k ∈ ks, Loads env (bootPath env (T k)) := by
  intro ks
  induction ks with
  | nil => intro m m' _ _ _ _ _ k hk; cases hk
  | cons k ks ih =>
      intro m m' hnd hx ht hin h
      obtain ⟨hk, hnd⟩ := List.nodup_cons.1 hnd
      unfold loadWells at h
      split at h
      · rename_i m1 h1
        have hm1 := loadWell_events h1
        rw [ht k List.mem_cons_self] at hm1
        have hx1 : m1.xMax = m.xMax := by rw [hm1, runEvents_xMax]
        -- the well's own file is loaded by the type word it finds
        have hown : Loads env (bootPath env (T k)) := by
          have hpath := (wellTypePath_spec env k m).1
          rw [ht k List.mem_cons_self] at hpath
          rw [← hpath]
          exact ramMapFlash1ValueInit_loads h1
        have hrest := ih hnd (hx1 ▸ hx)
          (fun j hj => by
            have hjk : j ≠ k := fun h => hk (h ▸ hj)
            rw [hx1, hm1, runEvents_typeEvents_flash2 hx hjk (hin k List.mem_cons_self)]
            exact ht j (List.mem_cons_of_mem _ hj))
          (fun j hj => by
            rw [hx1]
            exact hin j (List.mem_cons_of_mem _ hj)) h
        intro j hj
        rcases List.mem_cons.1 hj with rfl | hj
        · exact hown
        · exact hrest j hj
      · rename_i hne
        exact (hne m' h).elim

theorem foldl_loadCell_flash1 {xb yb : Nat} {cs : List RowCell} {m : MapT} :
    (cs.foldl (loadCell xb yb false b2) m).flash1 = m.flash1 := by
  induction cs generalizing m with
  | nil => rfl
  | cons c cs ih =>
      rw [List.foldl_cons, ih]
      simp [loadCell]

theorem foldl_copyWell_flash1 {is : List Nat} {m : MapT} :
    (is.foldl (copyWell b2) m).flash1 = m.flash1 := by
  induction is generalizing m with
  | nil => rfl
  | cons i is ih =>
      rw [List.foldl_cons, ih]
      rfl

/-- The choice of a type file leaves the first flash. -/
theorem wellTypePath_flash1 (env : Platform) (k : Nat) (m : MapT) :
    (wellTypePath env k m).2.flash1 = m.flash1 := by
  unfold wellTypePath
  split <;> rfl

/-- Over an existing second flash a well's turn changes at most its type cell. -/
theorem loadWell_flash {k : Nat} {m m' : MapT} (h : loadWell env false k m = (some 0, m')) :
    m'.xMax = m.xMax ∧ m'.flash1 = m.flash1 ∧ ∀ a, a ≠ k * m.xMax → m'.flash2 a = m.flash2 a := by
  have hrun : ramMapFlash1ValueInit env (k * (wellTypePath env k m).2.xMax) (k * maxRegisterNum)
      false false (wellTypePath env k m).1 false (wellTypePath env k m).2 = (some 0, m') := h
  have hm := ramMapFlash1ValueInit_ok hrun
  obtain ⟨-, htab, hkeep⟩ := wellTypePath_spec env k m
  rw [if_neg Bool.false_ne_true] at hm
  refine ⟨?_, ?_, fun a ha => ?_⟩
  · rw [hm, foldl_loadCell_xMax]
    exact congrArg Tables.xMax htab
  · rw [hm, foldl_loadCell_flash1, wellTypePath_flash1]
  · rw [hm, foldl_loadCell_flash2, hkeep a ha]

/-- Types whose files load are loaded again, and beside the type cells both flashes stay. -/
theorem loadWells_again {T : Nat → UInt16} : ∀ {ks : List Nat} {m : MapT}, ks.Nodup → 0 < m.xMax →
    (∀ k ∈ ks, m.flash2 (k * m.xMax) = T k) → (∀ k ∈ ks, Loads env (bootPath env (T k))) →
    ∃ m', loadWells env false ks m = (some 0, m') ∧ m'.flash1 = m.flash1 ∧
      ∀ a, (∀ k, a ≠ k * m.xMax) → m'.flash2 a = m.flash2 a := by
  intro ks
  induction ks with
  | nil => intro m _ _ _ _; exact ⟨m, rfl, rfl, fun _ _ => rfl⟩
  | cons k ks ih =>
      intro m hnd hx ht hloads
      obtain ⟨hk, hnd⟩ := List.nodup_cons.1 hnd
      have hpath := (wellTypePath_spec env k m).1
      rw [ht k List.mem_cons_self] at hpath
      obtain ⟨m1, hrun⟩ := (hloads k List.mem_cons_self).run (k * (wellTypePath env k m).2.xMax)
        (k * maxRegisterNum) false false false (wellTypePath env k m).2
      rw [← hpath] at hrun
      have h1 : loadWell env false k m = (some 0, m1) := hrun
      obtain ⟨hx1, hf1, hf2⟩ := loadWell_flash h1
      obtain ⟨m', h', hf1', hf2'⟩ := ih (m := m1) hnd (hx1 ▸ hx)
        (fun j hj => by
          have hne : j * m.xMax ≠ k * m.xMax := fun heq =>
            hk (Nat.eq_of_mul_eq_mul_right hx heq ▸ hj)
          rw [hx1, hf2 _ hne]
          exact ht j (List.mem_cons_of_mem _ hj))
        fun j hj => hloads j (List.mem_cons_of_mem _ hj)
      refine ⟨m', ?_, hf1'.trans hf1, fun a ha => ?_⟩
      · rw [loadWells, h1]
        exact h'
      · rw [hf2' a (hx1 ▸ ha), hf2 a (ha k)]

/-- Every file that a boot has loaded loads. -/
theorem boot_loads {f1 f2 : Option FlashFile} {n : Nat} {m : MapT}
    (h : mapInit env f1 f2 n = some m) (hfit : LoadFits env m.xMax f1 f2) :
    ∀ k < maxWellNum, Loads env (bootPath env (typeAtBoot env m.xMax f1 f2 k)) := by
  obtain ⟨xMax, m1, hx, hx0, h1, h2⟩ := mapInit_ok h
  obtain ⟨xMax', hx', hm⟩ := mapInit_xMax h
  obtain rfl : xMax' = xMax := Option.some.inj (hx'.symm.trans hx)
  obtain ⟨hpos, -⟩ := bootEvents_split h
  have hcells := hfit.typeCell h
  rw [hm] at hpos hcells ⊢
  have hm1 := common_runEvents h1
  have hx1 : m1.xMax = xMax'.toNat := by
    rw [hm1, runEvents_xMax]
    rfl
  have ht1 : ∀ k ∈ List.range maxWellNum,
      m1.flash2 (k * m1.xMax) = typeAtBoot env xMax'.toNat f1 f2 k := by
    intro k hk
    rw [hx1, hm1]
    exact common_type hpos (List.mem_range.1 hk)
  exact fun k hk => loadWells_loads List.nodup_range (hx1 ▸ hpos) ht1
    (fun j hj c hc => hx1 ▸ hcells j (List.mem_range.1 hj) c hc) h2 k (List.mem_range.2 hk)

/-- A boot over existing flash files whose types load leaves what both hold beside the
type cells. -/
theorem mapLoad_again {T : Nat → UInt16} {xMax : UInt16} {f g : Nat → UInt16}
    (hx : getXYZMaxLen env = some xMax) (hx0 : xMax ≠ 0) (hcommon : Loads env pathMap1)
    (ht : ∀ k < maxWellNum, g (k * xMax.toNat) = T k)
    (hloads : ∀ k < maxWellNum, Loads env (bootPath env (T k))) :
    ∃ m', mapLoad env (some ⟨2 * flash1MaxLen, f⟩) (some ⟨2 * (xMax.toNat * maxWellNum), g⟩)
        = (some 0, some m') ∧
      m'.tables = (List.range maxWellNum).foldl (Tables.loadType env T)
        (commonTables env xMax.toNat) ∧
      m'.flash1 = f ∧ ∀ a, (∀ k, a ≠ k * xMax.toNat) → m'.flash2 a = g a := by
  have hpos : 0 < xMax.toNat := Nat.pos_of_ne_zero fun h0 => hx0 (UInt16.toNat_inj.1 h0)
  obtain ⟨m1, h1⟩ := hcommon.run 0 0 false false true (emptyMap xMax.toNat f g)
  obtain ⟨htab1, hflash2, hx1⟩ := commonTables_refines h1
  have hflash1 : m1.flash1 = f := by
    have hm := ramMapFlash1ValueInit_ok h1
    rw [if_pos rfl] at hm
    rw [hm, foldl_copyWell_flash1, foldl_loadCell_flash1]
    rfl
  have ht1 : ∀ k ∈ List.range maxWellNum, m1.flash2 (k * m1.xMax) = T k := by
    intro k hk
    rw [hx1, hflash2]
    exact ht k (List.mem_range.1 hk)
  obtain ⟨m', h', hf1', hf2'⟩ := loadWells_again List.nodup_range (hx1 ▸ hpos) ht1
    fun k hk => hloads k (List.mem_range.1 hk)
  refine ⟨m', ?_, ?_, hf1'.trans hflash1, fun a ha => ?_⟩
  · unfold mapLoad
    rw [hx]
    dsimp only
    rw [if_neg hx0]
    simp only [flashOpen, if_true, h1, ramMapFlash2ValueInit, h']
  · rw [loadWells_ok List.nodup_range (hx1 ▸ hpos) ht1 h', htab1]
  · rw [hf2' a (hx1 ▸ ha), hflash2]

end Second

/-! ### Restart -/

/-- Where the boot finds the second flash new, the default that a well's type file stores
in cell 0, if it stores one, is a type with that same file. -/
def TypesStand (env : Platform) (xMax : Nat) (flash1 flash2 : Option FlashFile) : Prop :=
  (flashOpen (xMax * maxWellNum) flash2).1 = true → ∀ k < maxWellNum,
    bootPath env (typeLeftBy env true (typeAtBoot env xMax flash1 flash2 k))
      = bootPath env (typeAtBoot env xMax flash1 flash2 k)

/-- With the default file listed for type 1, a replaced type has the file it fell back
on. -/
theorem TypesStand.bootPath_left {env : Platform} {xMax : Nat} {f1 f2 : Option FlashFile}
    (h : TypesStand env xMax f1 f2) (hdefault : getMap00Path env 1 = some pathMap001) {k : Nat}
    (hk : k < maxWellNum) :
    bootPath env (typeLeftBy env (flashOpen (xMax * maxWellNum) f2).1 (typeAtBoot env xMax f1 f2 k))
      = bootPath env (typeAtBoot env xMax f1 f2 k) := by
  cases hnew : (flashOpen (xMax * maxWellNum) f2).1 with
  | true => exact h hnew k hk
  | false =>
      unfold typeLeftBy bootPath
      cases hp : getMap00Path env (typeAtBoot env xMax f1 f2 k) with
      | some path => simp [hp]
      | none => simp [hdefault]

theorem foldl_loadType_congr {env : Platform} {T T' : Nat → UInt16} : ∀ {ks : List Nat}
    {tb : Tables}, (∀ k ∈ ks, bootPath env (T k) = bootPath env (T' k)) →
    ks.foldl (Tables.loadType env T) tb = ks.foldl (Tables.loadType env T') tb := by
  intro ks
  induction ks with
  | nil => intro tb _; rfl
  | cons k ks ih =>
      intro tb h
      have hk : tb.loadType env T k = tb.loadType env T' k := by
        unfold Tables.loadType
        rw [h k List.mem_cons_self]
      rw [List.foldl_cons, List.foldl_cons, hk]
      exact ih fun j hj => h j (List.mem_cons_of_mem _ hj)

/-- A kept mapping is the same in every well's tables. -/
theorem SameConfig.wellEq {m m' : MapT} (h : SameConfig m m') (w : Nat) :
    m'.tables.WellEq w m.tables := by
  have hbase := h.toSameMapping.xBase (w := w)
  refine ⟨fun i _ _ => ?_, fun i _ _ => ?_, fun i _ _ => ?_, fun j _ _ => ?_, fun j _ _ hr => ?_⟩
  · simp [hbase, h.cellType]
  · simp [hbase, h.record]
  · simp [hbase, h.cellRw]
  · simp [h.regType]
  · rw [MapT.tables_ramYMapType, h.regType] at hr
    exact h.index _ hr

/-- A cell of the flashes, read in one unit as in another that has its kind and its word. -/
theorem readCell_of_flash {env : Platform} {s s' : Rtu} {w i : Nat} {v : UInt16}
    (hkind : s'.map.ramXMapType (s'.map.xBase w + i) = s.map.ramXMapType (s.map.xBase w + i))
    (hflash : s.map.ramXMapType (s.map.xBase w + i) ∈ [MapKind.flash1, .flash2])
    (h1 : s'.map.flash1 i = s.map.flash1 i)
    (h2 : s'.map.flash2 (s'.map.xBase w + i) = s.map.flash2 (s.map.xBase w + i)) :
    readCell env s' v w i = readCell env s v w i := by
  unfold readCell
  rw [hkind]
  rcases List.mem_pair.1 hflash with hk | hk
  · rw [hk]
    exact h1
  · rw [hk]
    exact h2

/-- **Configuration survives a restart.** A boot within bounds over whatever flash files
were there, then any writes but those to a well type, then a boot over the flash files
they left: where the type files leave the types standing, every well has its mapping
tables and every flash cell but cell 0 its word. -/
theorem restart_keeps_configuration (env : Platform) (f1 f2 : Option FlashFile) (n : Nat)
    (m : MapT) (s : Rtu) (hboot : mapInit env f1 f2 n = some m)
    (hfit : StoreFits env m.xMax f1 f2) (hdefault : getMap00Path env 1 = some pathMap001)
    (hstand : TypesStand env m.xMax f1 f2)
    (hrun : Steps (guarded (fun s op => op.LeavesTypes s) (MapStep env)) (.start m) s) :
    ∃ m', mapLoad env (some s.map.flash1File) (some s.map.flash2File) = (some 0, some m') ∧
      m'.xMax = s.map.xMax ∧
      (∀ w, s.map.tables.WellEq w m'.tables) ∧
      ∀ w i, 1 ≤ w → w ≤ maxWellNum → i ≠ 0 →
        s.map.ramXMapType (s.map.xBase w + i) ∈ [MapKind.flash1, .flash2] →
        ∀ buf,
          zigbeeReadRegisters env (.start m') buf 1 w i = zigbeeReadRegisters env s buf 1 w i := by
  obtain ⟨xMax, m1, hx, hx0, h1, h2⟩ := mapInit_ok hboot
  obtain ⟨xMax', hx', hm⟩ := mapInit_xMax hboot
  obtain rfl : xMax' = xMax := Option.some.inj (hx'.symm.trans hx)
  obtain ⟨htab, htype⟩ := boot_spec hboot hfit.toLoadFits
  have hsame := steps_sameConfig hrun
  have hsx : s.map.xMax = m.xMax := hsame.xMax
  have hloads := boot_loads hboot hfit.toLoadFits
  -- the type words the run leaves lead to the files of the boot
  have hleft : ∀ k < maxWellNum, bootPath env (s.map.flash2 (k * m.xMax))
      = bootPath env (typeAtBoot env m.xMax f1 f2 k) := by
    intro k hk
    rw [show s.map.flash2 (k * m.xMax) = m.flash2 (k * m.xMax) from hsame.types k, htype k hk]
    exact hstand.bootPath_left hdefault hk
  -- the loader over these flashes, which it finds and does not set again
  have hagain := mapLoad_again (f := s.map.flash1) (g := s.map.flash2)
    (T := fun k => s.map.flash2 (k * m.xMax)) hx hx0 (ramMapFlash1ValueInit_loads h1)
    (fun k _ => by rw [hm]) fun k hk => (hleft k hk).symm ▸ hloads k hk
  rw [← hm, ← hsx] at hagain
  obtain ⟨m', hload, htab', hflash1, hflash2⟩ := hagain
  have htabs : m'.tables = m.tables := by
    rw [htab', htab, hsx]
    exact foldl_loadType_congr fun k hk => hleft k (List.mem_range.1 hk)
  have hx' : m'.xMax = s.map.xMax := (congrArg Tables.xMax htabs).trans hsx.symm
  refine ⟨m', hload, hx', fun w => htabs ▸ hsame.wellEq w, fun w i hw hw8 h0 hkind buf => ?_⟩
  rw [zigbeeReadRegisters_one hw hw8, zigbeeReadRegisters_one hw hw8,
    show (Rtu.start m').map.xMax = s.map.xMax from hx']
  by_cases hi : i < s.map.xMax
  · have hbase : m'.xBase w = s.map.xBase w := congrArg (· * (w - 1)) hx'
    have htype' : m'.ramXMapType = s.map.ramXMapType :=
      (congrArg Tables.ramXMapType htabs).trans hsame.cellType.symm
    have hread : readCell env (.start m') (buf 0) w i = readCell env s (buf 0) w i := by
      refine readCell_of_flash ?_ hkind (congrFun hflash1 i) ?_
      · show m'.ramXMapType (m'.xBase w + i) = _
        rw [htype', hbase]
      · show m'.flash2 (m'.xBase w + i) = _
        rw [hbase]
        exact hflash2 _ fun k => (mul_ne_xBase_add hi h0).symm
    rw [if_pos hi, if_pos hi, hread]
  · rw [if_neg hi, if_neg hi]

/-- Two types, the default file for the first of them. -/
def restartFiles (typeRows : List Char) : Platform := .bare fun path =>
  if path = pathMap0 then some "1,/usr/share/map_001.csv\n2,/b".toList
  else if path = pathMap1 then some "0,40001,1,RW,SYS\n3,40004,118,WR,FLASH1".toList
  else if path = pathMap001 then some typeRows
  else if path = "/b".toList then some "300,40302,0,RW".toList
  else none

/-- Files whose default type says nothing of cell 0. -/
def plainFiles : Platform := restartFiles "300,40301,7,RW,FLASH2".toList

/-- Their first boot. -/
def plainBoot : MapT := (mapInit plainFiles none none 0).get (by decide)

theorem plainBoot_eq : mapInit plainFiles none none 0 = some plainBoot := by
  simp [plainBoot]

theorem plainBoot_xMax : plainBoot.xMax = 301 := by decide +kernel

theorem plainBoot_fits : StoreFits plainFiles plainBoot.xMax none none := by
  rw [plainBoot_xMax]
  exact
    { block := by decide +kernel
      commonCell := by decide +kernel
      commonFlash1 := by decide +kernel
      commonRegister := by decide +kernel
      unlisted := by decide +kernel
      typeRegister := by decide +kernel
      commonShared := by decide +kernel
      typeShared := by decide +kernel }

theorem plainBoot_stand : TypesStand plainFiles plainBoot.xMax none none := by
  rw [plainBoot_xMax]
  intro _
  decide +kernel

/-- Register 300 of well 2 set to 9. -/
def plainSet : Rtu :=
  (mapModbusWriteRegisters plainFiles (fun _ => 9) 1 2 300 false (.start plainBoot)).2

theorem plainSet_leavesTypes :
    MapOp.LeavesTypes (.start plainBoot) (.modbusWrite (fun _ => 9) 1 2 300 false) := by
  rintro ⟨-, k, hk, -, hcell, -⟩
  obtain rfl : k = 0 := Nat.lt_one_iff.1 hk
  exact absurd hcell (by decide)

/-- The value is read after the restart. -/
theorem plainSet_restart :
    ∃ m', mapLoad plainFiles (some plainSet.map.flash1File) (some plainSet.map.flash2File)
        = (some 0, some m') ∧
      zigbeeReadRegisters plainFiles (.start m') (fun _ => 0) 1 2 300 = some [9] := by
  obtain ⟨m', hload, -, -, hread⟩ := restart_keeps_configuration plainFiles none none 0 plainBoot
    plainSet plainBoot_eq plainBoot_fits (by decide) plainBoot_stand
    (.one ⟨plainSet_leavesTypes, .modbusWrite (.start plainBoot) (fun _ => 9) 1 2 300 false⟩)
  exact ⟨m', hload,
    (hread 2 300 (by decide) (by decide) (by decide) (by decide) _).trans (by decide)⟩

/-- Files whose default type makes type 2 of a new flash. -/
def typedFiles : Platform := restartFiles "0,40001,2,RW,SYS\n300,40301,7,RW,FLASH2".toList

/-- Their first boot. -/
def typedBoot : MapT := (mapInit typedFiles none none 0).get (by decide)

theorem typedBoot_eq : mapInit typedFiles none none 0 = some typedBoot := by
  simp [typedBoot]

theorem typedBoot_xMax : typedBoot.xMax = 301 := by decide +kernel

theorem typedBoot_fits : StoreFits typedFiles typedBoot.xMax none none := by
  rw [typedBoot_xMax]
  exact
    { block := by decide +kernel
      commonCell := by decide +kernel
      commonFlash1 := by decide +kernel
      commonRegister := by decide +kernel
      unlisted := by decide +kernel
      typeRegister := by decide +kernel
      commonShared := by decide +kernel
      typeShared := by decide +kernel }

/-- The restart loads the other type: register 301 has no cell before it and one after. -/
theorem not_restart_keeps_configuration : ¬ ∀ (env : Platform) (f1 f2 : Option FlashFile) (n : Nat)
    (m : MapT) (s : Rtu), mapInit env f1 f2 n = some m → StoreFits env m.xMax f1 f2 →
    getMap00Path env 1 = some pathMap001 →
    Steps (guarded (fun s op => op.LeavesTypes s) (MapStep env)) (.start m) s →
    ∃ m', mapLoad env (some s.map.flash1File) (some s.map.flash2File) = (some 0, some m') ∧
      ∀ w, s.map.tables.WellEq w m'.tables := by
  intro h
  obtain ⟨m', hload, heq⟩ := h typedFiles none none 0 typedBoot (.start typedBoot) typedBoot_eq
    typedBoot_fits (by decide) .refl
  have hkind : (mapLoad typedFiles (some typedBoot.flash1File) (some typedBoot.flash2File)).2.map
      (fun m => m.ramYMapType 301) = some .ram := by
    decide +kernel
  have hload' : mapLoad typedFiles (some typedBoot.flash1File) (some typedBoot.flash2File)
      = (some 0, some m') := hload
  rw [hload'] at hkind
  have hram : m'.ramYMapType 301 = .ram := Option.some.inj hkind
  have hreg : typedBoot.ramYMapType 301 = m'.ramYMapType 301 :=
    (heq 1).regType 301 (by decide) trivial
  rw [hram] at hreg
  exact absurd hreg (by decide)

end RtuA118
