import RtuA118.Map.Run
import RtuA118.Map.Scan

/-!
# RtuA118.Map.RemapBoot

Changing a well's type at run time against booting into the new type.

Both end by overlaying the type's rows on the well's tables; they differ in what
lies underneath. The boot starts from **empty tables** with the common file's
rows (`commonTables`), the change of type from whatever the types before left.
The rows settle every cell and register they name, so the two agree exactly when
they agreed on the others before (`loadCells_wellEq_iff`).

The boot is first brought into the same form: `mapInit_tables` says its tables
are the overlay of all files in order.
-/

namespace RtuA118

open Run (Reach guarded)

/-! ### The boot over tables -/

/-- The tables `ram_flash_create` hands over. -/
def emptyTables (xMax : Nat) : Tables := (emptyMap xMax (fun _ => 0) fun _ => 0).tables

/-- The copies of the common tables into one further well. -/
def Tables.copyWell (tb : Tables) (wellIndex : Nat) : Tables where
  xMax := tb.xMax
  ramXMapType := Store.copy (wellIndex * tb.xMax) 0 flash1MaxLen tb.ramXMapType
  ramXMapRecord := Store.copy (wellIndex * tb.xMax) 0 flash1MaxLen tb.ramXMapRecord
  ramXMapRw := Store.copy (wellIndex * tb.xMax) 0 flash1MaxLen tb.ramXMapRw
  ramY := Store.copy (wellIndex * maxRegisterNum) 0 maxRegisterNum tb.ramY
  ramYMapType := Store.copy (wellIndex * maxRegisterNum) 0 maxRegisterNum tb.ramYMapType

/-- The common file in all wells. -/
def commonTables (env : Platform) (xMax : Nat) : Tables :=
  (List.range' 1 (maxWellNum - 1)).foldl Tables.copyWell
    ((emptyTables xMax).loadCells 0 0 (fileCells env pathMap1))

/-- One well's type file over the tables. -/
def Tables.loadType (env : Platform) (types : Nat → UInt16) (tb : Tables) (i : Nat) : Tables :=
  tb.loadCells (i * tb.xMax) (i * maxRegisterNum) (fileCells env (bootPath env (types i)))

/-! ### The boot refines it -/

theorem foldl_loadCell_flash2 {xb yb : Nat} {b1 : Bool} {cs : List RowCell} {m : MapT} :
    (cs.foldl (loadCell xb yb b1 false) m).flash2 = m.flash2 := by
  induction cs generalizing m with
  | nil => rfl
  | cons c cs ih =>
      rw [List.foldl_cons, ih]
      simp [loadCell]

theorem foldl_loadCell_xMax {xb yb : Nat} {b1 b2 : Bool} {cs : List RowCell} {m : MapT} :
    (cs.foldl (loadCell xb yb b1 b2) m).xMax = m.xMax :=
  congrArg Tables.xMax tables_foldl_loadCell

theorem foldl_copyWell_tables {is : List Nat} {b : Bool} {m : MapT} :
    (is.foldl (copyWell b) m).tables = is.foldl Tables.copyWell m.tables := by
  induction is generalizing m with
  | nil => rfl
  | cons i is ih =>
      rw [List.foldl_cons, List.foldl_cons, ih]
      rfl

theorem foldl_copyWell_flash2 {is : List Nat} {m : MapT} :
    (is.foldl (copyWell false) m).flash2 = m.flash2 := by
  induction is generalizing m with
  | nil => rfl
  | cons i is ih =>
      rw [List.foldl_cons, ih]
      rfl

theorem foldl_copyWell_xMax {is : List Nat} {b : Bool} {m : MapT} :
    (is.foldl (copyWell b) m).xMax = m.xMax := by
  induction is generalizing m with
  | nil => rfl
  | cons i is ih =>
      rw [List.foldl_cons, ih]
      rfl

/-- A load that ends well has read the file to its end. -/
theorem ramMapFlash1ValueInit_ok {env : Platform} {xb yb : Nat} {b1 b2 isFlash1 : Bool}
    {path : List Char} {m m' : MapT}
    (h : ramMapFlash1ValueInit env xb yb b1 b2 path isFlash1 m = (some 0, m')) :
    m' = if isFlash1 then
        (List.range' 1 (maxWellNum - 1)).foldl (copyWell b2)
          ((fileCells env path).foldl (loadCell xb yb b1 b2) m)
      else (fileCells env path).foldl (loadCell xb yb b1 b2) m := by
  cases hread : env.readFile path with
  | none => simp [ramMapFlash1ValueInit, hread] at h
  | some text =>
      rw [ramMapFlash1ValueInit_of_readFile hread] at h
      obtain ⟨hrc, hm⟩ := Prod.ext_iff.1 h
      dsimp only at hrc hm
      rw [if_pos hrc, loadWords_snd] at hm
      simp only [fileCells, hread]
      exact hm.symm

/-- The common part of the boot, over an existing second flash file. -/
theorem commonTables_refines {env : Platform} {b1 : Bool} {xMax : Nat} {f1 f2 : Nat → UInt16}
    {m : MapT}
    (h : ramMapFlash1ValueInit env 0 0 b1 false pathMap1 true (emptyMap xMax f1 f2) = (some 0, m)) :
    m.tables = commonTables env xMax ∧ m.flash2 = f2 ∧ m.xMax = xMax := by
  have hm := ramMapFlash1ValueInit_ok h
  rw [if_pos rfl] at hm
  subst hm
  refine ⟨?_, ?_, ?_⟩
  · rw [foldl_copyWell_tables, tables_foldl_loadCell]
    rfl
  · rw [foldl_copyWell_flash2, foldl_loadCell_flash2]
    rfl
  · rw [foldl_copyWell_xMax, foldl_loadCell_xMax]
    rfl

/-- The choice of a type file touches at most the well's own type cell. -/
theorem wellTypePath_spec (env : Platform) (i : Nat) (m : MapT) :
    (wellTypePath env i m).1 = bootPath env (m.flash2 (i * m.xMax)) ∧
      (wellTypePath env i m).2.tables = m.tables ∧
      ∀ j, j ≠ i * m.xMax → (wellTypePath env i m).2.flash2 j = m.flash2 j := by
  unfold wellTypePath bootPath
  cases getMap00Path env (m.flash2 (i * m.xMax)) with
  | some path => exact ⟨rfl, rfl, fun _ _ => rfl⟩
  | none => exact ⟨rfl, rfl, fun j hj => Function.update_of_ne hj _ _⟩

theorem loadWell_ok {env : Platform} {i : Nat} {m m' : MapT} {types : Nat → UInt16}
    (h : loadWell env false i m = (some 0, m')) (ht : m.flash2 (i * m.xMax) = types i) :
    m'.tables = m.tables.loadType env types i ∧
      ∀ j, j ≠ i * m.xMax → m'.flash2 j = m.flash2 j := by
  obtain ⟨hpath, htab, hflash⟩ := wellTypePath_spec env i m
  have hx : (wellTypePath env i m).2.xMax = m.xMax := congrArg Tables.xMax htab
  have hrun : ramMapFlash1ValueInit env (i * (wellTypePath env i m).2.xMax) (i * maxRegisterNum)
      false false (wellTypePath env i m).1 false (wellTypePath env i m).2 = (some 0, m') := h
  have hm := ramMapFlash1ValueInit_ok hrun
  rw [if_neg Bool.false_ne_true, hpath, ht, hx] at hm
  subst hm
  refine ⟨?_, fun j hj => ?_⟩
  · rw [tables_foldl_loadCell, htab]
    rfl
  · rw [foldl_loadCell_flash2]
    exact hflash j hj

theorem loadWells_ok {env : Platform} {types : Nat → UInt16} : ∀ {is : List Nat} {m m' : MapT},
    is.Nodup → 0 < m.xMax → (∀ i ∈ is, m.flash2 (i * m.xMax) = types i) →
    loadWells env false is m = (some 0, m') →
    m'.tables = is.foldl (Tables.loadType env types) m.tables := by
  intro is
  induction is with
  | nil =>
      intro m m' _ _ _ h
      cases h
      rfl
  | cons i is ih =>
      intro m m' hnd hx ht h
      obtain ⟨hi, hnd⟩ := List.nodup_cons.1 hnd
      unfold loadWells at h
      split at h
      · rename_i m1 h1
        obtain ⟨htab, hflash⟩ := loadWell_ok h1 (ht i List.mem_cons_self)
        have hx1 : m1.xMax = m.xMax := congrArg Tables.xMax htab
        -- the later wells' type cells are still the file's
        have ht1 : ∀ j ∈ is, m1.flash2 (j * m1.xMax) = types j := by
          intro j hj
          have hne : j * m.xMax ≠ i * m.xMax := by
            intro heq
            exact hi (Nat.eq_of_mul_eq_mul_right hx heq ▸ hj)
          rw [hx1, hflash _ hne]
          exact ht j (List.mem_cons_of_mem _ hj)
        rw [ih hnd (hx1 ▸ hx) ht1 h, htab]
        rfl
      · rename_i hne
        exact (hne m' h).elim

theorem foldl_loadType_xMax {env : Platform} {types : Nat → UInt16} {is : List Nat} {tb : Tables} :
    (is.foldl (Tables.loadType env types) tb).xMax = tb.xMax := by
  induction is generalizing tb with
  | nil => rfl
  | cons i is ih =>
      rw [List.foldl_cons, ih]
      rfl

/-- What a boot that succeeds has computed. -/
theorem mapInit_ok {env : Platform} {f1 f2 : Option FlashFile} {k : Nat} {m : MapT}
    (h : mapInit env f1 f2 k = some m) :
    ∃ xMax m1, getXYZMaxLen env = some xMax ∧ xMax ≠ 0 ∧
      ramMapFlash1ValueInit env 0 0 (flashOpen flash1MaxLen f1).1
        (flashOpen (xMax.toNat * maxWellNum) f2).1 pathMap1 true
        (emptyMap xMax.toNat (flashOpen flash1MaxLen f1).2
          (flashOpen (xMax.toNat * maxWellNum) f2).2) = (some 0, m1) ∧
      ramMapFlash2ValueInit env (flashOpen (xMax.toNat * maxWellNum) f2).1 m1 = (some 0, m) := by
  unfold mapInit at h
  split at h
  · rename_i m0 hload
    have hm0 : m0 = m := by
      split at h
      · exact Option.some.inj h
      · cases h
    subst hm0
    unfold mapLoad at hload
    split at hload
    · cases hload
    · rename_i xMax hx
      split at hload
      · cases hload
      · rename_i hx0
        dsimp only at hload
        split at hload
        · rename_i m1 h1
          refine ⟨xMax, m1, hx, hx0, h1, ?_⟩
          obtain ⟨hr, hs⟩ := Prod.ext_iff.1 hload
          exact Prod.ext hr (Option.some.inj hs)
        · rename_i rc m1 hne h1
          exact absurd (congrArg Prod.fst hload) hne
  · cases h

/-- A boot sizes the blocks by the type files alone. -/
theorem mapInit_xMax {env : Platform} {f1 f2 : Option FlashFile} {k : Nat} {m : MapT}
    (h : mapInit env f1 f2 k = some m) : ∃ xMax, getXYZMaxLen env = some xMax ∧
      m.xMax = xMax.toNat := by
  obtain ⟨xMax, m1, hx, -, h1, h2⟩ := mapInit_ok h
  refine ⟨xMax, hx, ?_⟩
  have hm1 : m1.xMax = xMax.toNat := by
    have hm := ramMapFlash1ValueInit_ok h1
    rw [if_pos rfl] at hm
    rw [hm, foldl_copyWell_xMax, foldl_loadCell_xMax]
    rfl
  rw [← hm1]
  -- no turn of the wells' loop changes the block size
  suffices hall : ∀ (b : Bool) (is : List Nat) (m1 m : MapT),
      loadWells env b is m1 = (some 0, m) → m.xMax = m1.xMax from hall _ _ _ _ h2
  intro b is
  induction is with
  | nil =>
      intro m1 m h
      cases h
      rfl
  | cons i is ih =>
      intro m1 m h
      unfold loadWells at h
      split at h
      · rename_i m2 hw
        have hm2 := ramMapFlash1ValueInit_ok hw
        rw [if_neg Bool.false_ne_true] at hm2
        rw [ih _ _ h, hm2, foldl_loadCell_xMax]
        exact congrArg Tables.xMax (wellTypePath_spec env i m1).2.1
      · rename_i hne
        exact (hne m h).elim

/-- **The boot over tables**: the common file in all wells, then each well's
type file by its type cell. -/
theorem mapInit_tables {env : Platform} {f1 : Option FlashFile} {f2 : FlashFile} {k : Nat}
    {m : MapT} (h : mapInit env f1 (some f2) k = some m)
    (hsize : f2.size = 2 * (m.xMax * maxWellNum)) :
    m.tables = (List.range maxWellNum).foldl
      (Tables.loadType env fun i => f2.words (i * m.xMax)) (commonTables env m.xMax) := by
  obtain ⟨xMax, m1, hx, hx0, h1, h2⟩ := mapInit_ok h
  obtain ⟨xMax', hx', hm⟩ := mapInit_xMax h
  have hxx : xMax' = xMax := Option.some.inj (hx'.symm.trans hx)
  subst hxx
  rw [hm] at hsize
  have hopen : flashOpen (xMax'.toNat * maxWellNum) (some f2) = (false, f2.words) := by
    unfold flashOpen
    dsimp only
    rw [if_pos hsize]
  rw [hopen] at h1 h2
  obtain ⟨htab, hflash, hx1⟩ := commonTables_refines h1
  have hpos : 0 < m1.xMax := by
    rw [hx1]
    exact Nat.pos_of_ne_zero (fun h0 => hx0 (UInt16.toNat_inj.mp h0))
  have hall : m.tables = _ := loadWells_ok List.nodup_range hpos
    (fun i _ => show m1.flash2 (i * m1.xMax) = f2.words (i * m.xMax) by rw [hflash, hx1, hm]) h2
  rw [hall, htab, hm]

/-! ### Agreement on one well -/

namespace Tables

/-- The five tables of well `w` agree on the cells in `P` and the registers in
`Q`; an unmapped register has no index to agree on. -/
structure WellEqOn (w : Nat) (P Q : Nat → Prop) (a b : Tables) : Prop where
  cellType : ∀ i < a.xMax, P i → a.ramXMapType (a.xBase w + i) = b.ramXMapType (b.xBase w + i)
  record : ∀ i < a.xMax, P i → a.ramXMapRecord (a.xBase w + i) = b.ramXMapRecord (b.xBase w + i)
  rw : ∀ i < a.xMax, P i → a.ramXMapRw (a.xBase w + i) = b.ramXMapRw (b.xBase w + i)
  regType : ∀ j < maxRegisterNum, Q j → a.ramYMapType (yBase w + j) = b.ramYMapType (yBase w + j)
  regCell : ∀ j < maxRegisterNum, Q j → a.ramYMapType (yBase w + j) = .ram →
    a.ramY (yBase w + j) = b.ramY (yBase w + j)

/-- The five tables of well `w` are the same. -/
def WellEq (w : Nat) (a b : Tables) : Prop := WellEqOn w (fun _ => True) (fun _ => True) a b

/-- The same on every cell and register that no row of `cs` names. -/
def WellEqOutside (w : Nat) (cs : List RowCell) (a b : Tables) : Prop :=
  WellEqOn w (fun i => ∀ c ∈ cs, c.x.toNat ≠ i) (fun j => ∀ c ∈ cs, c.y.toNat ≠ j) a b

theorem mem_cellWrites {xb i : Nat} {mark : RowFlags → MapKind} {cs : List RowCell} :
    xb + i ∈ (cellWrites xb mark cs).map Prod.fst ↔ ∃ c ∈ cs, c.x.toNat = i := by
  unfold cellWrites
  simp

theorem mem_regWrites {α : Type} {yb j : Nat} {mark : RowCell → α} {cs : List RowCell} :
    yb + j ∈ (regWrites yb mark cs).map Prod.fst ↔ ∃ c ∈ cs, c.y.toNat = j := by
  unfold regWrites
  simp

theorem overlay_cellWrites_iff {xb i : Nat} {mark : RowFlags → MapKind} {cs : List RowCell}
    {f g : Nat → MapKind} :
    Store.overlay f (cellWrites xb mark cs) (xb + i) =
        Store.overlay g (cellWrites xb mark cs) (xb + i) ↔
      ((∀ c ∈ cs, c.x.toNat ≠ i) → f (xb + i) = g (xb + i)) := by
  rw [Store.overlay_eq_iff, mem_cellWrites]
  simp

theorem overlay_regWrites_iff {α : Type} {yb j : Nat} {mark : RowCell → α} {cs : List RowCell}
    {f g : Nat → α} :
    Store.overlay f (regWrites yb mark cs) (yb + j) =
        Store.overlay g (regWrites yb mark cs) (yb + j) ↔
      ((∀ c ∈ cs, c.y.toNat ≠ j) → f (yb + j) = g (yb + j)) := by
  rw [Store.overlay_eq_iff, mem_regWrites]
  simp

/-- Rows overlaid on two wells make them equal exactly when the wells agreed
wherever no row reaches. -/
theorem loadCells_wellEq_iff {w : Nat} {cs : List RowCell} {a b : Tables} (hx : a.xMax = b.xMax) :
    WellEq w (a.loadCells (a.xBase w) (yBase w) cs) (b.loadCells (b.xBase w) (yBase w) cs) ↔
      WellEqOutside w cs a b := by
  have hbase : b.xBase w = a.xBase w := by
    unfold xBase
    rw [hx]
  have hcell : ∀ (mark : RowFlags → MapKind) (f g : Nat → MapKind) (i : Nat),
      Store.overlay f (cellWrites (a.xBase w) mark cs) (a.xBase w + i) =
          Store.overlay g (cellWrites (b.xBase w) mark cs) (b.xBase w + i) ↔
        ((∀ c ∈ cs, c.x.toNat ≠ i) → f (a.xBase w + i) = g (b.xBase w + i)) := by
    intro mark f g i
    rw [hbase]
    exact overlay_cellWrites_iff
  -- a register the rows do not name has the kind it had
  have hreg : ∀ j, (∀ c ∈ cs, c.y.toNat ≠ j) →
      (a.loadCells (a.xBase w) (yBase w) cs).ramYMapType (yBase w + j)
        = a.ramYMapType (yBase w + j) := by
    intro j hQ
    refine Store.overlay_of_not_mem fun hmem => ?_
    obtain ⟨c, hc, hcj⟩ := mem_regWrites.1 hmem
    exact hQ c hc hcj
  constructor
  · intro h
    exact ⟨fun i hi hP => (hcell RowFlags.mapType _ _ i).1 (h.cellType i hi trivial) hP,
      fun i hi hP => (hcell RowFlags.mapRecord _ _ i).1 (h.record i hi trivial) hP,
      fun i hi hP => (hcell RowFlags.mapRw _ _ i).1 (h.rw i hi trivial) hP,
      fun j hj hQ => overlay_regWrites_iff.1 (h.regType j hj trivial) hQ,
      fun j hj hQ hram =>
        overlay_regWrites_iff.1 (h.regCell j hj trivial ((hreg j hQ).trans hram)) hQ⟩
  · intro h
    exact ⟨fun i hi _ => (hcell RowFlags.mapType _ _ i).2 (h.cellType i hi),
      fun i hi _ => (hcell RowFlags.mapRecord _ _ i).2 (h.record i hi),
      fun i hi _ => (hcell RowFlags.mapRw _ _ i).2 (h.rw i hi),
      fun j hj _ => overlay_regWrites_iff.2 (h.regType j hj),
      fun j hj _ hram => overlay_regWrites_iff.2 fun hQ =>
        h.regCell j hj hQ ((hreg j hQ).symm.trans hram)⟩

/-- Rows of another well, inside its blocks, leave the well alone. -/
theorem loadType_wellEq {env : Platform} {types : Nat → UInt16} {w i : Nat} {tb : Tables}
    (hi : i ≠ w - 1) (hx : ∀ c ∈ fileCells env (bootPath env (types i)), c.x.toNat < tb.xMax)
    (hy : ∀ c ∈ fileCells env (bootPath env (types i)), c.y.toNat < maxRegisterNum) :
    WellEq w (tb.loadType env types i) tb := by
  -- no row of well `i + 1` names a cell or a register of well `w`
  have hcell : ∀ {mark : RowFlags → MapKind} {k : Nat}, k < tb.xMax → tb.xBase w + k ∉
      (cellWrites (i * tb.xMax) mark (fileCells env (bootPath env (types i)))).map Prod.fst := by
    intro mark k hk hmem
    simp only [cellWrites, List.map_map, List.mem_map] at hmem
    obtain ⟨c, hc, heq⟩ := hmem
    unfold xBase at heq
    rw [Nat.mul_comm tb.xMax] at heq
    exact Store.block_ne hi.symm hk (hx c hc) heq
  have hreg : ∀ {α : Type} {mark : RowCell → α} {j : Nat}, j < maxRegisterNum → yBase w + j ∉
      (regWrites (i * maxRegisterNum) mark (fileCells env (bootPath env (types i)))).map
        Prod.fst := by
    intro α mark j hj hmem
    simp only [regWrites, List.map_map, List.mem_map] at hmem
    obtain ⟨c, hc, heq⟩ := hmem
    unfold yBase at heq
    rw [Nat.mul_comm maxRegisterNum (w - 1)] at heq
    exact Store.block_ne hi.symm hj (hy c hc) heq
  exact ⟨fun k hk _ => Store.overlay_of_not_mem (hcell hk),
    fun k hk _ => Store.overlay_of_not_mem (hcell hk),
    fun k hk _ => Store.overlay_of_not_mem (hcell hk),
    fun j hj _ => Store.overlay_of_not_mem (hreg hj),
    fun j hj _ _ => Store.overlay_of_not_mem (hreg hj)⟩

theorem WellEq.trans {w : Nat} {a b c : Tables} (hab : WellEq w a b) (hbc : WellEq w b c)
    (hx : a.xMax = b.xMax) : WellEq w a c := by
  refine ⟨fun i hi _ => (hab.cellType i hi trivial).trans (hbc.cellType i (hx ▸ hi) trivial),
    fun i hi _ => (hab.record i hi trivial).trans (hbc.record i (hx ▸ hi) trivial),
    fun i hi _ => (hab.rw i hi trivial).trans (hbc.rw i (hx ▸ hi) trivial),
    fun j hj _ => (hab.regType j hj trivial).trans (hbc.regType j hj trivial),
    fun j hj _ hram => (hab.regCell j hj trivial hram).trans (hbc.regCell j hj trivial ?_)⟩
  rw [← hab.regType j hj trivial]
  exact hram

theorem WellEq.symm {w : Nat} {a b : Tables} (hab : WellEq w a b) (hx : a.xMax = b.xMax) :
    WellEq w b a := by
  refine ⟨fun i hi _ => (hab.cellType i (hx ▸ hi) trivial).symm,
    fun i hi _ => (hab.record i (hx ▸ hi) trivial).symm,
    fun i hi _ => (hab.rw i (hx ▸ hi) trivial).symm,
    fun j hj _ => (hab.regType j hj trivial).symm,
    fun j hj _ hram => (hab.regCell j hj trivial ?_).symm⟩
  rw [hab.regType j hj trivial]
  exact hram

theorem WellEq.refl (w : Nat) (a : Tables) : WellEq w a a :=
  ⟨fun _ _ _ => rfl, fun _ _ _ => rfl, fun _ _ _ => rfl, fun _ _ _ => rfl, fun _ _ _ _ => rfl⟩

theorem foldl_loadType_wellEq {env : Platform} {types : Nat → UInt16} {w xMax : Nat}
    (hx : ∀ t, ∀ c ∈ fileCells env (bootPath env t), c.x.toNat < xMax)
    (hy : ∀ t, ∀ c ∈ fileCells env (bootPath env t), c.y.toNat < maxRegisterNum) :
    ∀ {is : List Nat} {tb : Tables}, tb.xMax = xMax → (∀ i ∈ is, i ≠ w - 1) →
      WellEq w (is.foldl (loadType env types) tb) tb := by
  intro is
  induction is with
  | nil => exact fun _ _ => .refl w _
  | cons i is ih =>
      intro tb htb h
      have hrest : WellEq w (is.foldl (loadType env types) (tb.loadType env types i))
          (tb.loadType env types i) := ih htb fun j hj => h j (List.mem_cons_of_mem _ hj)
      have hone : WellEq w (tb.loadType env types i) tb :=
        loadType_wellEq (h i List.mem_cons_self) (htb.symm ▸ hx _) (hy _)
      rw [List.foldl_cons]
      exact hrest.trans hone foldl_loadType_xMax

/-- What agrees on the well agrees outside whatever rows. -/
theorem WellEq.outside {w : Nat} {a b : Tables} (h : WellEq w a b) (cs : List RowCell) :
    WellEqOutside w cs a b :=
  ⟨fun i hi _ => h.cellType i hi trivial, fun i hi _ => h.record i hi trivial,
    fun i hi _ => h.rw i hi trivial, fun j hj _ => h.regType j hj trivial,
    fun j hj _ => h.regCell j hj trivial⟩

end Tables

/-! ### Remap against reboot -/

/-- The boot's tables of well `w`: its type's rows over the common file. -/
theorem mapInit_wellEq {env : Platform} {f1 : Option FlashFile} {f2 : FlashFile} {k w : Nat}
    {m : MapT} (h : mapInit env f1 (some f2) k = some m)
    (hsize : f2.size = 2 * (m.xMax * maxWellNum)) (hfit : FilesFit env m.xMax) (hw : 1 ≤ w)
    (hw8 : w ≤ maxWellNum) :
    let common := commonTables env m.xMax
    m.tables.WellEq w (common.loadCells (common.xBase w) (yBase w)
      (fileCells env (bootPath env (f2.words (m.xMax * (w - 1)))))) := by
  intro common
  obtain ⟨xMax, -, hscan, hx0, -, -⟩ := mapInit_ok h
  obtain ⟨xMax', hscan', hm⟩ := mapInit_xMax h
  obtain rfl : xMax' = xMax := Option.some.inj (hscan'.symm.trans hscan)
  have hx : ∀ t, ∀ c ∈ fileCells env (bootPath env t), c.x.toNat < m.xMax :=
    hm.symm ▸ (hm ▸ hfit : FilesFit env xMax'.toNat).typeCell hscan hx0
  have hsplit : List.range maxWellNum
      = List.range (w - 1) ++ (w - 1) :: List.range' w (maxWellNum - w) := by
    have h1 : List.range' (w - 1) (maxWellNum - w + 1)
        = (w - 1) :: List.range' w (maxWellNum - w) := by
      rw [List.range'_succ, show w - 1 + 1 = w from by omega]
    have h2 := List.range'_append_1 (s := 0) (m := w - 1) (n := maxWellNum - w + 1)
    rw [Nat.zero_add, show w - 1 + (maxWellNum - w + 1) = maxWellNum from by omega] at h2
    rw [← h1, List.range_eq_range', List.range_eq_range', h2]
  rw [mapInit_tables h hsize, hsplit, List.foldl_append, List.foldl_cons]
  -- the wells before, this well, the wells after
  obtain ⟨before, hdef⟩ : ∃ before, before = (List.range (w - 1)).foldl
      (Tables.loadType env fun i => f2.words (i * m.xMax)) common := ⟨_, rfl⟩
  have hbx : before.xMax = m.xMax := by
    rw [hdef]
    exact foldl_loadType_xMax
  have hbefore : Tables.WellEq w before common := by
    rw [hdef]
    exact Tables.foldl_loadType_wellEq hx hfit.typeRegister rfl fun i hi =>
      Nat.ne_of_lt (List.mem_range.1 hi)
  have hown : before.loadType env (fun i => f2.words (i * m.xMax)) (w - 1)
      = before.loadCells (before.xBase w) (yBase w)
        (fileCells env (bootPath env (f2.words (m.xMax * (w - 1))))) := by
    unfold Tables.loadType Tables.xBase yBase
    dsimp only
    rw [hbx, Nat.mul_comm (w - 1) m.xMax, Nat.mul_comm (w - 1) maxRegisterNum]
  have hlate : Tables.WellEq w ((List.range' w (maxWellNum - w)).foldl
      (Tables.loadType env fun i => f2.words (i * m.xMax))
      (before.loadType env (fun i => f2.words (i * m.xMax)) (w - 1))) _ :=
    Tables.foldl_loadType_wellEq hx hfit.typeRegister hbx fun i hi => by
      have hi := List.mem_range'_1.1 hi
      omega
  rw [← hdef]
  refine hlate.trans ?_ foldl_loadType_xMax
  rw [hown]
  exact (Tables.loadCells_wellEq_iff hbx).2 (hbefore.outside _)

/-- Every state of the map's life has the block size of its files. -/
theorem MapReach.xMax {env : Platform} {s : Rtu} (h : MapReach env s) :
    ∃ xMax, getXYZMaxLen env = some xMax ∧ s.map.xMax = xMax.toNat := by
  refine Run.Reach.invariant (P := fun s => ∃ xMax, getXYZMaxLen env = some xMax ∧
    s.map.xMax = xMax.toNat) ?_ ?_ h
  · rintro s ⟨f1, f2, k, m, hm, rfl⟩
    exact mapInit_xMax hm
  · rintro s a s' ⟨xMax, hx, hs⟩ hstep
    cases hstep with
    | modbusWrite => exact ⟨xMax, hx, mapModbusWriteRegisters_xMax.trans hs⟩
    | internalWrite => exact ⟨xMax, hx, zigbeeWriteRegisters_xMax.trans hs⟩
    | mset v len wellNum addr =>
        refine ⟨xMax, hx, Eq.trans ?_ hs⟩
        unfold zigbeeWriteRegistersMset
        split <;> rfl
    | remap => exact ⟨xMax, hx, mapItemRemap_xMax.trans hs⟩
    | reboot hm => exact mapInit_xMax hm
    | elsewhere hmap => exact ⟨xMax, hx, hmap ▸ hs⟩

/-- A change of type is one of the unit's wells'. -/
def MapOp.InWells : MapOp → Prop
  | .remap wellNum _ => wellNum ≤ maxWellNum
  | _ => True

/-- **Remapping against rebooting.** Over files that fit, in every state reached by boots,
writes and changes of the wells' types: after well `w`'s type is changed to `t`, its
tables are those of a boot with type cell `t` exactly when, outside the cells and
registers that `t`'s rows name, they were before the change what the common file gives. -/
theorem remap_wellEq_boot_iff {env : Platform} {s s' : Rtu} {w k : Nat} {t : UInt16}
    {f1 : Option FlashFile} {f2 : FlashFile} {m : MapT} (hfit : FilesFit env m.xMax)
    (hs : Reach (Booted env) (guarded (fun _ op => op.InWells) (MapStep env)) s) (hw : 1 ≤ w)
    (hw8 : w ≤ maxWellNum) (hremap : mapItemRemap env w t s = (some 0, s'))
    (hboot : mapInit env f1 (some f2) k = some m) (hsize : f2.size = 2 * (m.xMax * maxWellNum))
    (htype : f2.words (m.xMax * (w - 1)) = t) :
    s'.map.tables.WellEq w m.tables ↔
      s.map.tables.WellEqOutside w (Tables.remapCells env w t) (commonTables env m.xMax) := by
  have hlife : MapReach env s := hs.of_guarded
  obtain ⟨x, hx, hsx⟩ := hlife.xMax
  obtain ⟨x', hx', hmx⟩ := mapInit_xMax hboot
  have hxx : s.map.tables.xMax = m.xMax := by
    rw [MapT.tables_xMax, hsx, hmx, Option.some.inj (hx.symm.trans hx')]
  have hs' : s'.map.tables = s.map.tables.remap env w t := by
    rw [← mapItemRemap_tables, hremap]
  -- the change of type succeeded, so the table of types lists `t`
  have hcells : Tables.remapCells env w t
      = fileCells env (bootPath env (f2.words (m.xMax * (w - 1)))) := by
    have hrange : ¬ (w < 1 ∨ w - 1 > maxWellNum) := by omega
    unfold Tables.remapCells bootPath
    rw [if_neg hrange, htype]
    cases hp : getMap00Path env t with
    | some path => rfl
    | none =>
        unfold mapItemRemap at hremap
        rw [if_neg hrange, hp] at hremap
        cases hremap
  have hm := mapInit_wellEq hboot hsize hfit hw hw8
  rw [← hcells] at hm
  rw [hs', ← Tables.loadCells_wellEq_iff hxx]
  constructor
  · intro h
    exact h.trans hm hxx
  · intro h
    exact h.trans (hm.symm rfl) hxx

/-! ### A register of the old type alone -/

/-- Two types, each with one register of its own. -/
def twoTypes : Platform := .bare fun path =>
  if path = pathMap0 then some "1,/a\n2,/b".toList
  else if path = pathMap1 then some "0,40001,1,RW,SYS".toList
  else if path = "/a".toList then some "300,40301,0,RW".toList
  else if path = "/b".toList then some "300,40302,0,RW".toList
  else none

/-- A second flash file with type `t` in every well. -/
def typedFlash (t : UInt16) : FlashFile := ⟨2 * (301 * maxWellNum), fun _ => t⟩

/-- The boots of `twoTypes` into type 1 and into type 2. -/
def bootOne : MapT := (mapInit twoTypes none (some (typedFlash 1)) 0).get (by decide)
def bootTwo : MapT := (mapInit twoTypes none (some (typedFlash 2)) 0).get (by decide)

theorem bootOne_eq : mapInit twoTypes none (some (typedFlash 1)) 0 = some bootOne := by
  simp [bootOne]

theorem bootTwo_eq : mapInit twoTypes none (some (typedFlash 2)) 0 = some bootTwo := by
  simp [bootTwo]

/-- The unit booted into type 1 and then changed to type 2. -/
def changedToTwo : Rtu := (mapItemRemap twoTypes 1 2 (.start bootOne)).2

theorem changedToTwo_eq : mapItemRemap twoTypes 1 2 (.start bootOne) = (some 0, changedToTwo) :=
  Prod.ext (by decide) rfl

theorem bootOne_reach : MapReach twoTypes (.start bootOne) :=
  .start ⟨_, _, _, _, bootOne_eq, rfl⟩

/-- Register 300 keeps the mapping of type 1 after the change to type 2. -/
theorem not_remap_wellEq_boot : ¬ ∀ (env : Platform) (s s' : Rtu) (w k : Nat) (t : UInt16)
    (f1 : Option FlashFile) (f2 : FlashFile) (m : MapT), MapReach env s → 1 ≤ w →
    w ≤ maxWellNum → mapItemRemap env w t s = (some 0, s') → mapInit env f1 (some f2) k = some m →
    f2.size = 2 * (m.xMax * maxWellNum) → f2.words (m.xMax * (w - 1)) = t →
    s'.map.tables.WellEq w m.tables := by
  intro h
  have heq := h twoTypes _ _ 1 0 2 none (typedFlash 2) bootTwo bootOne_reach (by decide) (by decide)
    changedToTwo_eq bootTwo_eq (by decide) rfl
  have hreg : changedToTwo.map.ramYMapType 300 = bootTwo.ramYMapType 300 :=
    heq.regType 300 (by decide) trivial
  exact absurd hreg (by decide)

theorem twoTypes_filesFit : FilesFit twoTypes 301 where
  block := by decide
  commonCell := by decide
  commonFlash1 := by decide
  commonRegister := by decide
  defaultCell := by decide
  typeRegister := by
    intro t
    have hpath : getMap00Path twoTypes t
        = if t = 1 then some "/a".toList else if t = 2 then some "/b".toList else none := rfl
    unfold bootPath
    rw [hpath]
    split
    · decide
    · split <;> decide

/-- The same change, judged by what lay under the rows of type 2. -/
theorem changedToTwo_wellEq_iff :
    changedToTwo.map.tables.WellEq 1 bootTwo.tables ↔
      bootOne.tables.WellEqOutside 1 (Tables.remapCells twoTypes 1 2)
        (commonTables twoTypes bootTwo.xMax) :=
  remap_wellEq_boot_iff twoTypes_filesFit (.start ⟨_, _, _, _, bootOne_eq, rfl⟩) (by decide)
    (by decide) changedToTwo_eq bootTwo_eq (by decide) rfl

end RtuA118
