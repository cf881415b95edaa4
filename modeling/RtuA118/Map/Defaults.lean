import RtuA118.Map.LoaderBounds

/-!
# RtuA118.Map.Defaults

What the cells of a new flash file hold after the boot that made it.

A row sets its default where its kind is stored, as far as the flags of the load let it: the rows
of the common file set a new first flash, the rows of a type file never do, and both set a new
second flash. `boot_cell` follows one cell through the whole boot: the common file in well 1, the
copy of its first 300 cells, the choice of the well's type, and the type's rows.

A row of a function-mapped cell is a case of its own. Its readers look in the second flash, but
where both flashes are new the common file sets the first one instead; `boot_defaults` says nothing
of the cells that are left out so.
-/

namespace RtuA118

/-! ### The last row of a cell -/

/-- The last row that names a cell. -/
def lastRow (cs : List RowCell) (x : Nat) : Option RowCell :=
  Store.lastWrite (cs.map fun c => (c.x.toNat, c)) x

theorem lastRow_cons (c : RowCell) (cs : List RowCell) (x : Nat) :
    lastRow (c :: cs) x = (lastRow cs x).or (if c.x.toNat = x then some c else none) := rfl

theorem lastRow_mem {c : RowCell} {cs : List RowCell} (h : lastRow cs x = some c) :
    c ∈ cs ∧ c.x.toNat = x := by
  induction cs with
  | nil => cases h
  | cons d cs ih =>
      rw [lastRow_cons] at h
      cases hl : lastRow cs x with
      | some e =>
          rw [hl] at h
          obtain ⟨hmem, hx⟩ := ih (hl.trans h)
          exact ⟨List.mem_cons_of_mem _ hmem, hx⟩
      | none =>
          rw [hl, Option.none_or] at h
          obtain ⟨hx, rfl⟩ : d.x.toNat = x ∧ d = c := by simpa using h
          exact ⟨List.mem_cons_self, hx⟩

/-- The last write that rows make in a well is the last row's. -/
theorem lastWrite_cellWrites {xb x : Nat} {mark : RowFlags → MapKind} {cs : List RowCell} :
    Store.lastWrite (Tables.cellWrites xb mark cs) (xb + x) =
      (lastRow cs x).map fun c => mark c.flags := by
  unfold Tables.cellWrites
  induction cs with
  | nil => rfl
  | cons c cs ih =>
      rw [List.map_cons, Store.lastWrite_cons, ih, lastRow_cons]
      cases lastRow cs x with
      | some d => simp
      | none => by_cases hx : c.x.toNat = x <;> simp [hx]

section Last

variable {P : RowCell → Prop} [DecidablePred P] {x : Nat} {cs : List RowCell} {v : UInt16}

theorem foldl_last_none (h : lastRow cs x = none) :
    cs.foldl (fun v c => if c.x.toNat = x ∧ P c then c.dV else v) v = v := by
  induction cs generalizing v with
  | nil => rfl
  | cons d cs ih =>
      rw [lastRow_cons, Option.or_eq_none_iff] at h
      have hd : ¬ d.x.toNat = x := fun hx => by simp [hx] at h
      rw [List.foldl_cons, if_neg fun hx => hd hx.1]
      exact ih h.1

/-- The default of the last row, where it is one of those that count. -/
theorem foldl_last {c : RowCell} (h : lastRow cs x = some c) (hc : P c) :
    cs.foldl (fun v c => if c.x.toNat = x ∧ P c then c.dV else v) v = c.dV := by
  induction cs generalizing v with
  | nil => cases h
  | cons d cs ih =>
      rw [lastRow_cons] at h
      rw [List.foldl_cons]
      cases hl : lastRow cs x with
      | some e => exact ih (by rw [← h, hl]; rfl)
      | none =>
          rw [hl, Option.none_or] at h
          obtain ⟨hx, rfl⟩ : d.x.toNat = x ∧ d = c := by simpa using h
          rw [foldl_last_none hl, if_pos ⟨hx, hc⟩]

end Last

/-- The first flash's word of cell `x` after rows in a new one, over one that held `v`. -/
def lastFlash1 (x : Nat) (cs : List RowCell) (v : UInt16) : UInt16 :=
  cs.foldl (fun v c => if c.x.toNat = x ∧ (c.flags.mapType = .sys ∨ c.flags.mapType = .flash1)
    then c.dV else v) v

/-! ### One event and one cell -/

section Events

variable {m : MapT} {k x : Nat}

/-- A copy into another well's block. -/
theorem copy_block_of_ne {α : Type} {X len src j : Nat} {f : Nat → α} (hjk : j ≠ k)
    (hlen : len ≤ X) (hx : x < X) : Store.copy (j * X) src len f (k * X + x) = f (k * X + x) := by
  refine Store.copy_of_not_mem fun hmem => ?_
  obtain ⟨i, hi⟩ := Nat.exists_eq_add_of_le hmem.1
  exact Store.block_ne hjk (i := i) (by omega) hx hi

/-- An event in another well. -/
theorem LoadEvent.run_of_ne {e : LoadEvent} (he : e.Inside m.xMax) (hk : e.wellIndex ≠ k)
    (hx : x < m.xMax) :
    (e.run m).ramXMapType (k * m.xMax + x) = m.ramXMapType (k * m.xMax + x) ∧
      (e.run m).flash2 (k * m.xMax + x) = m.flash2 (k * m.xMax + x) := by
  cases e with
  | row j b1 b2 c =>
      have hne : k * m.xMax + x ≠ j * m.xMax + c.x.toNat := Store.block_ne hk he.1 hx
      refine ⟨Function.update_of_ne hne _ _, ?_⟩
      show (loadCell _ _ _ _ _ _).flash2 _ = _
      rw [loadCell_flash2, if_neg fun h => hne h.2.1]
  | copy b2 j =>
      refine ⟨copy_block_of_ne hk he.2 hx, ?_⟩
      cases b2 with
      | false => rfl
      | true => exact copy_block_of_ne hk he.2 hx
  | defaultType j =>
      exact ⟨rfl, Function.update_of_ne (Store.block_ne hk he.2 hx) _ _⟩

theorem runEvents_of_ne : ∀ {es : List LoadEvent} {m : MapT}, (∀ e ∈ es, e.Inside m.xMax) →
    (∀ e ∈ es, e.wellIndex ≠ k) → x < m.xMax →
    (runEvents es m).ramXMapType (k * m.xMax + x) = m.ramXMapType (k * m.xMax + x) ∧
      (runEvents es m).flash2 (k * m.xMax + x) = m.flash2 (k * m.xMax + x) := by
  intro es
  induction es with
  | nil => exact fun _ _ _ => ⟨rfl, rfl⟩
  | cons e es ih =>
      intro m hin hk hx
      obtain ⟨hinE, hin⟩ := List.forall_mem_cons.1 hin
      obtain ⟨hkE, hk⟩ := List.forall_mem_cons.1 hk
      obtain ⟨h1, h2⟩ := e.run_of_ne hinE hkE hx
      obtain ⟨h3, h4⟩ := ih (m := e.run m) (by rwa [LoadEvent.run_xMax]) hk
        (by rwa [LoadEvent.run_xMax])
      rw [LoadEvent.run_xMax] at h3 h4
      exact ⟨h3.trans h1, h4.trans h2⟩

/-- The copy into a well. -/
theorem run_copy {b2 : Bool} :
    (LoadEvent.run m (.copy b2 k)).ramXMapType (k * m.xMax + x) =
        (if x < flash1MaxLen then m.ramXMapType x else m.ramXMapType (k * m.xMax + x)) ∧
      (b2 = true → (LoadEvent.run m (.copy b2 k)).flash2 (k * m.xMax + x) =
        if x < flash1MaxLen then m.flash2 x else m.flash2 (k * m.xMax + x)) := by
  have hcopy : ∀ {α : Type} (f : Nat → α), Store.copy (k * m.xMax) 0 flash1MaxLen f
      (k * m.xMax + x) = if x < flash1MaxLen then f x else f (k * m.xMax + x) := by
    intro α f
    by_cases hlen : x < flash1MaxLen
    · rw [if_pos hlen, Store.copy_of_mem hlen, Nat.zero_add]
    · rw [if_neg hlen, Store.copy_of_not_mem (by omega)]
  refine ⟨hcopy _, ?_⟩
  rintro rfl
  exact hcopy _

/-- The copies into all the other wells: their first 300 cells are those of well 1. -/
theorem runEvents_copies {b2 : Bool} : ∀ {ks : List Nat} {m : MapT}, ks.Nodup →
    (∀ j ∈ ks, 1 ≤ j ∧ j < maxWellNum) → flash1MaxLen ≤ m.xMax → k ∈ ks → x < m.xMax →
    (runEvents (ks.map (.copy b2)) m).ramXMapType (k * m.xMax + x) =
        (if x < flash1MaxLen then m.ramXMapType x else m.ramXMapType (k * m.xMax + x)) ∧
      (b2 = true → (runEvents (ks.map (.copy b2)) m).flash2 (k * m.xMax + x) =
        if x < flash1MaxLen then m.flash2 x else m.flash2 (k * m.xMax + x)) := by
  intro ks
  induction ks with
  | nil => intro m _ _ _ hk; cases hk
  | cons j ks ih =>
      intro m hnd hks hlen hk hx
      obtain ⟨hj, hnd⟩ := List.nodup_cons.1 hnd
      obtain ⟨⟨hj1, hj8⟩, hrest⟩ := List.forall_mem_cons.1 hks
      have hin : (LoadEvent.copy b2 j).Inside m.xMax := ⟨hj8, hlen⟩
      have hxm : (LoadEvent.run m (.copy b2 j)).xMax = m.xMax := rfl
      rw [List.map_cons, runEvents_cons, ← hxm]
      rcases List.mem_cons.1 hk with rfl | hk
      · -- the copy into this well, which the copies after it leave
        have hin : ∀ e ∈ ks.map (LoadEvent.copy b2), e.Inside m.xMax := fun e he => by
          obtain ⟨j, hjk, rfl⟩ := List.mem_map.1 he
          exact ⟨(hrest j hjk).2, hlen⟩
        have hne : ∀ e ∈ ks.map (LoadEvent.copy b2), e.wellIndex ≠ k := fun e he => by
          obtain ⟨j, hjk, rfl⟩ := List.mem_map.1 he
          exact fun h => hj (h ▸ hjk)
        obtain ⟨h1, h2⟩ := runEvents_of_ne (m := LoadEvent.run m (.copy b2 k)) hin hne hx
        obtain ⟨h3, h4⟩ : _ ∧ (b2 = true → _) := run_copy (m := m) (k := k) (x := x)
        exact ⟨h1.trans h3, fun hb => h2.trans (h4 hb)⟩
      · have hjk : j ≠ k := fun h => hj (h ▸ hk)
        obtain ⟨h1, h2⟩ := ih (m := LoadEvent.run m (.copy b2 j)) hnd hrest hlen hk hx
        obtain ⟨h3, h4⟩ := LoadEvent.run_of_ne (k := k) hin hjk hx
        have hzero : 0 * m.xMax + x = x := by rw [Nat.zero_mul, Nat.zero_add]
        obtain ⟨h5, h6⟩ := LoadEvent.run_of_ne (k := 0) hin (Nat.ne_of_gt hj1) hx
        rw [hzero] at h5 h6
        refine ⟨?_, fun hb => ?_⟩
        · rw [h1, h5, hxm, h3]
        · rw [h2 hb, h6, hxm, h4]

/-- A type's rows in a well, over what the choice of the type has left. -/
theorem runEvents_fileEvents_cell {env : Platform} {b1 b2 : Bool} {path : List Char} :
    (runEvents (fileEvents env k b1 b2 path) m).ramXMapType (k * m.xMax + x) =
        ((lastRow (fileCells env path) x).map fun c => c.flags.mapType).getD
          (m.ramXMapType (k * m.xMax + x)) ∧
      (b2 = true → (runEvents (fileEvents env k b1 b2 path) m).flash2 (k * m.xMax + x) =
        lastDefault b1 x (fileCells env path) (m.flash2 (k * m.xMax + x))) := by
  rw [runEvents_fileEvents]
  constructor
  · have htab : ((fileCells env path).foldl (loadCell (k * m.xMax) (k * maxRegisterNum) b1 b2)
        m).tables = m.tables.loadCells (k * m.xMax) (k * maxRegisterNum) (fileCells env path) :=
      tables_foldl_loadCell
    have hkind := congrFun (congrArg Tables.ramXMapType htab) (k * m.xMax + x)
    rw [MapT.tables_ramXMapType] at hkind
    have hlast : Store.lastWrite (Tables.cellWrites (k * m.xMax) RowFlags.mapType
        (fileCells env path)) (k * m.xMax + x) = _ := lastWrite_cellWrites
    rw [hkind, ← hlast, ← Store.overlay_eq_getD]
    rfl
  · rintro rfl
    exact foldl_loadCell_lastDefault

/-- The choice of a well's type and the type's rows. -/
theorem runEvents_typeEvents {env : Platform} {b2 : Bool} {t : UInt16} :
    (runEvents (typeEvents env b2 k t) m).ramXMapType (k * m.xMax + x) =
        ((lastRow (fileCells env (bootPath env t)) x).map fun c => c.flags.mapType).getD
          (m.ramXMapType (k * m.xMax + x)) ∧
      (b2 = true → (runEvents (typeEvents env b2 k t) m).flash2 (k * m.xMax + x) =
        lastDefault false x (fileCells env (bootPath env t))
          (if x = 0 ∧ getMap00Path env t = none then 1 else m.flash2 (k * m.xMax + x))) := by
  unfold typeEvents bootPath
  cases hp : getMap00Path env t with
  | some path => simpa using runEvents_fileEvents_cell
  | none =>
      -- the type 1 comes first, and the rows over it
      have hset : (LoadEvent.run m (.defaultType k)).flash2 (k * m.xMax + x) =
          if x = 0 then 1 else m.flash2 (k * m.xMax + x) := by
        by_cases hx : x = 0
        · subst hx
          exact Function.update_self _ _ _
        · rw [if_neg hx]
          exact Function.update_of_ne (by omega) _ _
      simp only [and_true]
      rw [← hset]
      exact runEvents_fileEvents_cell (m := LoadEvent.run m (.defaultType k))

end Events

/-! ### One cell through the boot -/

/-- The row of the common file that names a cell of a well, counted from 0: the other wells have a
copy of the first 300 cells. -/
def commonRow (env : Platform) (k x : Nat) : Option RowCell :=
  if k = 0 ∨ x < flash1MaxLen then lastRow (fileCells env pathMap1) x else none

/-- The row of a well's type file that names a cell. -/
def typeRow (env : Platform) (xMax : Nat) (f1 f2 : Option FlashFile) (k x : Nat) :
    Option RowCell :=
  lastRow (fileCells env (bootPath env (typeAtBoot env xMax f1 f2 k))) x

/-- A cell after the common file and its copies. -/
theorem common_cell {env : Platform} {b1 b2 : Bool} {m : MapT} {k x : Nat}
    (hin : ∀ e ∈ commonEvents env b1 b2, e.Inside m.xMax) (hlen : flash1MaxLen ≤ m.xMax)
    (hk : k < maxWellNum) (hx : x < m.xMax) (hnull : ∀ a, m.ramXMapType a = .null)
    (hnew : b2 = true → ∀ a < m.xMax * maxWellNum, m.flash2 a = 0xFFFF) :
    (runEvents (commonEvents env b1 b2) m).ramXMapType (k * m.xMax + x) =
        ((commonRow env k x).map fun c => c.flags.mapType).getD .null ∧
      (b2 = true → (runEvents (commonEvents env b1 b2) m).flash2 (k * m.xMax + x) =
        if k = 0 ∨ x < flash1MaxLen then lastDefault b1 x (fileCells env pathMap1) 0xFFFF
        else 0xFFFF) := by
  unfold commonEvents at hin ⊢
  have hin1 := fun e he => hin e (List.mem_append_left _ he)
  have hin2 := fun e he => hin e (List.mem_append_right _ he)
  obtain ⟨m1, hm1⟩ : ∃ m1, m1 = runEvents (fileEvents env 0 b1 b2 pathMap1) m := ⟨_, rfl⟩
  have hxm : m1.xMax = m.xMax := hm1 ▸ runEvents_xMax _ _
  have hzero : 0 * m.xMax + x = x := by rw [Nat.zero_mul, Nat.zero_add]
  have hfirst : b2 = true → m.flash2 (0 * m.xMax + x) = 0xFFFF := fun hb =>
    hnew hb _ (Store.block_lt (by decide) hx)
  have hown : b2 = true → m.flash2 (k * m.xMax + x) = 0xFFFF := fun hb =>
    hnew hb _ (Store.block_lt hk hx)
  -- the rows, in well 1
  obtain ⟨hkind, hword⟩ : m1.ramXMapType x = _ ∧ (b2 = true → m1.flash2 x = _) := by
    rw [hm1, ← hzero]
    exact runEvents_fileEvents_cell
  rw [hzero, hnull] at hkind
  rw [runEvents_append, ← hm1]
  rw [← hxm] at hin2 hlen hx ⊢
  by_cases hk0 : k = 0
  · -- which the copies leave
    have hne : ∀ e ∈ (List.range' 1 (maxWellNum - 1)).map (LoadEvent.copy b2),
        e.wellIndex ≠ 0 := fun e he => by
      obtain ⟨j, hj, rfl⟩ := List.mem_map.1 he
      exact Nat.ne_of_gt (List.mem_range'_1.1 hj).1
    obtain ⟨h1, h2⟩ := runEvents_of_ne hin2 hne hx
    rw [hxm, hzero] at h1 h2
    subst hk0
    rw [hxm, hzero]
    refine ⟨?_, fun hb => ?_⟩
    · rw [h1, hkind, commonRow, if_pos (.inl rfl)]
    · rw [h2, hword hb, hfirst hb, if_pos (.inl rfl)]
  · have hkmem : k ∈ List.range' 1 (maxWellNum - 1) :=
      List.mem_range'_1.2 ⟨Nat.one_le_iff_ne_zero.2 hk0, by unfold maxWellNum at hk ⊢; omega⟩
    have hcopied : ∀ j ∈ List.range' 1 (maxWellNum - 1), 1 ≤ j ∧ j < maxWellNum := by decide
    obtain ⟨h1, h2⟩ : _ ∧ (b2 = true → _) :=
      runEvents_copies List.nodup_range' hcopied hlen hkmem hx
    -- the rows have left this well's own cell
    have hne : ∀ e ∈ fileEvents env 0 b1 b2 pathMap1, e.wellIndex ≠ k := fun e he => by
      obtain ⟨c, -, rfl⟩ := List.mem_map.1 he
      exact fun h => hk0 h.symm
    obtain ⟨h3, h4⟩ := runEvents_of_ne hin1 hne (hxm ▸ hx)
    rw [← hm1, ← hxm, hnull] at h3
    rw [← hm1, ← hxm] at h4
    have hreach : (k = 0 ∨ x < flash1MaxLen) ↔ x < flash1MaxLen := or_iff_right hk0
    refine ⟨?_, fun hb => ?_⟩
    · simp only [h1, h3, hkind, commonRow, hreach]
      split <;> rfl
    · rw [← hxm] at hown
      simp only [h2 hb, h4, hword hb, hfirst hb, hown hb, hreach]

/-- A well after the type files of all wells: only its own counts. -/
theorem runEvents_types {env : Platform} {b2 : Bool} {T : Nat → UInt16} {k x : Nat} :
    ∀ {ks : List Nat} {m : MapT}, ks.Nodup → k ∈ ks → x < m.xMax →
    (∀ e ∈ ks.flatMap fun j => typeEvents env b2 j (T j), e.Inside m.xMax) →
    (runEvents (ks.flatMap fun j => typeEvents env b2 j (T j)) m).ramXMapType (k * m.xMax + x) =
        ((lastRow (fileCells env (bootPath env (T k))) x).map fun c => c.flags.mapType).getD
          (m.ramXMapType (k * m.xMax + x)) ∧
      (b2 = true → (runEvents (ks.flatMap fun j => typeEvents env b2 j (T j)) m).flash2
          (k * m.xMax + x) =
        lastDefault false x (fileCells env (bootPath env (T k)))
          (if x = 0 ∧ getMap00Path env (T k) = none then 1
          else m.flash2 (k * m.xMax + x))) := by
  intro ks
  induction ks with
  | nil => intro m _ hk; cases hk
  | cons j ks ih =>
      intro m hnd hk hx hin
      obtain ⟨hj, hnd⟩ := List.nodup_cons.1 hnd
      rw [List.flatMap_cons] at hin ⊢
      obtain ⟨hinj, hin⟩ := List.forall_mem_append.1 hin
      have hxm := runEvents_xMax (typeEvents env b2 j (T j)) m
      rw [runEvents_append]
      rw [← hxm] at hin
      rcases List.mem_cons.1 hk with rfl | hk
      -- the well's own file, and then those of the others
      · have hne : ∀ e ∈ ks.flatMap fun j => typeEvents env b2 j (T j), e.wellIndex ≠ k := by
          intro e he
          obtain ⟨j, hjk, he⟩ := List.mem_flatMap.1 he
          rw [wellIndex_of_mem_typeEvents he]
          exact fun h => hj (h ▸ hjk)
        obtain ⟨h1, h2⟩ := runEvents_of_ne hin hne (hxm.symm ▸ hx)
        rw [hxm] at h1 h2
        rw [h1, h2]
        exact runEvents_typeEvents
      · have hne : ∀ e ∈ typeEvents env b2 j (T j), e.wellIndex ≠ k := fun e he =>
          wellIndex_of_mem_typeEvents he ▸ fun h => hj (h ▸ hk)
        obtain ⟨h1, h2⟩ := runEvents_of_ne hinj hne hx
        have hrest := ih hnd hk (hxm.symm ▸ hx) hin
        rwa [hxm, h1, h2] at hrest

/-- **One cell of a boot**: its kind, and its word in a new second flash. -/
theorem boot_cell {env : Platform} {f1 f2 : Option FlashFile} {n : Nat} {m : MapT} {k x : Nat}
    (h : mapInit env f1 f2 n = some m) (hfit : LoadFits env m.xMax f1 f2) (hk : k < maxWellNum)
    (hx : x < m.xMax) :
    m.ramXMapType (k * m.xMax + x) =
        (((typeRow env m.xMax f1 f2 k x).or (commonRow env k x)).map
          fun c => c.flags.mapType).getD .null ∧
      ((flashOpen (m.xMax * maxWellNum) f2).1 = true → m.flash2 (k * m.xMax + x) =
        lastDefault false x (fileCells env (bootPath env (typeAtBoot env m.xMax f1 f2 k)))
          (if x = 0 ∧ getMap00Path env (typeAtBoot env m.xMax f1 f2 k) = none then 1
          else if k = 0 ∨ x < flash1MaxLen then
            lastDefault (flashOpen flash1MaxLen f1).1 x (fileCells env pathMap1) 0xFFFF
          else 0xFFFF)) := by
  have hrun := mapInit_runEvents h
  have hin := hfit.inside h
  obtain ⟨hpos, -⟩ := bootEvents_split h
  have hcells := hfit.typeCell h
  have hlen := hfit.block
  obtain ⟨X, hX⟩ : ∃ X, X = m.xMax := ⟨_, rfl⟩
  rw [← hX] at hrun hpos hcells hx hin hlen ⊢
  unfold bootEvents at hrun hin
  dsimp only at hrun hin
  obtain ⟨m0, hm0⟩ : ∃ m0, m0 = runEvents (commonEvents env (flashOpen flash1MaxLen f1).1
    (flashOpen (X * maxWellNum) f2).1) (bootStart X f1 f2) := ⟨_, rfl⟩
  have hx0 : m0.xMax = X := by
    rw [hm0, runEvents_xMax]
    rfl
  have ht0 : ∀ k ∈ List.range maxWellNum, m0.flash2 (k * m0.xMax) = typeAtBoot env X f1 f2 k := by
    intro k hk
    rw [hx0, hm0]
    exact common_type hpos (List.mem_range.1 hk)
  have hin0 : ∀ k ∈ List.range maxWellNum,
      ∀ c ∈ fileCells env (bootPath env (typeAtBoot env X f1 f2 k)), c.x.toNat < m0.xMax :=
    fun k hk c hc => hx0 ▸ hcells k (List.mem_range.1 hk) c hc
  rw [runEvents_append, ← hm0, wellsEvents_eq List.nodup_range (hx0 ▸ hpos) ht0 hin0] at hrun
  rw [← hm0, wellsEvents_eq List.nodup_range (hx0 ▸ hpos) ht0 hin0] at hin
  -- the common file
  obtain ⟨h1, h2⟩ := common_cell (m := bootStart X f1 f2)
    (fun e he => hin e (List.mem_append_left _ he)) hlen hk hx (fun _ => rfl)
    (fun hb a ha => flashOpen_new hb ha)
  rw [← hm0] at h1 h2
  -- the type files, of which only the well's own counts
  obtain ⟨h3, h4⟩ := runEvents_types (m := m0) List.nodup_range (List.mem_range.2 hk)
    (hx0.symm ▸ hx) fun e he => hx0.symm ▸ hin e (List.mem_append_right _ he)
  rw [hx0, ← hrun] at h3 h4
  refine ⟨?_, fun hb => ?_⟩
  · have hstart : m0.ramXMapType (k * X + x) = _ := h1
    rw [h3, hstart, typeRow]
    cases lastRow (fileCells env (bootPath env (typeAtBoot env X f1 f2 k))) x <;> rfl
  · have hstart : m0.flash2 (k * X + x) = _ := h2 hb
    rw [h4 hb, hstart]

/-- An event that can set the first flash. -/
def LoadEvent.setsFlash1 : LoadEvent → Bool
  | .row _ b1 _ _ => b1
  | _ => false

theorem runEvents_flash1 : ∀ {es : List LoadEvent} {m : MapT}, (∀ e ∈ es, e.setsFlash1 = false) →
    (runEvents es m).flash1 = m.flash1 := by
  intro es
  induction es with
  | nil => exact fun _ => rfl
  | cons e es ih =>
      intro m h
      obtain ⟨he, hes⟩ := List.forall_mem_cons.1 h
      rw [runEvents_cons, ih hes]
      cases e with
      | row k b1 b2 c =>
          obtain rfl : b1 = false := he
          exact if_neg fun hc => Bool.false_ne_true hc.2
      | copy b2 k => rfl
      | defaultType k => rfl

theorem setsFlash1_of_mem_wellsEvents {env : Platform} {b2 : Bool} {e : LoadEvent} :
    ∀ {ks : List Nat} {m : MapT}, e ∈ wellsEvents env b2 ks m → e.setsFlash1 = false := by
  intro ks
  induction ks with
  | nil => intro m he; cases he
  | cons k ks ih =>
      intro m he
      rcases List.mem_append.1 he with he | he
      · cases e with
        | row j b1 b2' c => exact (row_mem_typeEvents.1 he).2.1
        | copy b2' j => rfl
        | defaultType j => rfl
      · exact ih he

/-- Rows in a new first flash. -/
theorem foldl_loadCell_lastFlash1 {xb yb x : Nat} {b2 : Bool} {cs : List RowCell} {m : MapT} :
    (cs.foldl (loadCell xb yb true b2) m).flash1 x = lastFlash1 x cs (m.flash1 x) := by
  unfold lastFlash1
  induction cs generalizing m with
  | nil => rfl
  | cons c cs ih =>
      rw [List.foldl_cons, List.foldl_cons, ih]
      congr 1
      by_cases hkind : c.flags.mapType = .sys ∨ c.flags.mapType = .flash1
      · simp only [loadCell, hkind, and_true, if_true]
        by_cases hx : c.x.toNat = x
        · rw [if_pos hx, ← hx, Function.update_self]
        · rw [if_neg hx, Function.update_of_ne (Ne.symm hx)]
      · simp only [loadCell, hkind, false_and, and_false, if_false]

/-- The first flash is set by the common file alone. -/
theorem boot_flash1 {env : Platform} {f1 f2 : Option FlashFile} {n : Nat} {m : MapT} {x : Nat}
    (h : mapInit env f1 f2 n = some m) (hnew : (flashOpen flash1MaxLen f1).1 = true)
    (hx : x < flash1MaxLen) :
    m.flash1 x = lastFlash1 x (fileCells env pathMap1) 0xFFFF := by
  have hrun := congrFun (congrArg MapT.flash1 (mapInit_runEvents h)) x
  have hcopies : ∀ e ∈ (List.range' 1 (maxWellNum - 1)).map
      (LoadEvent.copy (flashOpen (m.xMax * maxWellNum) f2).1), e.setsFlash1 = false := by
    intro e he
    obtain ⟨j, -, rfl⟩ := List.mem_map.1 he
    rfl
  unfold bootEvents commonEvents at hrun
  dsimp only at hrun
  rw [runEvents_append, runEvents_append,
    runEvents_flash1 fun e he => setsFlash1_of_mem_wellsEvents he, runEvents_flash1 hcopies,
    runEvents_fileEvents, hnew, foldl_loadCell_lastFlash1] at hrun
  rw [hrun]
  exact congrArg _ (flashOpen_new hnew hx)

/-! ### What is read -/

/-- The readers of function-mapped cells that return a stored word of the second flash. -/
def StoredFun (x : Nat) : Prop :=
  x = mapChangeWellType ∨ (x = mapConfig2ElecInterv ∨ x = mapConfig2ActInterv) ∨
    (mapGetDO0 ≤ x ∧ x < mapGetDO0 + 8)

/-- The last row that defines a cell of a well, counted from 0. -/
def definingRow (env : Platform) (xMax : Nat) (f1 f2 : Option FlashFile) (k x : Nat) :
    Option RowCell :=
  (typeRow env xMax f1 f2 k x).or (commonRow env k x)

/-- The word a new second flash starts with in a cell: the default of its row. A type of the common
file that the table does not list is replaced by 1. -/
def startWord (env : Platform) (xMax : Nat) (f1 f2 : Option FlashFile) (k x : Nat) (c : RowCell) :
    UInt16 :=
  if x = mapChangeWellType ∧ typeRow env xMax f1 f2 k x = none ∧ getMap00Path env c.dV = none then 1
  else c.dV

/-- What the cells of a boot's new flash files read as, in the unit after it. -/
structure BootDefaults (env : Platform) (f1 f2 : Option FlashFile) (s : Rtu) : Prop where
  /-- A cell in the first flash: the default of the common file's row. -/
  flash1 : ∀ w x cur, 1 ≤ w → w ≤ maxWellNum → x < s.map.xMax →
    s.map.ramXMapType (s.map.xBase w + x) = .flash1 → (flashOpen flash1MaxLen f1).1 = true →
      ∃ c, definingRow env s.map.xMax f1 f2 (w - 1) x = some c ∧
        (typeRow env s.map.xMax f1 f2 (w - 1) x = none → readCell env s cur w x = c.dV) ∧
        (∀ d, lastRow (fileCells env pathMap1) x = some d → d.flags.mapType = .flash1 →
          readCell env s cur w x = d.dV) ∧
        (lastRow (fileCells env pathMap1) x = none → readCell env s cur w x = 0xFFFF)
  /-- A cell in the second flash: the default of its last row. -/
  flash2 : ∀ w x cur, 1 ≤ w → w ≤ maxWellNum → x < s.map.xMax →
    s.map.ramXMapType (s.map.xBase w + x) = .flash2 →
    (flashOpen (s.map.xMax * maxWellNum) f2).1 = true →
      ∃ c, definingRow env s.map.xMax f1 f2 (w - 1) x = some c ∧
        readCell env s cur w x = startWord env s.map.xMax f1 f2 (w - 1) x c
  /-- A function-mapped cell as well, except where the common file has set the first flash for
  it. -/
  sys : ∀ w x cur, 1 ≤ w → w ≤ maxWellNum → x < s.map.xMax →
    s.map.ramXMapType (s.map.xBase w + x) = .sys → StoredFun x →
    (flashOpen (s.map.xMax * maxWellNum) f2).1 = true →
      ∃ c, definingRow env s.map.xMax f1 f2 (w - 1) x = some c ∧
        (typeRow env s.map.xMax f1 f2 (w - 1) x ≠ none ∨ (flashOpen flash1MaxLen f1).1 = false →
          readCell env s cur w x = startWord env s.map.xMax f1 f2 (w - 1) x c)

section Read

variable {env : Platform} {f1 f2 : Option FlashFile} {n k x : Nat} {m : MapT}

/-- The type cells of a new second flash are the same in all wells. -/
theorem typeAtBoot_new {xMax : Nat} (hnew : (flashOpen (xMax * maxWellNum) f2).1 = true) :
    typeAtBoot env xMax f1 f2 k =
      lastDefault (flashOpen flash1MaxLen f1).1 0 (fileCells env pathMap1) 0xFFFF := by
  have hzero : ∀ c : RowCell, c.x.toNat = 0 ↔ c.x = 0 := fun c => UInt16.toNat_inj (b := 0)
  unfold typeAtBoot lastDefault
  simp only [hnew, if_true, hzero]

/-- The row that defines a cell gives it its kind. -/
theorem definingRow_of_kind {kind : MapKind} (h : mapInit env f1 f2 n = some m)
    (hfit : LoadFits env m.xMax f1 f2) (hk : k < maxWellNum) (hx : x < m.xMax)
    (hkind : m.ramXMapType (k * m.xMax + x) = kind) (hnull : kind ≠ .null) :
    ∃ c, definingRow env m.xMax f1 f2 k x = some c ∧ c.flags.mapType = kind := by
  rw [(boot_cell h hfit hk hx).1] at hkind
  unfold definingRow
  cases hrow : (typeRow env m.xMax f1 f2 k x).or (commonRow env k x) with
  | none =>
      rw [hrow] at hkind
      exact absurd hkind.symm hnull
  | some c =>
      rw [hrow] at hkind
      exact ⟨c, rfl, hkind⟩

/-- A cell that its row keeps in the first flash has its word there. -/
theorem StoreFits.of_definingRow {xMax : Nat} {c : RowCell} (hfit : StoreFits env xMax f1 f2)
    (hk : k < maxWellNum) (hrow : definingRow env xMax f1 f2 k x = some c)
    (hc : c.flags.mapType = .flash1) : x < flash1MaxLen := by
  rcases Option.or_eq_some_iff.1 hrow with htype | ⟨-, hcommon⟩
  · obtain ⟨hmem, rfl⟩ := lastRow_mem htype
    exact hfit.typeShared k hk c hmem hc
  · unfold commonRow at hcommon
    split at hcommon
    · obtain ⟨hmem, rfl⟩ := lastRow_mem hcommon
      exact hfit.commonShared c hmem hc
    · cases hcommon

/-- The word of a cell whose row sets the second flash. -/
theorem boot_startWord {c : RowCell} (h : mapInit env f1 f2 n = some m)
    (hfit : LoadFits env m.xMax f1 f2) (hk : k < maxWellNum) (hx : x < m.xMax)
    (hnew : (flashOpen (m.xMax * maxWellNum) f2).1 = true)
    (hrow : definingRow env m.xMax f1 f2 k x = some c)
    (hkind : c.flags.mapType = .sys ∨ c.flags.mapType = .flash2)
    (hsets : typeRow env m.xMax f1 f2 k x ≠ none ∨
      c.SetsFlash2 (flashOpen flash1MaxLen f1).1) :
    m.flash2 (k * m.xMax + x) = startWord env m.xMax f1 f2 k x c := by
  rw [(boot_cell h hfit hk hx).2 hnew]
  unfold startWord
  unfold definingRow at hrow
  unfold lastDefault
  cases htype : typeRow env m.xMax f1 f2 k x with
  | some d =>
      rw [htype] at hrow
      obtain rfl := Option.some.inj hrow
      rw [foldl_last htype ⟨fun hc => Bool.false_ne_true hc.2, hkind⟩]
      simp
  | none =>
      rw [htype, Option.none_or] at hrow
      have hset := hsets.resolve_left fun hn => hn htype
      -- the row of the common file reaches this well
      obtain ⟨hreach, hcommon⟩ : (k = 0 ∨ x < flash1MaxLen) ∧
          lastRow (fileCells env pathMap1) x = some c := by
        unfold commonRow at hrow
        split at hrow
        · exact ⟨‹_›, hrow⟩
        · cases hrow
      rw [foldl_last_none htype, if_pos hreach, foldl_last hcommon hset]
      by_cases hx0 : x = 0
      · subst hx0
        -- the type that the boot looks for in the table is this row's default
        have ht : typeAtBoot env m.xMax f1 f2 k = c.dV := by
          rw [typeAtBoot_new hnew]
          exact foldl_last hcommon hset
        simp [ht, mapChangeWellType]
      · simp [hx0, mapChangeWellType]

theorem mapMapFunRead_do {s : Rtu} {w : Nat} {cur : UInt16}
    (hdo : mapGetDO0 ≤ x ∧ x < mapGetDO0 + 8) :
    mapMapFunRead env s cur w x = some (s.map.flash2 (s.map.xBase 1 + x)) := by
  have hx := hdo
  simp only [mapGetDO0] at hx
  unfold mapMapFunRead
  rw [if_neg (by simp only [mapChangeWellType]; omega), if_neg (by simp only [mapGetRtuVer]; omega),
    if_neg (by simp only [mapGetTimeDay]; omega),
    if_neg (by simp only [mapGetBatteryVoltage]; omega),
    if_neg (by simp only [mapConfig1]; omega), if_neg (by simp only [mapGetMac0]; omega),
    if_neg (by simp only [mapConfig2ElecInterv, mapConfig2ActInterv]; omega),
    if_neg (by simp only [mapGetDI0]; omega), if_pos hdo]

/-- The readers that return a stored word: the well's own, or well 1's. -/
theorem readCell_stored {s : Rtu} {w : Nat} {cur : UInt16}
    (hkind : s.map.ramXMapType (s.map.xBase w + x) = .sys) (hx : StoredFun x) :
    readCell env s cur w x = s.map.flash2 (s.map.xBase w + x) ∨
      readCell env s cur w x = s.map.flash2 (s.map.xBase 1 + x) := by
  simp only [readCell, hkind]
  obtain rfl | (rfl | rfl) | hdo := hx
  · exact .inl rfl
  · exact .inl rfl
  · exact .inl rfl
  · refine .inr ?_
    rw [mapMapFunRead_do hdo]
    rfl

/-- In a new second flash the wells have the same rows, so a row of any well is one of well 1. -/
theorem definingRow_first {xMax : Nat} {c : RowCell}
    (hnew : (flashOpen (xMax * maxWellNum) f2).1 = true)
    (h : definingRow env xMax f1 f2 k x = some c) :
    typeRow env xMax f1 f2 0 x = typeRow env xMax f1 f2 k x ∧
      definingRow env xMax f1 f2 0 x = some c := by
  have htype : typeRow env xMax f1 f2 0 x = typeRow env xMax f1 f2 k x := by
    unfold typeRow
    rw [typeAtBoot_new hnew, typeAtBoot_new hnew]
  refine ⟨htype, ?_⟩
  unfold definingRow at h ⊢
  rw [htype]
  cases hrow : typeRow env xMax f1 f2 k x with
  | some d => rwa [hrow] at h
  | none =>
      rw [hrow, Option.none_or, commonRow] at h
      rw [Option.none_or, commonRow, if_pos (.inl rfl)]
      split at h
      · exact h
      · cases h

end Read

/-- **The defaults of a first boot.** -/
theorem boot_defaults (env : Platform) (f1 f2 : Option FlashFile) (n : Nat) (m : MapT) (s : Rtu)
    (h : mapInit env f1 f2 n = some m) (hfit : StoreFits env m.xMax f1 f2) (hs : s.map = m) :
    BootDefaults env f1 f2 s := by
  subst hs
  have hbase : ∀ w x, s.map.xBase w + x = (w - 1) * s.map.xMax + x := fun w x => by
    rw [MapT.xBase, Nat.mul_comm]
  have hwell : ∀ w, 1 ≤ w → w ≤ maxWellNum → w - 1 < maxWellNum := fun w hw hw8 => by omega
  have hload : LoadFits env s.map.xMax f1 f2 := hfit.toLoadFits
  constructor
  · -- the first flash, whose word the last row that names it has set
    intro w x cur hw hw8 hx hkind hnew
    obtain ⟨c, hrow, hc⟩ := definingRow_of_kind h hload (hwell w hw hw8) hx (hbase w x ▸ hkind)
      (by decide)
    have hread : readCell env s cur w x = s.map.flash1 x := by
      simp only [readCell, hkind]
    rw [hread, boot_flash1 h hnew (hfit.of_definingRow (hwell w hw hw8) hrow hc)]
    refine ⟨c, hrow, fun htype => ?_, fun d hd hflash => ?_, fun hnone => ?_⟩
    · unfold definingRow at hrow
      rw [htype, Option.none_or, commonRow] at hrow
      split at hrow
      · exact foldl_last hrow (.inr hc)
      · cases hrow
    · exact foldl_last hd (.inr hflash)
    · exact foldl_last_none hnone
  · -- the second flash
    intro w x cur hw hw8 hx hkind hnew
    obtain ⟨c, hrow, hc⟩ := definingRow_of_kind h hload (hwell w hw hw8) hx (hbase w x ▸ hkind)
      (by decide)
    have hread : readCell env s cur w x = s.map.flash2 (s.map.xBase w + x) := by
      simp only [readCell, hkind]
    refine ⟨c, hrow, ?_⟩
    rw [hread, hbase]
    exact boot_startWord h hload (hwell w hw hw8) hx hnew hrow (.inr hc)
      (.inr ⟨fun hsys => by simp [hc] at hsys, .inr hc⟩)
  · -- a function-mapped cell that keeps a word
    intro w x cur hw hw8 hx hkind hstored hnew
    obtain ⟨c, hrow, hc⟩ := definingRow_of_kind h hload (hwell w hw hw8) hx (hbase w x ▸ hkind)
      (by decide)
    refine ⟨c, hrow, fun hset => ?_⟩
    have hsets : typeRow env s.map.xMax f1 f2 (w - 1) x ≠ none ∨
        c.SetsFlash2 (flashOpen flash1MaxLen f1).1 := hset.imp_right fun h1 =>
      ⟨fun hboth => by simp [h1] at hboth, .inl hc⟩
    have hstart : ∀ k, typeRow env s.map.xMax f1 f2 0 x = typeRow env s.map.xMax f1 f2 k x →
        startWord env s.map.xMax f1 f2 0 x c = startWord env s.map.xMax f1 f2 k x c := by
      intro k hk
      unfold startWord
      rw [hk]
    obtain hread | hread : readCell env s cur w x = _ ∨ _ := readCell_stored hkind hstored
    · rw [hread, hbase]
      exact boot_startWord h hload (hwell w hw hw8) hx hnew hrow (.inl hc) hsets
    · -- an output is read from well 1, whose rows are the same
      obtain ⟨htype, hfirst⟩ := definingRow_first hnew hrow
      rw [hread, hbase, ← hstart (w - 1) htype]
      exact boot_startWord h hload (show 0 < maxWellNum by decide) hx hnew hfirst (.inl hc)
        (htype.symm ▸ hsets)

/-- A common file with a default type that the table does not list, and a type file with a cell in
the first flash. -/
def defaultFiles : Platform := .bare fun path =>
  if path = pathMap0 then some "1,/usr/share/map_001.csv".toList
  else if path = pathMap1 then some "0,40001,5,RW,SYS\n3,40004,118,WR,FLASH1".toList
  else if path = pathMap001 then some "4,40005,7,RW,FLASH1\n299,40300,9,RW,FLASH2".toList
  else none

/-- Its first boot. -/
def defaultBoot : MapT := (mapInit defaultFiles none none 0).get (by decide)

theorem defaultBoot_eq : mapInit defaultFiles none none 0 = some defaultBoot := by
  simp [defaultBoot]

theorem defaultBoot_xMax : defaultBoot.xMax = 300 := by decide +kernel

theorem defaultBoot_fits : StoreFits defaultFiles defaultBoot.xMax none none := by
  rw [defaultBoot_xMax]
  exact
    { block := by decide +kernel
      commonCell := by decide +kernel
      commonFlash1 := by decide +kernel
      commonRegister := by decide +kernel
      unlisted := by decide +kernel
      typeRegister := by decide +kernel
      commonShared := by decide +kernel
      typeShared := by decide +kernel }

theorem defaultBoot_defaults : BootDefaults defaultFiles none none (.start defaultBoot) :=
  boot_defaults defaultFiles none none 0 defaultBoot (.start defaultBoot) defaultBoot_eq
    defaultBoot_fits rfl

/-- An old first flash file. -/
def oldFlash1 : FlashFile := ⟨600, fun _ => 2⟩

/-- The same files booted over it. -/
def typeBoot : MapT := (mapInit defaultFiles (some oldFlash1) none 0).get (by decide)

theorem typeBoot_eq : mapInit defaultFiles (some oldFlash1) none 0 = some typeBoot := by
  simp [typeBoot]

/-- A common file with a cell of the second well's block, which no row defines for that well. -/
def spillFiles : Platform := .bare fun path =>
  if path = pathMap0 then some "1,/a\n2,/b".toList
  else if path = pathMap1 then some "0,40001,1,RW,SYS\n601,40002,8,RW,FLASH2".toList
  else if path = "/a".toList then some "4,40005,7,RW".toList
  else if path = "/b".toList then some "300,40301,9,RW,FLASH2".toList
  else none

/-- Its first boot over an old first flash. -/
def spillBoot : MapT := (mapInit spillFiles (some oldFlash1) none 0).get (by decide)

theorem spillBoot_eq : mapInit spillFiles (some oldFlash1) none 0 = some spillBoot := by
  simp [spillBoot]

/-- A type file's default does not reach the first flash, a type that is not listed does not
stand, and a row that does not fit its well defines a cell of the next. -/
theorem not_boot_defaults :
    (¬ ∀ (env : Platform) (f1 f2 : Option FlashFile) (n : Nat) (m : MapT) (s : Rtu),
      mapInit env f1 f2 n = some m → s.map = m → ∀ w x cur, 1 ≤ w → w ≤ maxWellNum → x < m.xMax →
      m.ramXMapType (m.xBase w + x) = .flash1 → (flashOpen flash1MaxLen f1).1 = true →
        ∃ c, definingRow env m.xMax f1 f2 (w - 1) x = some c ∧ readCell env s cur w x = c.dV) ∧
    (¬ ∀ (env : Platform) (f1 f2 : Option FlashFile) (n : Nat) (m : MapT) (s : Rtu),
      mapInit env f1 f2 n = some m → s.map = m → ∀ w x cur, 1 ≤ w → w ≤ maxWellNum → x < m.xMax →
      m.ramXMapType (m.xBase w + x) = .sys → StoredFun x →
      (flashOpen (m.xMax * maxWellNum) f2).1 = true →
        ∃ c, definingRow env m.xMax f1 f2 (w - 1) x = some c ∧ readCell env s cur w x = c.dV) ∧
    ¬ ∀ (env : Platform) (f1 f2 : Option FlashFile) (n : Nat) (m : MapT) (s : Rtu),
      mapInit env f1 f2 n = some m → s.map = m → ∀ w x cur, 1 ≤ w → w ≤ maxWellNum → x < m.xMax →
      m.ramXMapType (m.xBase w + x) = .flash2 →
      (flashOpen (m.xMax * maxWellNum) f2).1 = true →
        ∃ c, definingRow env m.xMax f1 f2 (w - 1) x = some c ∧ readCell env s cur w x = c.dV := by
  refine ⟨?_, ?_, ?_⟩
  · -- the type file's row sets nothing in the first flash
    intro h
    obtain ⟨c, hrow, hread⟩ := h defaultFiles none none 0 defaultBoot (.start defaultBoot)
      defaultBoot_eq rfl 1 4 0 (by decide) (by decide) (by decide +kernel) (by decide +kernel)
      (by decide)
    have hdefault : (definingRow defaultFiles defaultBoot.xMax none none 0 4).map RowCell.dV
        = some 7 := by decide +kernel
    have hword : readCell defaultFiles (.start defaultBoot) 0 1 4 = 0xFFFF := by decide +kernel
    rw [show definingRow defaultFiles defaultBoot.xMax none none 0 4 = some c from hrow, Option.map,
      ← hread, hword] at hdefault
    exact absurd hdefault (by decide)
  · -- the default type is not listed, so the wells get another one
    intro h
    obtain ⟨c, hrow, hread⟩ := h defaultFiles (some oldFlash1) none 0 typeBoot (.start typeBoot)
      typeBoot_eq rfl 1 0 0 (by decide) (by decide) (by decide +kernel) (by decide +kernel)
      (.inl rfl) (by decide +kernel)
    have hdefault : (definingRow defaultFiles typeBoot.xMax (some oldFlash1) none 0 0).map
        RowCell.dV = some 5 := by decide +kernel
    have hword : readCell defaultFiles (.start typeBoot) 0 1 0 = 1 := by decide +kernel
    rw [show definingRow defaultFiles typeBoot.xMax (some oldFlash1) none 0 0 = some c from hrow,
      Option.map, ← hread, hword] at hdefault
    exact absurd hdefault (by decide)
  · -- the row is past its own well, and no row of well 2 defines the cell
    intro h
    obtain ⟨c, hrow, -⟩ := h spillFiles (some oldFlash1) none 0 spillBoot (.start spillBoot)
      spillBoot_eq rfl 2 300 0 (by decide) (by decide) (by decide +kernel) (by decide +kernel)
      (by decide +kernel)
    have hnone : definingRow spillFiles spillBoot.xMax (some oldFlash1) none 1 300 = none := by
      decide +kernel
    exact Option.some_ne_none c (hrow.symm.trans hnone)

end RtuA118
