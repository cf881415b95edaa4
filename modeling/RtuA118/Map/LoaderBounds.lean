import RtuA118.Map.BootEvents

/-!
# RtuA118.Map.LoaderBounds

Does the loader stay inside the store? Each event of a boot writes through pointers
to one well's blocks, with the indices of a row and without a test.

`boot_inside_iff` says when all of them are inside (`LoadFits`). The scan that sizes
the blocks takes care of the cells of listed types and of nothing else: not of the
300 cells that every well gets a copy of, not of the common file, not of a default
type that the table does not list, and of no register number.

Which type files a boot loads depends on the type cells (`typeAtBoot`), which an
event outside its block could change; both directions of the proof go from well to
well and use that the wells before stayed inside.
-/

namespace RtuA118

/-! ### Inside -/

namespace LoadEvent

/-- The cell index is below the block size. -/
def IndexInside (xMax : Nat) : LoadEvent → Prop
  | .row _ _ _ c => c.x.toNat < xMax
  | _ => True

/-- All that the event writes or copies is inside: its cell in the well's block, its
register among the well's registers, its word in the first flash, the copied cells in
both blocks. -/
def Inside (xMax : Nat) : LoadEvent → Prop
  | .row _ b1 _ c =>
    c.x.toNat < xMax ∧ c.y.toNat < maxRegisterNum ∧
      ((c.flags.mapType = .sys ∨ c.flags.mapType = .flash1) ∧ b1 = true →
        c.x.toNat < flash1MaxLen)
  | .copy _ k => k < maxWellNum ∧ flash1MaxLen ≤ xMax
  | .defaultType k => k < maxWellNum ∧ 0 < xMax

theorem Inside.index {xMax : Nat} {e : LoadEvent} (h : e.Inside xMax) : e.IndexInside xMax := by
  cases e with
  | row k b1 b2 c => exact h.1
  | copy b2 k => trivial
  | defaultType k => trivial

/-- All that the event writes or copies is inside the arrays, in whichever well's blocks, and a
cell kept in the first flash has its word there. -/
def InArrays (xMax : Nat) : LoadEvent → Prop
  | .row k b1 _ c =>
    c.Inside xMax (k * xMax) (k * maxRegisterNum) b1 ∧ c.HasWord xMax (k * xMax)
  | .copy _ k => k < maxWellNum ∧ k * xMax + flash1MaxLen ≤ xMax * maxWellNum
  | .defaultType k => k * xMax < xMax * maxWellNum

end LoadEvent

/-! ### The type cells at boot -/

/-- A row of the common file that sets a new second flash. -/
def RowCell.SetsFlash2 (b1 : Bool) (c : RowCell) : Prop :=
  ¬ ((c.flags.mapType = .sys ∨ c.flags.mapType = .flash1) ∧ b1 = true) ∧
    (c.flags.mapType = .sys ∨ c.flags.mapType = .flash2)

instance (b1 : Bool) (c : RowCell) : Decidable (c.SetsFlash2 b1) :=
  inferInstanceAs (Decidable (_ ∧ _))

/-- The type cell of a well when the boot comes to it: the flash file's, or in a new
flash the last default that the common file gives cell 0. -/
def typeAtBoot (env : Platform) (xMax : Nat) (flash1 flash2 : Option FlashFile) (k : Nat) :
    UInt16 :=
  if (flashOpen (xMax * maxWellNum) flash2).1 then
    (fileCells env pathMap1).foldl (fun t c =>
      if c.x = 0 ∧ c.SetsFlash2 (flashOpen flash1MaxLen flash1).1 then c.dV else t) 0xFFFF
  else (flashOpen (xMax * maxWellNum) flash2).2 (k * xMax)

theorem loadCell_flash2 {xb yb b : Nat} {b1 b2 : Bool} {m : MapT} {c : RowCell} :
    (loadCell xb yb b1 b2 m c).flash2 b =
      if b2 = true ∧ b = xb + c.x.toNat ∧ c.SetsFlash2 b1 then c.dV else m.flash2 b := by
  unfold loadCell RowCell.SetsFlash2
  dsimp only
  split
  · rename_i h
    rw [if_neg fun hc => hc.2.2.1 h]
  · rename_i h
    split
    · rename_i h2
      by_cases hb : b = xb + c.x.toNat
      · rw [if_pos ⟨h2.2, hb, h, h2.1⟩, hb, Function.update_self]
      · rw [if_neg fun hc => hb hc.2.1, Function.update_of_ne hb]
    · rename_i h2
      rw [if_neg fun hc => h2 ⟨hc.2.2.2, hc.1⟩]

/-- The second flash's word of cell `x` after rows, over one that held `v`. -/
def lastDefault (b1 : Bool) (x : Nat) (cs : List RowCell) (v : UInt16) : UInt16 :=
  cs.foldl (fun v c => if c.x.toNat = x ∧ c.SetsFlash2 b1 then c.dV else v) v

theorem foldl_loadCell_lastDefault {xb yb x : Nat} {b1 : Bool} {cs : List RowCell} {m : MapT} :
    (cs.foldl (loadCell xb yb b1 true) m).flash2 (xb + x)
      = lastDefault b1 x cs (m.flash2 (xb + x)) := by
  unfold lastDefault
  induction cs generalizing m with
  | nil => rfl
  | cons c cs ih =>
      have hx : xb + x = xb + c.x.toNat ↔ c.x.toNat = x := by omega
      rw [List.foldl_cons, List.foldl_cons, ih, loadCell_flash2]
      simp only [true_and, hx]

/-- Cell 0 of well 1 after rows. -/
theorem foldl_loadCell_type {b1 : Bool} {cs : List RowCell} {m : MapT} :
    (cs.foldl (loadCell 0 0 b1 true) m).flash2 0
      = cs.foldl (fun t c => if c.x = 0 ∧ c.SetsFlash2 b1 then c.dV else t) (m.flash2 0) := by
  have hzero : ∀ c : RowCell, c.x.toNat = 0 ↔ c.x = 0 := fun c => UInt16.toNat_inj (b := 0)
  have h : (cs.foldl (loadCell 0 0 b1 true) m).flash2 (0 + 0)
      = lastDefault b1 0 cs (m.flash2 (0 + 0)) := foldl_loadCell_lastDefault
  unfold lastDefault at h
  simpa only [hzero, Nat.zero_add] using h

/-- Copies leave what lies before their first target. -/
theorem foldl_copyWell_flash2_of_lt {n a b : Nat} {m : MapT} (hb : b < a * m.xMax) :
    ((List.range' a n).foldl (copyWell true) m).flash2 b = m.flash2 b := by
  induction n generalizing a m with
  | zero => rfl
  | succ n ih =>
      have hx : (copyWell true m a).xMax = m.xMax := rfl
      rw [List.range'_succ, List.foldl_cons, ih (by rw [hx, Nat.succ_mul]; omega)]
      exact Store.copy_of_lt hb

/-- Every copied well gets cell 0 of well 1. -/
theorem foldl_copyWell_type {n a k : Nat} {m : MapT} (hx : 0 < m.xMax) (ha : 1 ≤ a) (hk : a ≤ k)
    (hkn : k < a + n) :
    ((List.range' a n).foldl (copyWell true) m).flash2 (k * m.xMax) = m.flash2 0 := by
  induction n generalizing a m with
  | zero => omega
  | succ n ih =>
      have hxm : (copyWell true m a).xMax = m.xMax := rfl
      have hpos : 0 < a * m.xMax := Nat.mul_pos ha hx
      have h0 : (copyWell true m a).flash2 0 = m.flash2 0 := Store.copy_of_lt hpos
      have hself : (copyWell true m a).flash2 (a * m.xMax) = m.flash2 0 :=
        Store.copy_of_mem (k := 0) (show 0 < flash1MaxLen by decide)
      rw [List.range'_succ, List.foldl_cons]
      rcases Nat.eq_or_lt_of_le hk with rfl | hlt
      · rw [foldl_copyWell_flash2_of_lt (by rw [hxm, Nat.succ_mul]; omega), hself]
      · rw [← hxm, ih (by omega) (by omega) hlt (by omega), h0]

/-- A new file is all ones. -/
theorem flashOpen_new {len a : Nat} {f : Option FlashFile} (h : (flashOpen len f).1 = true)
    (ha : a < len) : (flashOpen len f).2 a = 0xFFFF := by
  unfold flashOpen at h ⊢
  cases f with
  | none => exact if_pos ha
  | some file =>
      dsimp only at h ⊢
      split at h
      · cases h
      · rename_i hsize
        rw [if_neg hsize]
        exact if_pos ha

theorem common_type {env : Platform} {xMax k : Nat} {f1 f2 : Option FlashFile} (hx : 0 < xMax)
    (hk : k < maxWellNum) :
    (runEvents (commonEvents env (flashOpen flash1MaxLen f1).1 (flashOpen (xMax * maxWellNum) f2).1)
      (bootStart xMax f1 f2)).flash2 (k * xMax) = typeAtBoot env xMax f1 f2 k := by
  have hxm : (bootStart xMax f1 f2).xMax = xMax := rfl
  unfold commonEvents typeAtBoot
  rw [runEvents_append, runEvents_copy, runEvents_fileEvents, hxm, Nat.zero_mul, Nat.zero_mul]
  cases hb : (flashOpen (xMax * maxWellNum) f2).1 with
  | false =>
      rw [foldl_copyWell_flash2, foldl_loadCell_flash2]
      rfl
  | true =>
      have hnew : (bootStart xMax f1 f2).flash2 0 = 0xFFFF :=
        flashOpen_new hb (Nat.mul_pos hx (by decide))
      rw [if_pos rfl, ← hnew, ← foldl_loadCell_type]
      have hxf : ((fileCells env pathMap1).foldl (loadCell 0 0 (flashOpen flash1MaxLen f1).1 true)
          (bootStart xMax f1 f2)).xMax = xMax := foldl_loadCell_xMax
      rcases Nat.eq_zero_or_pos k with rfl | hkpos
      · rw [Nat.zero_mul]
        exact foldl_copyWell_flash2_of_lt (by rw [hxf]; omega)
      · have h := foldl_copyWell_type (k := k) (a := 1) (n := maxWellNum - 1)
          (m := (fileCells env pathMap1).foldl (loadCell 0 0 (flashOpen flash1MaxLen f1).1 true)
            (bootStart xMax f1 f2)) (by rw [hxf]; exact hx) (Nat.le_refl 1) hkpos (by omega)
        rw [hxf] at h
        exact h

/-! ### The wells' files -/

/-- The well an event is about, counted from 0. -/
def LoadEvent.wellIndex : LoadEvent → Nat
  | .row k _ _ _ | .copy _ k | .defaultType k => k

theorem wellIndex_of_mem_typeEvents {env : Platform} {b2 : Bool} {k : Nat} {t : UInt16}
    {e : LoadEvent} (h : e ∈ typeEvents env b2 k t) : e.wellIndex = k := by
  unfold typeEvents fileEvents at h
  split at h
  · obtain ⟨c, -, rfl⟩ := List.mem_map.1 h
    rfl
  · rcases List.mem_cons.1 h with rfl | h
    · rfl
    · obtain ⟨c, -, rfl⟩ := List.mem_map.1 h
      rfl

section Wells

variable {env : Platform} {b2 : Bool}

theorem row_mem_typeEvents {k k' : Nat} {t : UInt16} {b1 b2' : Bool} {c : RowCell} :
    .row k' b1 b2' c ∈ typeEvents env b2 k t ↔
      k' = k ∧ b1 = false ∧ b2' = b2 ∧ c ∈ fileCells env (bootPath env t) := by
  unfold typeEvents bootPath fileEvents
  cases getMap00Path env t <;> simp <;> tauto

/-- A cell of well `k` is no type cell of another well. -/
theorem mul_ne_mul_add {x j k i : Nat} (hx : 0 < x) (hjk : j ≠ k) (hi : i < x) :
    j * x ≠ k * x + i := by
  simpa using Store.block_ne (k := j) hjk.symm hi hx

theorem foldl_loadCell_flash2_of_ne {xb yb a : Nat} {b1 : Bool} : ∀ {cs : List RowCell} {m : MapT},
    (∀ c ∈ cs, a ≠ xb + c.x.toNat) →
    (cs.foldl (loadCell xb yb b1 b2) m).flash2 a = m.flash2 a := by
  intro cs
  induction cs with
  | nil => intro m _; rfl
  | cons c cs ih =>
      intro m h
      rw [List.foldl_cons, ih fun d hd => h d (List.mem_cons_of_mem _ hd), loadCell_flash2,
        if_neg fun hc => h c List.mem_cons_self hc.2.1]

/-- Rows inside leave the type cells of the other wells. -/
theorem runEvents_typeEvents_flash2 {k j : Nat} {t : UInt16} {m : MapT} (hx : 0 < m.xMax)
    (hjk : j ≠ k) (hin : ∀ c ∈ fileCells env (bootPath env t), c.x.toNat < m.xMax) :
    (runEvents (typeEvents env b2 k t) m).flash2 (j * m.xMax) = m.flash2 (j * m.xMax) := by
  unfold typeEvents
  unfold bootPath at hin
  cases hp : getMap00Path env t with
  | some path =>
      rw [hp] at hin
      dsimp only
      rw [runEvents_fileEvents]
      exact foldl_loadCell_flash2_of_ne fun c hc => mul_ne_mul_add hx hjk (hin c hc)
  | none =>
      rw [hp] at hin
      have hmul : j * m.xMax ≠ k * m.xMax := fun h => hjk (Nat.eq_of_mul_eq_mul_right hx h)
      obtain ⟨m1, hm1⟩ : ∃ m1, m1 = LoadEvent.run m (.defaultType k) := ⟨_, rfl⟩
      have hx1 : m1.xMax = m.xMax := by
        rw [hm1]
        rfl
      have h1 : m1.flash2 (j * m.xMax) = m.flash2 (j * m.xMax) := by
        rw [hm1]
        exact Function.update_of_ne hmul _ _
      show (runEvents (fileEvents env k false b2 pathMap001)
        (LoadEvent.run m (.defaultType k))).flash2 (j * m.xMax) = _
      rw [← hm1, runEvents_fileEvents, ← h1]
      refine foldl_loadCell_flash2_of_ne fun c hc => ?_
      rw [hx1]
      exact mul_ne_mul_add hx hjk (hin c hc)

/-- As long as rows stay inside, each well loads the file of the type it started with. -/
theorem wellsEvents_eq {T : Nat → UInt16} : ∀ {ks : List Nat} {m : MapT}, ks.Nodup → 0 < m.xMax →
    (∀ k ∈ ks, m.flash2 (k * m.xMax) = T k) →
    (∀ k ∈ ks, ∀ c ∈ fileCells env (bootPath env (T k)), c.x.toNat < m.xMax) →
    wellsEvents env b2 ks m = ks.flatMap fun k => typeEvents env b2 k (T k) := by
  intro ks
  induction ks with
  | nil => intro m _ _ _ _; rfl
  | cons k ks ih =>
      intro m hnd hx ht hin
      obtain ⟨hk, hnd⟩ := List.nodup_cons.1 hnd
      have hxm := runEvents_xMax (typeEvents env b2 k (T k)) m
      rw [wellsEvents, List.flatMap_cons, ht k List.mem_cons_self]
      refine congrArg (_ ++ ·) (ih hnd (hxm ▸ hx) (fun j hj => ?_) fun j hj => ?_)
      · have hjk : j ≠ k := fun h => hk (h ▸ hj)
        rw [hxm, runEvents_typeEvents_flash2 hx hjk (hin k List.mem_cons_self)]
        exact ht j (List.mem_cons_of_mem _ hj)
      · rw [hxm]
        exact hin j (List.mem_cons_of_mem _ hj)

/-- Events inside come from rows inside. -/
theorem fileCells_of_wellsEvents {T : Nat → UInt16} : ∀ {ks : List Nat} {m : MapT}, ks.Nodup →
    0 < m.xMax → (∀ k ∈ ks, m.flash2 (k * m.xMax) = T k) →
    (∀ e ∈ wellsEvents env b2 ks m, e.IndexInside m.xMax) →
    ∀ k ∈ ks, ∀ c ∈ fileCells env (bootPath env (T k)), c.x.toNat < m.xMax := by
  intro ks
  induction ks with
  | nil => intro m _ _ _ _ k hk; cases hk
  | cons k ks ih =>
      intro m hnd hx ht hin
      obtain ⟨hk, hnd⟩ := List.nodup_cons.1 hnd
      have hxm := runEvents_xMax (typeEvents env b2 k (T k)) m
      rw [wellsEvents, ht k List.mem_cons_self] at hin
      have hown : ∀ c ∈ fileCells env (bootPath env (T k)), c.x.toNat < m.xMax := fun c hc =>
        hin (.row k false b2 c) (List.mem_append_left _ (row_mem_typeEvents.2 ⟨rfl, rfl, rfl, hc⟩))
      have hrest := ih hnd (hxm ▸ hx) (fun j hj => ?_) fun e he => by
        rw [hxm]
        exact hin e (List.mem_append_right _ he)
      · rw [hxm] at hrest
        intro j hj
        rcases List.mem_cons.1 hj with rfl | hj
        · exact hown
        · exact hrest j hj
      · rename_i hj
        have hjk : j ≠ k := fun h => hk (h ▸ hj)
        rw [hxm, runEvents_typeEvents_flash2 hx hjk hown]
        exact ht j (List.mem_cons_of_mem _ hj)

end Wells

/-! ### When a boot stays inside -/

/-- The files fit the store. -/
structure LoadFits (env : Platform) (xMax : Nat) (flash1 flash2 : Option FlashFile) : Prop where
  /-- A block holds the cells that are copied. -/
  block : flash1MaxLen ≤ xMax
  /-- The common file stays in its well, and in the first flash where it sets it. -/
  commonCell : ∀ c ∈ fileCells env pathMap1, c.x.toNat < xMax
  commonFlash1 : (flashOpen flash1MaxLen flash1).1 = true → ∀ c ∈ fileCells env pathMap1,
    c.flags.mapType = .sys ∨ c.flags.mapType = .flash1 → c.x.toNat < flash1MaxLen
  commonRegister : ∀ c ∈ fileCells env pathMap1, c.y.toNat < maxRegisterNum
  /-- The default type, where a well falls back on it, stays in the block. -/
  unlisted : ∀ k < maxWellNum, getMap00Path env (typeAtBoot env xMax flash1 flash2 k) = none →
    ∀ c ∈ fileCells env pathMap001, c.x.toNat < xMax
  /-- The registers of every type loaded are the well's. -/
  typeRegister : ∀ k < maxWellNum,
    ∀ c ∈ fileCells env (bootPath env (typeAtBoot env xMax flash1 flash2 k)),
      c.y.toNat < maxRegisterNum

/-- The files fit the store, and the cells that they keep in the first flash have their words
there. -/
structure StoreFits (env : Platform) (xMax : Nat) (flash1 flash2 : Option FlashFile) : Prop
    extends LoadFits env xMax flash1 flash2 where
  commonShared : ∀ c ∈ fileCells env pathMap1, c.flags.mapType = .flash1 →
    c.x.toNat < flash1MaxLen
  typeShared : ∀ k < maxWellNum,
    ∀ c ∈ fileCells env (bootPath env (typeAtBoot env xMax flash1 flash2 k)),
      c.flags.mapType = .flash1 → c.x.toNat < flash1MaxLen

section Fits

variable {env : Platform} {f1 f2 : Option FlashFile} {n : Nat} {m : MapT}

/-- The wells' events start from a map with the type cells of the boot. -/
theorem bootEvents_split (h : mapInit env f1 f2 n = some m) :
    0 < m.xMax ∧ ∃ m0 : MapT, m0.xMax = m.xMax ∧
      (∀ k ∈ List.range maxWellNum,
        m0.flash2 (k * m0.xMax) = typeAtBoot env m.xMax f1 f2 k) ∧
      bootEvents env m.xMax f1 f2
        = commonEvents env (flashOpen flash1MaxLen f1).1 (flashOpen (m.xMax * maxWellNum) f2).1 ++
          wellsEvents env (flashOpen (m.xMax * maxWellNum) f2).1 (List.range maxWellNum) m0 := by
  obtain ⟨xMax, m1, hx, hx0, -, -⟩ := mapInit_ok h
  obtain ⟨xMax', hx', hm⟩ := mapInit_xMax h
  obtain rfl : xMax' = xMax := Option.some.inj (hx'.symm.trans hx)
  have hpos : 0 < m.xMax := by
    rw [hm]
    exact Nat.pos_of_ne_zero fun h0 => hx0 (UInt16.toNat_inj.1 h0)
  have hxm0 : (runEvents (commonEvents env (flashOpen flash1MaxLen f1).1
      (flashOpen (m.xMax * maxWellNum) f2).1) (bootStart m.xMax f1 f2)).xMax = m.xMax := by
    rw [runEvents_xMax]
    rfl
  refine ⟨hpos, _, hxm0, fun k hk => ?_, rfl⟩
  rw [hxm0]
  exact common_type hpos (List.mem_range.1 hk)

/-- Files whose boot stays inside fit. -/
theorem LoadFits.of_inside (h : mapInit env f1 f2 n = some m)
    (hin : ∀ e ∈ bootEvents env m.xMax f1 f2, e.Inside m.xMax) : LoadFits env m.xMax f1 f2 := by
  obtain ⟨hpos, m0, hxm0, htypes, hboot⟩ := bootEvents_split h
  have hnd : (List.range maxWellNum).Nodup := List.nodup_range
  rw [hboot] at hin
  have hcommon : ∀ c ∈ fileCells env pathMap1, (LoadEvent.row 0 (flashOpen flash1MaxLen f1).1
      (flashOpen (m.xMax * maxWellNum) f2).1 c).Inside m.xMax :=
    fun c hc => hin _ (List.mem_append_left _ (List.mem_append_left _ (List.mem_map_of_mem hc)))
  have hcopy : (LoadEvent.copy (flashOpen (m.xMax * maxWellNum) f2).1 1).Inside m.xMax :=
    hin _ (List.mem_append_left _ (List.mem_append_right _
      (List.mem_map_of_mem (List.mem_range'_1.2 (by decide)))))
  have hwells := fun e he => hin e (List.mem_append_right _ he)
  have hrows := fileCells_of_wellsEvents hnd (hxm0 ▸ hpos) htypes fun e he =>
    hxm0 ▸ (hwells e he).index
  rw [wellsEvents_eq hnd (hxm0 ▸ hpos) htypes hrows] at hwells
  have htype : ∀ k < maxWellNum, ∀ c ∈ fileCells env
      (bootPath env (typeAtBoot env m.xMax f1 f2 k)),
      (LoadEvent.row k false (flashOpen (m.xMax * maxWellNum) f2).1 c).Inside m.xMax :=
    fun k hk c hc => hwells _ (List.mem_flatMap.2 ⟨k, List.mem_range.2 hk,
      row_mem_typeEvents.2 ⟨rfl, rfl, rfl, hc⟩⟩)
  exact {
    block := hcopy.2
    commonCell := fun c hc => (hcommon c hc).1
    commonFlash1 := fun hnew c hc hk => (hcommon c hc).2.2 ⟨hk, hnew⟩
    commonRegister := fun c hc => (hcommon c hc).2.1
    unlisted := fun k hk hnone c hc => (htype k hk c (by
      unfold bootPath
      rw [hnone]
      exact hc)).1
    typeRegister := fun k hk c hc => (htype k hk c hc).2.1 }

/-- Rows of the types loaded stay inside: listed types by the scan, the default by
assumption. -/
theorem LoadFits.typeCell (h : mapInit env f1 f2 n = some m) (hfit : LoadFits env m.xMax f1 f2) :
    ∀ k < maxWellNum, ∀ c ∈ fileCells env (bootPath env (typeAtBoot env m.xMax f1 f2 k)),
      c.x.toNat < m.xMax := by
  intro k hk c hc
  obtain ⟨xMax, hx, hm⟩ := mapInit_xMax h
  unfold bootPath at hc
  cases hp : getMap00Path env (typeAtBoot env m.xMax f1 f2 k) with
  | some path =>
      rw [hp] at hc
      have hx0 : xMax ≠ 0 := by
        rintro rfl
        exact absurd (bootEvents_split h).1 (by rw [hm]; decide)
      rw [hm]
      exact fileCells_lt_of_listed hx hx0 (listed_of_getMap00Path hp) c hc
  | none =>
      rw [hp] at hc
      exact hfit.unlisted k hk hp c hc

/-- The events of a boot of files that fit: rows of the common file, copies, replaced types and
rows of the types' files. -/
theorem LoadFits.mem_bootEvents (h : mapInit env f1 f2 n = some m)
    (hfit : LoadFits env m.xMax f1 f2) {e : LoadEvent} (he : e ∈ bootEvents env m.xMax f1 f2) :
    (∃ b2, ∃ c ∈ fileCells env pathMap1, e = .row 0 (flashOpen flash1MaxLen f1).1 b2 c) ∨
      (∃ b2, ∃ k < maxWellNum, e = .copy b2 k) ∨ (∃ k < maxWellNum, e = .defaultType k) ∨
      ∃ b2, ∃ k < maxWellNum, ∃ c ∈ fileCells env (bootPath env (typeAtBoot env m.xMax f1 f2 k)),
        e = .row k false b2 c := by
  obtain ⟨hpos, m0, hxm0, htypes, hboot⟩ := bootEvents_split h
  have hrows : ∀ k ∈ List.range maxWellNum, ∀ c ∈ fileCells env
      (bootPath env (typeAtBoot env m.xMax f1 f2 k)), c.x.toNat < m0.xMax :=
    fun k hk c hc => hxm0 ▸ hfit.typeCell h k (List.mem_range.1 hk) c hc
  rw [hboot, wellsEvents_eq List.nodup_range (hxm0 ▸ hpos) htypes hrows] at he
  rcases List.mem_append.1 he with he | he
  · rcases List.mem_append.1 he with he | he
    · obtain ⟨c, hc, rfl⟩ := List.mem_map.1 he
      exact .inl ⟨_, c, hc, rfl⟩
    · obtain ⟨k, hk, rfl⟩ := List.mem_map.1 he
      have hk := List.mem_range'_1.1 hk
      exact .inr (.inl ⟨_, k, by unfold maxWellNum at hk ⊢; omega, rfl⟩)
  · obtain ⟨k, hk, he⟩ := List.mem_flatMap.1 he
    have hk := List.mem_range.1 hk
    cases e with
    | row k' b1' b2' c =>
        obtain ⟨rfl, rfl, rfl, hc⟩ := row_mem_typeEvents.1 he
        exact .inr (.inr (.inr ⟨_, k', hk, c, hc, rfl⟩))
    | copy b2' k' =>
        unfold typeEvents fileEvents at he
        split at he <;> simp at he
    | defaultType k' =>
        obtain rfl : k' = k := wellIndex_of_mem_typeEvents he
        exact .inr (.inr (.inl ⟨k', hk, rfl⟩))

/-- A boot of files that fit stays inside. -/
theorem LoadFits.inside (h : mapInit env f1 f2 n = some m) (hfit : LoadFits env m.xMax f1 f2) :
    ∀ e ∈ bootEvents env m.xMax f1 f2, e.Inside m.xMax := by
  intro e he
  rcases hfit.mem_bootEvents h he with ⟨b2, c, hc, rfl⟩ | ⟨b2, k, hk, rfl⟩ | ⟨k, hk, rfl⟩ |
    ⟨b2, k, hk, c, hc, rfl⟩
  · exact ⟨hfit.commonCell c hc, hfit.commonRegister c hc,
      fun hset => hfit.commonFlash1 hset.2 c hc hset.1⟩
  · exact ⟨hk, hfit.block⟩
  · exact ⟨hk, (bootEvents_split h).1⟩
  · exact ⟨hfit.typeCell h k hk c hc, hfit.typeRegister k hk c hc,
      fun hset => absurd hset.2 Bool.false_ne_true⟩

/-- A boot inside the blocks of its wells is inside the arrays. -/
theorem StoreFits.inArrays (h : mapInit env f1 f2 n = some m)
    (hfit : StoreFits env m.xMax f1 f2) :
    ∀ e ∈ bootEvents env m.xMax f1 f2, e.InArrays m.xMax := by
  have hload : LoadFits env m.xMax f1 f2 := hfit.toLoadFits
  have hpos := (bootEvents_split h).1
  have hreg : ∀ {k j : Nat}, k < maxWellNum → j < maxRegisterNum →
      k * maxRegisterNum + j < maxRegisterNum * maxWellNum := Store.block_lt
  intro e he
  rcases hload.mem_bootEvents h he with ⟨b2, c, hc, rfl⟩ | ⟨b2, k, hk, rfl⟩ | ⟨k, hk, rfl⟩ |
    ⟨b2, k, hk, c, hc, rfl⟩
  · have hx := hload.commonCell c hc
    refine ⟨⟨Store.block_lt (by decide) hx, hreg (by decide) (hload.commonRegister c hc),
      fun hnew hset => hload.commonFlash1 hnew c hc hset⟩, fun hkept => ?_⟩
    rw [Nat.mul_add_mod_self_right, Nat.mod_eq_of_lt hx]
    exact hfit.commonShared c hc hkept
  · refine ⟨hk, ?_⟩
    have hlast := Store.block_lt hk (Nat.sub_one_lt_of_lt hpos)
    have hblock := hload.block
    omega
  · exact Store.block_lt hk hpos
  · have hx := hload.typeCell h k hk c hc
    refine ⟨⟨Store.block_lt hk hx, hreg hk (hload.typeRegister k hk c hc), nofun⟩, fun hkept => ?_⟩
    rw [Nat.mul_add_mod_self_right, Nat.mod_eq_of_lt hx]
    exact hfit.typeShared k hk c hc hkept

end Fits

/-- **The boot stays inside exactly when the files fit.** -/
theorem boot_inside_iff (env : Platform) (f1 f2 : Option FlashFile) (n : Nat) (m : MapT)
    (h : mapInit env f1 f2 n = some m) :
    (∀ e ∈ bootEvents env m.xMax f1 f2, e.Inside m.xMax) ↔ LoadFits env m.xMax f1 f2 :=
  ⟨LoadFits.of_inside h, LoadFits.inside h⟩

/-! ### The kinds of well 1 after a boot -/

/-- The kind that rows give cell `x` of a well. -/
def kindAfter (cs : List RowCell) (x : Nat) : MapKind :=
  Store.overlay (fun _ => .null) (Tables.cellWrites 0 RowFlags.mapType cs) x

theorem kindAfter_append {cs ds : List RowCell} {x : Nat} :
    kindAfter (cs ++ ds) x
      = Store.overlay (kindAfter cs) (Tables.cellWrites 0 RowFlags.mapType ds) x := by
  unfold kindAfter Tables.cellWrites
  rw [List.map_append, Store.overlay_append]

theorem LoadEvent.run_kind_of_lt {m : MapT} {e : LoadEvent} {x : Nat} (hx : x < m.xMax)
    (he : 1 ≤ e.wellIndex) : (e.run m).ramXMapType x = m.ramXMapType x := by
  have hlt : ∀ k, 1 ≤ k → x < k * m.xMax := fun k hk =>
    Nat.lt_of_lt_of_le hx (Nat.le_mul_of_pos_left _ hk)
  cases e with
  | row k b1 b2 c =>
      exact Function.update_of_ne (Nat.ne_of_lt (Nat.lt_add_right _ (hlt k he))) _ _
  | copy b2 k => exact Store.copy_of_lt (hlt k he)
  | defaultType k => rfl

theorem runEvents_kind_of_lt {x : Nat} : ∀ {es : List LoadEvent} {m : MapT}, x < m.xMax →
    (∀ e ∈ es, 1 ≤ e.wellIndex) → (runEvents es m).ramXMapType x = m.ramXMapType x := by
  intro es
  induction es with
  | nil => intro m _ _; rfl
  | cons e es ih =>
      intro m hx hes
      have hrest := ih (m := e.run m) (by rw [LoadEvent.run_xMax]; exact hx)
        fun e' he' => hes e' (List.mem_cons_of_mem _ he')
      exact hrest.trans (LoadEvent.run_kind_of_lt hx (hes e List.mem_cons_self))

theorem wellIndex_of_mem_wellsEvents {env : Platform} {b2 : Bool} {e : LoadEvent} :
    ∀ {ks : List Nat} {m : MapT}, e ∈ wellsEvents env b2 ks m → e.wellIndex ∈ ks := by
  intro ks
  induction ks with
  | nil => intro m h; cases h
  | cons k ks ih =>
      intro m h
      rcases List.mem_append.1 h with h | h
      · rw [wellIndex_of_mem_typeEvents h]
        exact List.mem_cons_self
      · exact List.mem_cons_of_mem _ (ih h)

theorem runEvents_fileEvents_kind {env : Platform} {b1 b2 : Bool} {path : List Char} {m : MapT} :
    (runEvents (fileEvents env 0 b1 b2 path) m).ramXMapType
      = Store.overlay m.ramXMapType
          (Tables.cellWrites 0 RowFlags.mapType (fileCells env path)) := by
  have htab : ((fileCells env path).foldl (loadCell 0 0 b1 b2) m).tables
      = m.tables.loadCells 0 0 (fileCells env path) := tables_foldl_loadCell
  rw [runEvents_fileEvents, Nat.zero_mul, Nat.zero_mul]
  exact congrArg Tables.ramXMapType htab

theorem runEvents_typeEvents_kind {env : Platform} {b2 : Bool} {t : UInt16} {m : MapT} :
    (runEvents (typeEvents env b2 0 t) m).ramXMapType
      = Store.overlay m.ramXMapType
          (Tables.cellWrites 0 RowFlags.mapType (fileCells env (bootPath env t))) := by
  unfold typeEvents bootPath
  cases getMap00Path env t with
  | some path => exact runEvents_fileEvents_kind
  | none => exact runEvents_fileEvents_kind

/-- Well 1 has the kinds of the common file and, over it, of its type. -/
theorem mapInit_kind {env : Platform} {f1 f2 : Option FlashFile} {n x : Nat} {m : MapT}
    (h : mapInit env f1 f2 n = some m) (hx : x < m.xMax) :
    m.ramXMapType x = kindAfter (fileCells env pathMap1 ++
      fileCells env (bootPath env (typeAtBoot env m.xMax f1 f2 0))) x := by
  obtain ⟨hpos, m0, hxm0, htypes, hboot⟩ := bootEvents_split h
  have ht := htypes 0 (List.mem_range.2 (by decide))
  have hwells : List.range maxWellNum = 0 :: List.range' 1 (maxWellNum - 1) := by decide
  rw [hwells, wellsEvents, ht] at hboot
  have hrun := congrFun (congrArg MapT.ramXMapType (mapInit_runEvents h)) x
  rw [hboot, commonEvents, runEvents_append, runEvents_append, runEvents_append] at hrun
  rw [hrun]
  -- the wells after the first, then the first, then the copies, then the common file
  rw [runEvents_kind_of_lt (by simp only [runEvents_xMax]; exact hx) fun e he =>
      (List.mem_range'_1.1 (wellIndex_of_mem_wellsEvents he)).1,
    runEvents_typeEvents_kind, kindAfter_append]
  refine Store.overlay_eq_iff.2 fun _ => ?_
  rw [runEvents_kind_of_lt (by simp only [runEvents_xMax]; exact hx) fun e he => ?_,
    runEvents_fileEvents_kind]
  · rfl
  · obtain ⟨k, hk, rfl⟩ := List.mem_map.1 he
    exact (List.mem_range'_1.1 hk).1

/-- One type of few cells: the scan gives blocks of eleven. -/
def fewCells : Platform := .bare fun path =>
  if path = pathMap0 then some "1,/a".toList
  else if path = pathMap1 then some "0,40001,1,RW,FLASH2".toList
  else if path = "/a".toList then some "10,40301,0,RW".toList
  else none

/-- Its first boot. -/
def fewBoot : MapT := (mapInit fewCells none none 0).get (by decide)

theorem fewBoot_eq : mapInit fewCells none none 0 = some fewBoot := by
  simp [fewBoot]

/-- The copies of 300 cells run over blocks of eleven. -/
theorem not_boot_inside : ¬ ∀ (env : Platform) (f1 f2 : Option FlashFile) (n : Nat) (m : MapT),
    mapInit env f1 f2 n = some m → ∀ e ∈ bootEvents env m.xMax f1 f2, e.Inside m.xMax := by
  intro h
  have hcopy := h fewCells none none 0 fewBoot fewBoot_eq (.copy true 1) (by decide)
  exact absurd hcopy.2 (by decide)

/-- The same boot, judged by its files. -/
theorem fewBoot_inside_iff : (∀ e ∈ bootEvents fewCells fewBoot.xMax none none,
    e.Inside fewBoot.xMax) ↔ LoadFits fewCells fewBoot.xMax none none :=
  boot_inside_iff fewCells none none 0 fewBoot fewBoot_eq

end RtuA118
