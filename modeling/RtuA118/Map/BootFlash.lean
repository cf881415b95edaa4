import RtuA118.Map.FlashAccess

/-!
# RtuA118.Map.BootFlash

What a boot does to the flash files it finds, and what of them it depends on.

A boot over existing files stores one kind of word: where a well's type is not in the table it
stores type 1 (`bootFrom_flash`). A boot that is broken off in between has done so for some wells.
The next boot does not see the difference: it depends on the words only as far as a boot would
leave them (`bootFrom_congr`, with `settle` for what a boot makes of a word).
-/

namespace RtuA118

open Mapped

/-- `map_init` over flash files with these words. -/
def bootFrom (env : Platform) (xMax : Nat) (g : FlashWord → UInt16) (msyncs : Nat) : Option MapT :=
  mapInit env (some ⟨2 * flash1MaxLen, fun i => g (.one i)⟩)
    (some ⟨2 * (xMax * maxWellNum), fun a => g (.two a)⟩) msyncs

/-- What it does to them: the types it replaces, and both calls of `msync`. -/
def bootAccesses (env : Platform) (xMax : Nat) (g : FlashWord → UInt16) (msyncs : Nat) :
    List FlashAccess :=
  (List.range maxWellNum).flatMap (fun k =>
    if (getMap00Path env (g (.two (k * xMax)))).isSome then [] else [.store (.two (k * xMax)) 1]) ++
  if env.msync msyncs then
    .sync FlashWord.inOne :: if env.msync (msyncs + 1) then [.sync FlashWord.inTwo] else []
  else []

/-- What the turns of the wells `ks` leave of a word of the second flash. -/
def settleTwo (env : Platform) (xMax : Nat) (ks : List Nat) (a : Nat) (v : UInt16) : UInt16 :=
  if a ∈ ks.map (· * xMax) then typeLeftBy env false v else v

/-- What a boot leaves of a word. -/
def settle (env : Platform) (xMax : Nat) : FlashWord → UInt16 → UInt16
  | .one _, v => v
  | .two a, v => settleTwo env xMax (List.range maxWellNum) a v

/-! ### Loading beside the second flash -/

def MapT.withFlash2 (m : MapT) (g : Nat → UInt16) : MapT := { m with flash2 := g }

section Frame

variable {xb yb : Nat} {b1 : Bool} {m : MapT} {g : Nat → UInt16}

theorem loadCell_withFlash2 {c : RowCell} :
    loadCell xb yb b1 false (m.withFlash2 g) c = (loadCell xb yb b1 false m c).withFlash2 g := by
  simp [loadCell, MapT.withFlash2]

theorem foldl_loadCell_withFlash2 {cs : List RowCell} :
    cs.foldl (loadCell xb yb b1 false) (m.withFlash2 g)
      = (cs.foldl (loadCell xb yb b1 false) m).withFlash2 g := by
  induction cs generalizing m with
  | nil => rfl
  | cons c cs ih => rw [List.foldl_cons, List.foldl_cons, loadCell_withFlash2, ih]

theorem foldl_copyWell_withFlash2 {ks : List Nat} :
    ks.foldl (copyWell false) (m.withFlash2 g) = (ks.foldl (copyWell false) m).withFlash2 g := by
  induction ks generalizing m with
  | nil => rfl
  | cons k ks ih =>
      rw [List.foldl_cons, List.foldl_cons, ← ih]
      rfl

theorem loadWords_withFlash2 {ws : List (List Char)} :
    loadWords xb yb b1 false ws (m.withFlash2 g) =
      ((loadWords xb yb b1 false ws m).1, (loadWords xb yb b1 false ws m).2.withFlash2 g) := by
  refine Prod.ext loadWords_fst ?_
  rw [loadWords_snd, foldl_loadCell_withFlash2, loadWords_snd]

/-- A load that sets no second flash is the same over any. -/
theorem ramMapFlash1ValueInit_withFlash2 {env : Platform} {path : List Char} {isFlash1 : Bool} :
    ramMapFlash1ValueInit env xb yb b1 false path isFlash1 (m.withFlash2 g) =
      ((ramMapFlash1ValueInit env xb yb b1 false path isFlash1 m).1,
        (ramMapFlash1ValueInit env xb yb b1 false path isFlash1 m).2.withFlash2 g) := by
  cases hread : env.readFile path with
  | none => simp [ramMapFlash1ValueInit, hread]
  | some text =>
      rw [ramMapFlash1ValueInit_of_readFile hread, ramMapFlash1ValueInit_of_readFile hread,
        loadWords_withFlash2]
      dsimp only
      refine Prod.ext rfl ?_
      dsimp only
      unfold loadedWords
      split
      · cases isFlash1 with
        | true => exact foldl_copyWell_withFlash2
        | false => rfl
      · rfl

theorem ramMapFlash1ValueInit_flash2 {env : Platform} {path : List Char} {isFlash1 : Bool} :
    (ramMapFlash1ValueInit env xb yb b1 false path isFlash1 m).2.flash2 = m.flash2 :=
  congrArg (fun r => r.2.flash2) (ramMapFlash1ValueInit_withFlash2 (m := m) (g := m.flash2))

end Frame

/-! ### The types -/

section Types

variable {env : Platform}

theorem typeLeftBy_of_listed {t : UInt16} {path : List Char} (h : getMap00Path env t = some path) :
    typeLeftBy env false t = t := by
  simp [typeLeftBy, h]

theorem typeLeftBy_of_unlisted {t : UInt16} (h : getMap00Path env t = none) :
    typeLeftBy env false t = 1 := by
  simp [typeLeftBy, h]

/-- A replaced type is not replaced again. -/
theorem typeLeftBy_idem (t : UInt16) :
    typeLeftBy env false (typeLeftBy env false t) = typeLeftBy env false t := by
  cases ht : getMap00Path env t with
  | some path => rw [typeLeftBy_of_listed ht, typeLeftBy_of_listed ht]
  | none =>
      rw [typeLeftBy_of_unlisted ht]
      cases h1 : getMap00Path env 1 with
      | some path => exact typeLeftBy_of_listed h1
      | none => exact typeLeftBy_of_unlisted h1

/-- A replaced type has the file it fell back on. -/
theorem bootPath_typeLeftBy (hdefault : ∀ path, getMap00Path env 1 = some path → path = pathMap001)
    (t : UInt16) : bootPath env (typeLeftBy env false t) = bootPath env t := by
  cases ht : getMap00Path env t with
  | some path => rw [typeLeftBy_of_listed ht]
  | none =>
      rw [typeLeftBy_of_unlisted ht]
      unfold bootPath
      rw [ht]
      cases h1 : getMap00Path env 1 with
      | none => rfl
      | some path => exact hdefault path h1

/-- The load of a well's file, without the choice of the file. -/
def loadFile (env : Platform) (k : Nat) (path : List Char) (m : MapT) : Option Int × MapT :=
  ramMapFlash1ValueInit env (k * m.xMax) (k * maxRegisterNum) false false path false m

theorem loadFile_withFlash2 (k : Nat) (path : List Char) (m : MapT) (g : Nat → UInt16) :
    loadFile env k path (m.withFlash2 g) =
      ((loadFile env k path m).1, (loadFile env k path m).2.withFlash2 g) :=
  ramMapFlash1ValueInit_withFlash2

/-- A well's turn loads a file into the tables and settles its type. -/
theorem loadWell_eq (k : Nat) (m : MapT) :
    loadWell env false k m =
      ((loadFile env k (bootPath env (m.flash2 (k * m.xMax))) m).1,
        (loadFile env k (bootPath env (m.flash2 (k * m.xMax))) m).2.withFlash2
          (Function.update m.flash2 (k * m.xMax)
            (typeLeftBy env false (m.flash2 (k * m.xMax))))) := by
  unfold loadWell wellTypePath bootPath
  cases ht : getMap00Path env (m.flash2 (k * m.xMax)) with
  | some path =>
      rw [typeLeftBy_of_listed ht, Function.update_eq_self]
      exact loadFile_withFlash2 k path m m.flash2
  | none =>
      rw [typeLeftBy_of_unlisted ht]
      exact loadFile_withFlash2 k pathMap001 m (Function.update m.flash2 (k * m.xMax) 1)

theorem loadFile_xMax (k : Nat) (path : List Char) (m : MapT) :
    (loadFile env k path m).2.xMax = m.xMax := by
  unfold loadFile
  rw [ramMapFlash1ValueInit_snd, foldl_loadCell_xMax]

theorem loadWell_xMax (k : Nat) (m : MapT) : (loadWell env false k m).2.xMax = m.xMax := by
  rw [loadWell_eq]
  exact loadFile_xMax k _ m

theorem loadWell_flash2 (k : Nat) (m : MapT) :
    (loadWell env false k m).2.flash2 =
      Function.update m.flash2 (k * m.xMax) (typeLeftBy env false (m.flash2 (k * m.xMax))) := by
  rw [loadWell_eq]
  rfl

theorem loadWells_cons (k : Nat) (ks : List Nat) (m : MapT) :
    loadWells env false (k :: ks) m =
      if (loadWell env false k m).1 = some 0 then loadWells env false ks (loadWell env false k m).2
      else loadWell env false k m := by
  rw [loadWells]
  split
  · rename_i m' h
    rw [h, if_pos rfl]
  · rename_i hne
    rw [if_neg fun h0 => hne _ (Prod.ext h0 rfl)]

/-- What the wells' turns load, and whether they all succeed, depends on the files of the types. -/
theorem loadWells_withFlash2
    (hdefault : ∀ path, getMap00Path env 1 = some path → path = pathMap001) :
    ∀ (ks : List Nat) {m : MapT} {g : Nat → UInt16},
    (∀ k ∈ ks, bootPath env (g (k * m.xMax)) = bootPath env (m.flash2 (k * m.xMax))) →
    (loadWells env false ks (m.withFlash2 g)).1 = (loadWells env false ks m).1 ∧
      ∀ h, (loadWells env false ks (m.withFlash2 g)).2.withFlash2 h =
        (loadWells env false ks m).2.withFlash2 h := by
  intro ks
  induction ks with
  | nil => intro m g _; exact ⟨rfl, fun _ => rfl⟩
  | cons k ks ih =>
      intro m g hg
      -- the turn of the first well
      have hturn : loadWell env false k (m.withFlash2 g) =
          ((loadWell env false k m).1, (loadWell env false k m).2.withFlash2
            (Function.update g (k * m.xMax) (typeLeftBy env false (g (k * m.xMax))))) := by
        have hpath : bootPath env ((m.withFlash2 g).flash2 (k * (m.withFlash2 g).xMax)) =
            bootPath env (m.flash2 (k * m.xMax)) := hg k List.mem_cons_self
        rw [loadWell_eq, loadWell_eq, hpath, loadFile_withFlash2]
        rfl
      rw [loadWells_cons, loadWells_cons, hturn]
      dsimp only
      split
      · refine ih fun j hj => ?_
        rw [loadWell_xMax, loadWell_flash2]
        by_cases hjk : j * m.xMax = k * m.xMax
        · rw [hjk, Function.update_self, Function.update_self, bootPath_typeLeftBy hdefault,
            bootPath_typeLeftBy hdefault, hg k List.mem_cons_self]
        · rw [Function.update_of_ne hjk, Function.update_of_ne hjk,
            hg j (List.mem_cons_of_mem _ hj)]
      · exact ⟨rfl, fun _ => rfl⟩

/-- All turns settle all types. -/
theorem loadWells_flash2 : ∀ {ks : List Nat} {m : MapT},
    (loadWells env false ks m).1 = some 0 →
    (loadWells env false ks m).2.flash2 = fun a => settleTwo env m.xMax ks a (m.flash2 a) := by
  intro ks
  induction ks with
  | nil => intro m _; rfl
  | cons k ks ih =>
      intro m h
      rw [loadWells_cons] at h ⊢
      by_cases h1 : (loadWell env false k m).1 = some 0
      · rw [if_pos h1] at h ⊢
        rw [ih h, loadWell_xMax, loadWell_flash2]
        funext a
        unfold settleTwo
        by_cases hak : a = k * m.xMax
        · subst hak
          rw [Function.update_self, typeLeftBy_idem, ite_self, List.map_cons,
            if_pos List.mem_cons_self]
        · simp [hak]
      · rw [if_neg h1] at h
        exact absurd h h1

end Types

/-! ### The boot -/

section Boot

variable {env : Platform} {k n : Nat} {g g' : FlashWord → UInt16}

/-- The table part of a boot over files of the right lengths. -/
theorem mapLoad_of_existing {xMax : UInt16} (f h : Nat → UInt16) (hx : getXYZMaxLen env = some xMax)
    (hx0 : xMax ≠ 0) :
    mapLoad env (some ⟨2 * flash1MaxLen, f⟩) (some ⟨2 * (xMax.toNat * maxWellNum), h⟩) =
      let r := ramMapFlash1ValueInit env 0 0 false false pathMap1 true (emptyMap xMax.toNat f h)
      if r.1 = some 0 then
        ((loadWells env false (List.range maxWellNum) r.2).1,
          some (loadWells env false (List.range maxWellNum) r.2).2)
      else (r.1, some r.2) := by
  unfold mapLoad
  rw [hx]
  dsimp only
  rw [if_neg hx0]
  simp only [flashOpen, if_true]
  split
  · rename_i m hr
    rw [hr, if_pos rfl]
    rfl
  · rename_i rc m hne hr
    rw [hr, if_neg fun h0 => hne h0]

theorem loadWells_flash1 : ∀ {ks : List Nat} {m : MapT},
    (loadWells env false ks m).2.flash1 = m.flash1 := by
  intro ks
  induction ks with
  | nil => intro m; rfl
  | cons k ks ih =>
      intro m
      have hturn : (loadWell env false k m).2.flash1 = m.flash1 := by
        rw [loadWell_eq]
        show (loadFile env k _ m).2.flash1 = _
        unfold loadFile
        rw [ramMapFlash1ValueInit_snd, foldl_loadCell_flash1]
      rw [loadWells_cons]
      split
      · rw [ih, hturn]
      · exact hturn

/-- Both flashes after a boot over files of the right lengths. -/
theorem bootFrom_flash {xMax : UInt16} {m : MapT} (hx : getXYZMaxLen env = some xMax)
    (h : bootFrom env xMax.toNat g n = some m) : m.flash = seen (settle env xMax.toNat) g := by
  obtain ⟨xMax', m1, hx', -, h1, h2⟩ := mapInit_ok h
  obtain rfl : xMax' = xMax := Option.some.inj (hx'.symm.trans hx)
  simp only [flashOpen, if_true] at h1 h2
  have hm1 := ramMapFlash1ValueInit_ok h1
  rw [if_pos rfl] at hm1
  -- the common file leaves both
  have hone : m1.flash1 = fun i => g (.one i) := by
    rw [hm1, foldl_copyWell_flash1, foldl_loadCell_flash1]
    rfl
  have htwo : m1.flash2 = fun a => g (.two a) :=
    (congrArg (fun r => r.2.flash2) h1).symm.trans ramMapFlash1ValueInit_flash2
  have hx1 : m1.xMax = xMax'.toNat := (commonTables_refines h1).2.2
  have hm : m = (loadWells env false (List.range maxWellNum) m1).2 :=
    (congrArg Prod.snd h2).symm
  have hok : (loadWells env false (List.range maxWellNum) m1).1 = some 0 := congrArg Prod.fst h2
  funext a
  cases a with
  | one i =>
      show m.flash1 i = g (.one i)
      rw [hm, loadWells_flash1, hone]
  | two a =>
      show m.flash2 a = settleTwo env xMax'.toNat (List.range maxWellNum) a (g (.two a))
      rw [hm, loadWells_flash2 hok, hx1, htwo]

/-- Boots with the same return code, and the same map where it is `0`. -/
theorem mapInit_congr {f1 f2 f1' f2' : Option FlashFile} {rc : Option Int} {m m' : MapT}
    (h : mapLoad env f1 f2 = (rc, some m)) (h' : mapLoad env f1' f2' = (rc, some m'))
    (hm : rc = some 0 → m = m') : mapInit env f1 f2 n = mapInit env f1' f2' n := by
  unfold mapInit
  rw [h, h']
  by_cases hrc : rc = some 0
  · rw [hm hrc]
  · split
    · rename_i heq
      exact absurd (congrArg Prod.fst heq) hrc
    · split
      · rename_i heq
        exact absurd (congrArg Prod.fst heq) hrc
      · rfl

/-- **A boot depends on what it would make of the words.** -/
theorem bootFrom_congr
    (hdefault : ∀ path, getMap00Path env 1 = some path → path = pathMap001)
    (hsame : seen (settle env k) g = seen (settle env k) g') :
    bootFrom env k g n = bootFrom env k g' n := by
  have hone : (fun i => g (.one i)) = fun i => g' (.one i) :=
    funext fun i => congrFun hsame (.one i)
  have htwo : ∀ a, settleTwo env k (List.range maxWellNum) a (g (.two a))
      = settleTwo env k (List.range maxWellNum) a (g' (.two a)) := fun a => congrFun hsame (.two a)
  unfold bootFrom
  rw [hone]
  cases hx : getXYZMaxLen env with
  | none => simp only [mapInit, mapLoad, hx]
  | some xMax =>
      by_cases hx0 : xMax = 0
      · simp only [mapInit, mapLoad, hx, if_pos hx0]
      by_cases hk : k = xMax.toNat
      · subst hk
        -- the common file, which looks at neither flash
        obtain ⟨m, hm⟩ : ∃ m, m = (ramMapFlash1ValueInit env 0 0 false false pathMap1 true
          (emptyMap xMax.toNat (fun i => g' (.one i)) fun a => g' (.two a))) := ⟨_, rfl⟩
        have hframe : ramMapFlash1ValueInit env 0 0 false false pathMap1 true
            (emptyMap xMax.toNat (fun i => g' (.one i)) fun a => g (.two a)) =
              (m.1, m.2.withFlash2 fun a => g (.two a)) :=
          hm ▸ ramMapFlash1ValueInit_withFlash2
            (m := emptyMap xMax.toNat (fun i => g' (.one i)) fun a => g' (.two a))
        have hload := mapLoad_of_existing (fun i => g' (.one i)) (fun a => g (.two a)) hx hx0
        have hload' := mapLoad_of_existing (fun i => g' (.one i)) (fun a => g' (.two a)) hx hx0
        dsimp only at hload hload'
        rw [hframe] at hload
        rw [← hm] at hload'
        by_cases hrc : m.1 = some 0
        · rw [if_pos hrc] at hload hload'
          obtain ⟨-, hf2, hx2⟩ := commonTables_refines (hm.symm.trans (Prod.ext hrc rfl))
          obtain ⟨hfst, hsnd⟩ := loadWells_withFlash2 hdefault (List.range maxWellNum)
            (g := fun a => g (.two a)) (m := m.2) fun j hj => by
              have hj' := htwo (j * xMax.toNat)
              unfold settleTwo at hj'
              rw [if_pos (List.mem_map_of_mem hj), if_pos (List.mem_map_of_mem hj)] at hj'
              rw [hx2, hf2, ← bootPath_typeLeftBy hdefault (g _), hj', bootPath_typeLeftBy hdefault]
          rw [hfst] at hload
          refine mapInit_congr hload hload' fun h0 => ?_
          have hflash := loadWells_flash2 (hfst.trans h0)
          rw [show (m.2.withFlash2 fun a => g (.two a)).xMax = xMax.toNat from hx2] at hflash
          have hflash' := loadWells_flash2 h0
          rw [hx2, hf2] at hflash'
          have hsame2 := hflash.trans ((funext htwo).trans hflash'.symm)
          have hmap := hsnd (loadWells env false (List.range maxWellNum) m.2).2.flash2
          rw [← hsame2] at hmap
          exact hmap.trans (by rw [hsame2]; rfl)
        · rw [if_neg hrc] at hload hload'
          exact mapInit_congr hload hload' fun h0 => absurd h0 hrc
      · -- a file of another length is written anew
        have hsize : ¬ 2 * (k * maxWellNum) = 2 * (xMax.toNat * maxWellNum) := fun heq =>
          hk (Nat.eq_of_mul_eq_mul_right (by decide) (Nat.eq_of_mul_eq_mul_left (by decide) heq))
        simp only [mapInit, mapLoad, hx, if_neg hx0, flashOpen, if_neg hsize]

/-- **A boot succeeds**, whatever the files hold. -/
theorem bootFrom_succeeds {xMax : UInt16} (hrel : env.Reliable) (hx : getXYZMaxLen env = some xMax)
    (hx0 : xMax ≠ 0) (g : FlashWord → UInt16) (n : Nat) :
    ∃ m, bootFrom env xMax.toNat g n = some m := by
  have hpath : ∀ t, Loads env (bootPath env t) := by
    intro t
    unfold bootPath
    cases ht : getMap00Path env t with
    | none => exact hrel.fallback
    | some path => exact hrel.listed t path ht
  have hwells : ∀ ks m, (loadWells env false ks m).1 = some 0 := by
    intro ks
    induction ks with
    | nil => intro m; rfl
    | cons k ks ih =>
        intro m
        have hturn : (loadWell env false k m).1 = some 0 := by
          rw [loadWell_eq]
          exact ramMapFlash1ValueInit_fst_iff.2 (hpath _)
        rw [loadWells_cons, if_pos hturn]
        exact ih _
  have hload := mapLoad_of_existing (fun i => g (.one i)) (fun a => g (.two a)) hx hx0
  dsimp only at hload
  rw [if_pos (ramMapFlash1ValueInit_fst_iff.2 hrel.common), hwells] at hload
  unfold bootFrom mapInit
  rw [hload]
  simp [hrel.synced]

/-! ### Its accesses -/

/-- A replaced type is a store. -/
theorem mem_bootAccesses {a : FlashWord} {v : UInt16}
    (h : Access.store a v ∈ bootAccesses env k g n) :
    ∃ j < maxWellNum, a = .two (j * k) ∧ v = 1 ∧ getMap00Path env (g a) = none := by
  rcases List.mem_append.1 h with h | h
  · obtain ⟨j, hj, h⟩ := List.mem_flatMap.1 h
    split at h
    · cases h
    · rename_i hnone
      cases List.mem_singleton.1 h
      exact ⟨j, List.mem_range.1 hj, rfl, rfl, Option.not_isSome_iff_eq_none.1 hnone⟩
  · split at h
    · rcases List.mem_cons.1 h with h | h
      · cases h
      · split at h
        · cases List.mem_singleton.1 h
        · cases h
    · cases h

/-- What the boot stores is what it would make of the word. -/
theorem settle_of_mem_bootAccesses {a : FlashWord} {v : UInt16}
    (h : Access.store a v ∈ bootAccesses env k g n) : settle env k a v = settle env k a (g a) := by
  obtain ⟨j, hj, rfl, rfl, hnone⟩ := mem_bootAccesses h
  have hmem : j * k ∈ (List.range maxWellNum).map (· * k) :=
    List.mem_map_of_mem (List.mem_range.2 hj)
  have hone : typeLeftBy env false 1 = 1 := by
    rw [← typeLeftBy_of_unlisted hnone, typeLeftBy_idem]
  show settleTwo env k _ _ _ = settleTwo env k _ _ _
  unfold settleTwo
  rw [if_pos hmem, if_pos hmem, hone, typeLeftBy_of_unlisted hnone]

theorem memAfter_types {f : FlashWord → UInt16} : ∀ {ks : List Nat},
    memAfter f (ks.flatMap fun j =>
      if (getMap00Path env (g (.two (j * k)))).isSome then [] else [.store (.two (j * k)) 1]) =
    fun a => if a ∈ ks.map (fun j => FlashWord.two (j * k)) ∧ getMap00Path env (g a) = none then 1
      else f a := by
  intro ks
  induction ks generalizing f with
  | nil => simp [memAfter]
  | cons j ks ih =>
      rw [List.flatMap_cons, memAfter_append, ih]
      funext a
      cases hj : getMap00Path env (g (.two (j * k))) with
      | some path =>
          by_cases ha : a = .two (j * k)
          · subst ha
            simp [memAfter, hj]
          · simp [memAfter, ha]
      | none =>
          by_cases ha : a = .two (j * k)
          · subst ha
            simp [memAfter, Access.onMem, hj]
          · simp [memAfter, Access.onMem, ha]

/-- The boot's accesses leave in memory what it makes of the words. -/
theorem memAfter_bootAccesses : memAfter g (bootAccesses env k g n) = seen (settle env k) g := by
  have hsync : ∀ f : FlashWord → UInt16, memAfter f (if env.msync n then
      .sync FlashWord.inOne :: if env.msync (n + 1) then [.sync FlashWord.inTwo] else []
      else []) = f := by
    intro f
    split
    · split <;> rfl
    · rfl
  unfold bootAccesses
  rw [memAfter_append, hsync, memAfter_types]
  funext a
  cases a with
  | one i => simp [seen, settle]
  | two a =>
      have hmem : FlashWord.two a ∈ (List.range maxWellNum).map (fun j => FlashWord.two (j * k)) ↔
          a ∈ (List.range maxWellNum).map (· * k) := by
        simp [List.mem_map]
      show _ = settleTwo env k (List.range maxWellNum) a (g (.two a))
      unfold settleTwo
      by_cases ha : a ∈ (List.range maxWellNum).map (· * k)
      · rw [if_pos ha]
        cases ht : getMap00Path env (g (.two a)) with
        | some path => rw [if_neg (by simp), typeLeftBy_of_listed ht]
        | none => rw [if_pos ⟨hmem.2 ha, rfl⟩, typeLeftBy_of_unlisted ht]
      · rw [if_neg fun h => ha (hmem.1 h.1), if_neg ha]

end Boot

end RtuA118
