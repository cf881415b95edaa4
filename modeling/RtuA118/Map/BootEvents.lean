import RtuA118.Map.RemapBoot

/-!
# RtuA118.Map.BootEvents

The boot as the list of its table writes.

`bootEvents` names, in order, every row cell the boot loads, every copy of the common
part into another well and every type cell it falls back on; `mapInit_runEvents` says
that carrying them out is what the boot does. So what a boot writes where can be read
off the list.
-/

namespace RtuA118

/-! ### The events of a boot -/

/-- A write of the boot to the tables, in one well's blocks. -/
inductive LoadEvent where
  /-- One cell of a row. -/
  | row (wellIndex : Nat) (flash1IsNew flash2IsNew : Bool) (c : RowCell)
  /-- The common part copied to another well. -/
  | copy (flash2IsNew : Bool) (wellIndex : Nat)
  /-- The type cell of a well whose type is not in the table. -/
  | defaultType (wellIndex : Nat)
  deriving DecidableEq, Repr

namespace LoadEvent

/-- What the event does to the map. -/
def run (m : MapT) : LoadEvent → MapT
  | .row k b1 b2 c => loadCell (k * m.xMax) (k * maxRegisterNum) b1 b2 m c
  | .copy b2 k => copyWell b2 m k
  | .defaultType k => { m with flash2 := Function.update m.flash2 (k * m.xMax) 1 }

@[simp] theorem run_xMax (m : MapT) (e : LoadEvent) : (e.run m).xMax = m.xMax := by
  cases e <;> rfl

end LoadEvent

/-- The events in order. -/
def runEvents (es : List LoadEvent) (m : MapT) : MapT := es.foldl LoadEvent.run m

@[simp] theorem runEvents_xMax (es : List LoadEvent) (m : MapT) :
    (runEvents es m).xMax = m.xMax := by
  induction es generalizing m with
  | nil => rfl
  | cons e es ih =>
      exact (ih (e.run m)).trans (LoadEvent.run_xMax m e)

@[simp] theorem runEvents_cons (e : LoadEvent) (es : List LoadEvent) (m : MapT) :
    runEvents (e :: es) m = runEvents es (e.run m) := rfl

theorem runEvents_append (es es' : List LoadEvent) (m : MapT) :
    runEvents (es ++ es') m = runEvents es' (runEvents es m) := List.foldl_append

/-- The rows of a file, in one well. -/
def fileEvents (env : Platform) (k : Nat) (b1 b2 : Bool) (path : List Char) : List LoadEvent :=
  (fileCells env path).map (.row k b1 b2)

/-- The common file: its rows in well 1, then the copies. -/
def commonEvents (env : Platform) (b1 b2 : Bool) : List LoadEvent :=
  fileEvents env 0 b1 b2 pathMap1 ++ (List.range' 1 (maxWellNum - 1)).map (.copy b2)

/-- One well's type file for a type cell. -/
def typeEvents (env : Platform) (b2 : Bool) (k : Nat) (type : UInt16) : List LoadEvent :=
  match getMap00Path env type with
  | some path => fileEvents env k false b2 path
  | none => .defaultType k :: fileEvents env k false b2 pathMap001

/-- The type files of the wells, each by the type cell when its turn comes. -/
def wellsEvents (env : Platform) (b2 : Bool) : List Nat → MapT → List LoadEvent
  | [], _ => []
  | k :: ks, m =>
    let es := typeEvents env b2 k (m.flash2 (k * m.xMax))
    es ++ wellsEvents env b2 ks (runEvents es m)

/-- The map before the first event. -/
def bootStart (xMax : Nat) (flash1 flash2 : Option FlashFile) : MapT :=
  emptyMap xMax (flashOpen flash1MaxLen flash1).2 (flashOpen (xMax * maxWellNum) flash2).2

/-- All events of a boot with blocks of `xMax` cells. -/
def bootEvents (env : Platform) (xMax : Nat) (flash1 flash2 : Option FlashFile) : List LoadEvent :=
  let b1 := (flashOpen flash1MaxLen flash1).1
  let b2 := (flashOpen (xMax * maxWellNum) flash2).1
  commonEvents env b1 b2 ++ wellsEvents env b2 (List.range maxWellNum)
    (runEvents (commonEvents env b1 b2) (bootStart xMax flash1 flash2))

/-! ### The boot carries them out -/

theorem runEvents_fileEvents {env : Platform} {k : Nat} {b1 b2 : Bool} {path : List Char}
    {m : MapT} : runEvents (fileEvents env k b1 b2 path) m
      = (fileCells env path).foldl (loadCell (k * m.xMax) (k * maxRegisterNum) b1 b2) m := by
  unfold runEvents fileEvents
  induction fileCells env path generalizing m with
  | nil => rfl
  | cons c cs ih =>
      rw [List.map_cons, List.foldl_cons, List.foldl_cons, ih]
      rfl

theorem runEvents_copy {b2 : Bool} {ks : List Nat} {m : MapT} :
    runEvents (ks.map (.copy b2)) m = ks.foldl (copyWell b2) m := by
  unfold runEvents
  rw [List.foldl_map]
  rfl

theorem loadWell_events {env : Platform} {b2 : Bool} {k : Nat} {m m' : MapT}
    (h : loadWell env b2 k m = (some 0, m')) :
    m' = runEvents (typeEvents env b2 k (m.flash2 (k * m.xMax))) m := by
  have hrun : ramMapFlash1ValueInit env (k * (wellTypePath env k m).2.xMax) (k * maxRegisterNum)
      false b2 (wellTypePath env k m).1 false (wellTypePath env k m).2 = (some 0, m') := h
  have hm := ramMapFlash1ValueInit_ok hrun
  rw [if_neg Bool.false_ne_true] at hm
  subst hm
  unfold wellTypePath typeEvents
  cases getMap00Path env (m.flash2 (k * m.xMax)) with
  | some path => exact runEvents_fileEvents.symm
  | none => exact runEvents_fileEvents.symm

theorem loadWells_runEvents {env : Platform} {b2 : Bool} : ∀ {ks : List Nat} {m m' : MapT},
    loadWells env b2 ks m = (some 0, m') → m' = runEvents (wellsEvents env b2 ks m) m := by
  intro ks
  induction ks with
  | nil =>
      intro m m' h
      cases h
      rfl
  | cons k ks ih =>
      intro m m' h
      unfold loadWells at h
      split at h
      · rename_i m1 h1
        have hm1 := loadWell_events h1
        rw [ih h, hm1, wellsEvents, runEvents_append]
      · rename_i hne
        exact (hne m' h).elim

/-- The common file is its events. -/
theorem common_runEvents {env : Platform} {xMax : Nat} {f1 f2 : Option FlashFile} {m1 : MapT}
    (h : ramMapFlash1ValueInit env 0 0 (flashOpen flash1MaxLen f1).1
      (flashOpen (xMax * maxWellNum) f2).1 pathMap1 true
      (emptyMap xMax (flashOpen flash1MaxLen f1).2 (flashOpen (xMax * maxWellNum) f2).2)
        = (some 0, m1)) :
    m1 = runEvents (commonEvents env (flashOpen flash1MaxLen f1).1
      (flashOpen (xMax * maxWellNum) f2).1) (bootStart xMax f1 f2) := by
  have hm1 := ramMapFlash1ValueInit_ok h
  rw [if_pos rfl] at hm1
  rw [commonEvents, runEvents_append, runEvents_fileEvents, runEvents_copy, hm1, Nat.zero_mul,
    Nat.zero_mul]
  rfl

/-- **The boot is its events.** -/
theorem mapInit_runEvents {env : Platform} {f1 f2 : Option FlashFile} {n : Nat} {m : MapT}
    (h : mapInit env f1 f2 n = some m) :
    m = runEvents (bootEvents env m.xMax f1 f2) (bootStart m.xMax f1 f2) := by
  obtain ⟨xMax, m1, hx, hx0, h1, h2⟩ := mapInit_ok h
  obtain ⟨xMax', hx', hm⟩ := mapInit_xMax h
  obtain rfl : xMax' = xMax := Option.some.inj (hx'.symm.trans hx)
  have hcommon := common_runEvents h1
  unfold bootEvents
  dsimp only
  rw [runEvents_append, hm, ← hcommon]
  exact loadWells_runEvents h2

end RtuA118
