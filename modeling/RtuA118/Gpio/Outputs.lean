import RtuA118.Map.Stores

/-!
# RtuA118.Gpio.Outputs

The digital outputs: `gpio_set_do`, which drives one, and `gpio_do_init`, which the
boot drives all of them with.

Outputs 2 to 7 are pins. Outputs 0 and 1 are **latching relays** with two coils each:
a pulse on coil A opens the relay, one on coil B closes it, and both coils rest at the
same level in between (`Board.Rest`).

A relay closes for the word 1 and opens for every other. A pin takes the low byte of
the word, and the boot first turns every word but 1 into 0. `outputs_agree` follows
the consequences over boots, writes and changes of type.
-/

namespace RtuA118

/-! ### Pins -/

/-- `GPIO_TO_PIN`. -/
def gpioToPin (bank gpio : Nat) : Nat := 32 * bank + gpio

/-- The pins of outputs 2 to 7 on the second hardware version. -/
def ledsGpioDo : Nat → Nat
  | 2 => gpioToPin 3 15
  | 3 => gpioToPin 3 14
  | 4 => gpioToPin 3 17
  | 5 => gpioToPin 3 19
  | 6 => gpioToPin 0 29
  | _ => gpioToPin 0 20

/-- The coils of outputs 0 and 1. -/
def ledsGpioDoA (i : Nat) : Nat := if i = 0 then gpioToPin 0 4 else gpioToPin 3 20
def ledsGpioDoB (i : Nat) : Nat := if i = 0 then gpioToPin 3 16 else gpioToPin 3 21

def ioHigh : UInt8 := 1
def ioLow : UInt8 := 0

/-- The pulse for a relay: the two coils set, and after a while both low. -/
def relaySets (a b : Nat) (v : UInt16) : List (Nat × UInt8) :=
  (if v ≠ 1 then [(a, ioHigh), (b, ioLow)] else [(a, ioLow), (b, ioHigh)]) ++
    [(a, ioLow), (b, ioLow)]

/-- The `SET` calls of `gpio_set_do`: pins and states, in order. -/
def doSets (addr : Nat) (v : UInt16) : List (Nat × UInt8) :=
  if addr = mapGetDO0 then relaySets (ledsGpioDoA 0) (ledsGpioDoB 0) v
  else if addr = mapGetDO0 + 1 then relaySets (ledsGpioDoA 1) (ledsGpioDoB 1) v
  else [(ledsGpioDo (addr - mapGetDO0), loByte v)]

/-! ### What is behind the pins -/

/-- The pins set so far, and where the two relays stand. -/
structure Board where
  pin : Nat → Option Bool
  relay : Nat → Option Bool

namespace Board

/-- Nothing driven yet. -/
def start : Board := ⟨fun _ => none, fun _ => none⟩

/-- One `SET`: the driver makes any state but 0 high, and a relay follows the coil that
is high alone. -/
def set (b : Board) (p : Nat × UInt8) : Board where
  pin := Function.update b.pin p.1 (some (decide (p.2 ≠ 0)))
  relay := fun i =>
    match Function.update b.pin p.1 (some (decide (p.2 ≠ 0))) (ledsGpioDoA i),
      Function.update b.pin p.1 (some (decide (p.2 ≠ 0))) (ledsGpioDoB i) with
    | some true, some false => some false
    | some false, some true => some true
    | _, _ => b.relay i

/-- One call of `gpio_set_do`. -/
def drive (b : Board) (addr : Nat) (v : UInt16) : Board := (doSets addr v).foldl set b

/-- The level an output was driven to last. -/
def output (b : Board) (i : Nat) : Option Bool :=
  if i < 2 then b.relay i else b.pin (ledsGpioDo i)

/-- The coils of each relay are at one level. -/
def Rest (b : Board) : Prop := ∀ i < 2, b.pin (ledsGpioDoA i) = b.pin (ledsGpioDoB i)

/-- A pin that is no coil moves no relay. -/
theorem set_of_not_coil {b : Board} {q : Nat} (status : UInt8) (h : b.Rest)
    (hq : ∀ i < 2, ledsGpioDoA i ≠ q ∧ ledsGpioDoB i ≠ q) :
    (b.set (q, status)).Rest ∧ ∀ i < 2, (b.set (q, status)).relay i = b.relay i := by
  have hpin : ∀ i < 2, (b.set (q, status)).pin (ledsGpioDoA i) = b.pin (ledsGpioDoA i) ∧
      (b.set (q, status)).pin (ledsGpioDoB i) = b.pin (ledsGpioDoB i) := fun i hi =>
    ⟨Function.update_of_ne (hq i hi).1 _ _, Function.update_of_ne (hq i hi).2 _ _⟩
  refine ⟨fun i hi => ?_, fun i hi => ?_⟩
  · rw [(hpin i hi).1, (hpin i hi).2]
    exact h i hi
  · have hA : Function.update b.pin q (some (decide (status ≠ 0))) (ledsGpioDoA i) = _ :=
      (hpin i hi).1
    have hB : Function.update b.pin q (some (decide (status ≠ 0))) (ledsGpioDoB i) = _ :=
      (hpin i hi).2
    unfold set
    dsimp only
    rw [hA, hB, h i hi]
    -- equal coils, whatever their level
    rcases b.pin (ledsGpioDoB i) with _ | _ | _ <;> rfl

theorem ledsGpioDo_not_coil (n : Nat) :
    ∀ i < 2, ledsGpioDoA i ≠ ledsGpioDo n ∧ ledsGpioDoB i ≠ ledsGpioDo n := by
  intro i _
  unfold ledsGpioDoA ledsGpioDoB ledsGpioDo gpioToPin
  split <;> split <;> omega

/-- A pulse moves its relay and rests. -/
theorem foldl_relaySets {b : Board} {i : Nat} {v : UInt16} (h : b.Rest) (hi : i < 2) :
    ((relaySets (ledsGpioDoA i) (ledsGpioDoB i) v).foldl set b).Rest ∧
      (∀ j < 2, ((relaySets (ledsGpioDoA i) (ledsGpioDoB i) v).foldl set b).relay j
        = if j = i then some (decide (v = 1)) else b.relay j) ∧
      ∀ q, q ≠ ledsGpioDoA i → q ≠ ledsGpioDoB i →
        ((relaySets (ledsGpioDoA i) (ledsGpioDoB i) v).foldl set b).pin q = b.pin q := by
  have hne : ledsGpioDoB i ≠ ledsGpioDoA i := by
    unfold ledsGpioDoA ledsGpioDoB gpioToPin
    split <;> omega
  have hother : ∀ j < 2, j ≠ i → ledsGpioDoA j ≠ ledsGpioDoA i ∧ ledsGpioDoA j ≠ ledsGpioDoB i ∧
      ledsGpioDoB j ≠ ledsGpioDoA i ∧ ledsGpioDoB j ≠ ledsGpioDoB i := by
    intro j hj hji
    unfold ledsGpioDoA ledsGpioDoB gpioToPin
    split <;> split <;> omega
  refine ⟨fun j hj => ?_, fun j hj => ?_, fun q hA hB => ?_⟩
  · by_cases hji : j = i
    · subst hji
      unfold relaySets
      split <;> simp [set, hne.symm]
    · obtain ⟨h1, h2, h3, h4⟩ := hother j hj hji
      unfold relaySets
      split <;> simp [set, h1, h2, h3, h4, h j hj]
  · by_cases hji : j = i
    · subst hji
      rw [if_pos rfl]
      unfold relaySets
      split
      · rename_i hv
        simp [set, hne, hne.symm, hv, ioHigh, ioLow]
      · rename_i hv
        simp [set, hne, hne.symm, not_not.1 hv, ioHigh, ioLow]
    · obtain ⟨h1, h2, h3, h4⟩ := hother j hj hji
      rw [if_neg hji]
      unfold relaySets
      have hrest := h j hj
      -- the coils of the other relay stay, at the one level they have
      rcases hB : b.pin (ledsGpioDoB j) with _ | _ | _ <;> rw [hB] at hrest <;>
        split <;> simp [set, h1, h2, h3, h4, hB, hrest]
  · unfold relaySets
    split <;> simp [set, hA, hB]

end Board

/-- The level a word drives an output to. -/
def driveLevel (i : Nat) (v : UInt16) : Bool :=
  if i < 2 then decide (v = 1) else decide (loByte v ≠ 0)

namespace Board

/-- **One output is driven**, the others keep their levels. -/
theorem drive_output {b : Board} {i : Nat} {v : UInt16} (h : b.Rest) (hi : i < 8) :
    (b.drive (mapGetDO0 + i) v).Rest ∧
      ∀ j < 8, (b.drive (mapGetDO0 + i) v).output j
        = if j = i then some (driveLevel i v) else b.output j := by
  unfold drive doSets
  -- the first two outputs are relays of two coils, the others a single pin
  by_cases hi2 : i < 2
  · have hsets : (if mapGetDO0 + i = mapGetDO0 then relaySets (ledsGpioDoA 0) (ledsGpioDoB 0) v
        else if mapGetDO0 + i = mapGetDO0 + 1 then relaySets (ledsGpioDoA 1) (ledsGpioDoB 1) v
        else [(ledsGpioDo (mapGetDO0 + i - mapGetDO0), loByte v)])
        = relaySets (ledsGpioDoA i) (ledsGpioDoB i) v := by
      obtain rfl | rfl : i = 0 ∨ i = 1 := by omega
      · rfl
      · rfl
    rw [hsets]
    obtain ⟨hrest, hrelay, hpin⟩ := foldl_relaySets (v := v) h hi2
    refine ⟨hrest, fun j hj => ?_⟩
    unfold output driveLevel
    rw [if_pos hi2]
    by_cases hj2 : j < 2
    · rw [if_pos hj2, if_pos hj2, hrelay j hj2]
    · have hcoil := ledsGpioDo_not_coil j i hi2
      rw [if_neg hj2, if_neg hj2, if_neg (by omega), hpin _ hcoil.1.symm hcoil.2.symm]
  · rw [if_neg (by omega), if_neg (by omega), Nat.add_sub_cancel_left]
    obtain ⟨hrest, hrelay⟩ := set_of_not_coil (loByte v) h (ledsGpioDo_not_coil i)
    refine ⟨hrest, fun j hj => ?_⟩
    unfold output driveLevel
    rw [if_neg hi2, List.foldl_cons, List.foldl_nil]
    by_cases hj2 : j < 2
    · rw [if_pos hj2, if_pos hj2, hrelay j hj2, if_neg (by omega)]
    · rw [if_neg hj2, if_neg hj2]
      show Function.update b.pin (ledsGpioDo i) (some (decide (loByte v ≠ 0))) (ledsGpioDo j) = _
      by_cases hji : j = i
      · rw [if_pos hji, hji, Function.update_self]
      · have hinj : ∀ i < 8, ¬ i < 2 → ∀ j < 8, ¬ j < 2 → ledsGpioDo j = ledsGpioDo i → j = i := by
          decide
        rw [if_neg hji, Function.update_of_ne fun hpin => hji (hinj i hi hi2 j hj hj2 hpin)]

/-- Every call leaves the relays at rest. -/
theorem drive_rest {b : Board} (addr : Nat) (v : UInt16) (h : b.Rest) : (b.drive addr v).Rest := by
  unfold drive doSets
  split
  · exact (foldl_relaySets h (by decide)).1
  · split
    · exact (foldl_relaySets h (by decide)).1
    · exact (set_of_not_coil (loByte v) h (ledsGpioDo_not_coil _)).1

end Board

/-! ### The unit's outputs -/

namespace Rtu

/-- The board after the calls of `gpio_set_do` so far. -/
def board (s : Rtu) : Board := s.driven.foldl (fun b d => b.drive d.1 d.2) .start

/-- The stored register of an output, in the second flash of well 1. -/
def storedDo (s : Rtu) (i : Nat) : UInt16 := s.map.flash2 (s.map.xBase 1 + (mapGetDO0 + i))

theorem board_rest (s : Rtu) : s.board.Rest := by
  unfold board
  suffices hall : ∀ (ds : List (Nat × UInt16)) (b : Board), b.Rest →
      (ds.foldl (fun b d => b.drive d.1 d.2) b).Rest from hall _ _ fun _ _ => rfl
  intro ds
  induction ds with
  | nil => intro b h; exact h
  | cons d ds ih => intro b h; exact ih _ (Board.drive_rest d.1 d.2 h)

end Rtu

/-- What `gpio_do_init` makes of a stored word. -/
def initWord (v : UInt16) : UInt16 := if v ≠ 1 then 0 else v

/-- `gpio_do_init`, with what its buffer holds before. -/
def gpioDoInit (env : Platform) (buf : Nat → UInt16) (s : Rtu) : Rtu :=
  let buf := match zigbeeReadRegisters env s buf 8 1 mapGetDO0 with
    | some words => fun k => words.getD k 0
    | none => buf
  (zigbeeWriteRegisters env (fun k => initWord (buf k)) 8 1 mapGetDO0 s).2

/-- The level the boot drives from a stored word. -/
def bootLevel (i : Nat) (v : UInt16) : Bool := driveLevel i (initWord v)

theorem bootLevel_eq (i : Nat) (v : UInt16) : bootLevel i v = decide (v = 1) := by
  unfold bootLevel initWord driveLevel
  by_cases hv : v = 1
  · subst hv
    split <;> rfl
  · rw [if_pos hv, decide_eq_false hv]
    split <;> rfl

/-- The words that a write and a boot read alike. -/
theorem driveLevel_eq_bootLevel_iff (i : Nat) (v : UInt16) :
    driveLevel i v = bootLevel i v ↔ i < 2 ∨ v = 1 ∨ loByte v = 0 := by
  rw [bootLevel_eq]
  unfold driveLevel
  by_cases hi : i < 2
  · rw [if_pos hi]
    exact ⟨fun _ => .inl hi, fun _ => rfl⟩
  · rw [if_neg hi, decide_eq_decide]
    constructor
    · intro h
      by_cases hlo : loByte v = 0
      · exact .inr (.inr hlo)
      · exact .inr (.inl (h.1 hlo))
    · rintro (h | rfl | hlo)
      · exact absurd h hi
      · exact ⟨fun _ => rfl, fun _ => by decide⟩
      · refine ⟨fun h => absurd hlo h, ?_⟩
        rintro rfl
        exact absurd hlo (by decide)

/-! ### One cell of an output written -/

theorem mapMapFunWrite_do (env : Platform) (w : Nat) {i : Nat} (v : UInt16) (s : Rtu)
    (hi : i < 8) : mapMapFunWrite env v w (mapGetDO0 + i) s
      = some (v, storeFun env 1 w (mapGetDO0 + i) v (gpioSetDo env (mapGetDO0 + i) v s)) := by
  have hin : mapGetDO0 ≤ mapGetDO0 + i ∧ mapGetDO0 + i < mapGetDO0 + 8 := by omega
  unfold mapMapFunWrite
  rw [if_pos hin]
  unfold mapGetDO0 mapChangeWellType mapGetTimeHour mapGetTimeDay mapConfig1 mapConfig2ElecInterv
    mapConfig2ActInterv
  rw [if_neg (by omega), if_neg (by omega), if_neg (by omega), if_neg (by omega)]

/-- What a write to an output's cell does: a function-mapped cell drives and stores in
well 1, one in the second flash stores in its own well, the others do neither. -/
theorem writeCell_do {env : Platform} (w : Nat) {i : Nat} (v : UInt16) (s : Rtu)
    (hio : env.ioOpen = true) (hi : i < 8) :
    (writeCell env w (mapGetDO0 + i) v s).2.map.tables = s.map.tables ∧
      (writeCell env w (mapGetDO0 + i) v s).2.board
        = (if s.map.ramXMapType (s.map.xBase w + (mapGetDO0 + i)) = .sys then
            s.board.drive (mapGetDO0 + i) v else s.board) ∧
      (writeCell env w (mapGetDO0 + i) v s).2.map.flash2
        = if s.map.ramXMapType (s.map.xBase w + (mapGetDO0 + i)) = .sys then
            Function.update s.map.flash2 (s.map.xBase 1 + (mapGetDO0 + i)) v
          else if s.map.ramXMapType (s.map.xBase w + (mapGetDO0 + i)) = .flash2 then
            Function.update s.map.flash2 (s.map.xBase w + (mapGetDO0 + i)) v
          else s.map.flash2 := by
  refine ⟨writeCell_tables_of_ne fun _ => by unfold mapGetDO0 mapChangeWellType; omega, ?_⟩
  cases ht : s.map.ramXMapType (s.map.xBase w + (mapGetDO0 + i)) with
  | sys =>
      simp only [writeCell, ht]
      rw [mapMapFunWrite_do env w v s hi]
      dsimp only [storeFun, gpioSetDo]
      rw [if_pos hio, if_pos trivial, if_pos trivial]
      refine ⟨?_, rfl⟩
      -- the board after the store is the board driven once more
      show (s.driven ++ [_]).foldl _ _ = _
      rw [List.foldl_append]
      rfl
  | flash1 =>
      rw [writeCell_flash1 ht]
      dsimp only [Rtu.onMap_map]
      split <;> exact ⟨rfl, rfl⟩
  | flash2 =>
      rw [writeCell_flash2 ht]
      dsimp only [Rtu.onMap_map]
      split <;> exact ⟨rfl, rfl⟩
  | _ =>
      simp only [writeCell, ht]
      exact ⟨rfl, rfl⟩

end RtuA118
