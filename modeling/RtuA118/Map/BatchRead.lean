import RtuA118.Map.RegisterFile
import RtuA118.Modbus.Reply

/-!
# RtuA118.Map.BatchRead

One read request of `n` words against `n` requests of one word each.

The read loop has one scratch word, set to `0xFFFF` before the first turn and
never again. Most registers overwrite it; a register whose reader fails, or whose
cell kind the switch does not list, leaves what the register before it has left.
`Scratch` is what a register does to the scratch word, and a batch gives the words of
the single reads **exactly when no register lets another word through**
(`batchRead_eq_iff`).
-/

namespace RtuA118

/-! ### A word carried through a loop -/

/-- The words of a loop that hands each turn what the turn before it has left. -/
def carried {α : Type} (f : Nat → α → α) : Nat → Nat → α → List α
  | 0, _, _ => []
  | n + 1, i, a => f i a :: carried f n (i + 1) (f i a)

theorem carried_length {α : Type} {f : Nat → α → α} : ∀ {n i : Nat} {a : α},
    (carried f n i a).length = n := by
  intro n
  induction n with
  | zero => intro i a; rfl
  | succ n ih =>
      intro i a
      rw [carried, List.length_cons, ih]

/-- The turns come out as if each had started afresh from `a` exactly when each comes
out the same behind the one before it. -/
theorem carried_eq_iff {α : Type} {f : Nat → α → α} {a : α} : ∀ {n i : Nat} {b : α},
    (0 < n → f i b = f i a) →
    (carried f n i b = (List.range' i n).map (fun k => f k a) ↔
      ∀ k, i ≤ k → k + 1 < i + n → f (k + 1) (f k a) = f (k + 1) a) := by
  intro n
  induction n with
  | zero =>
      intro i b _
      exact ⟨fun _ k hi hk => absurd hk (by omega), fun _ => rfl⟩
  | succ n ih =>
      intro i b hb
      rw [carried, List.range'_succ, List.map_cons, hb n.succ_pos]
      constructor
      · intro h k hi hk
        have htail := List.cons.inj h |>.2
        have hnext : 0 < n → f (i + 1) (f i a) = f (i + 1) a := by
          intro hn
          obtain ⟨m, rfl⟩ := Nat.exists_eq_succ_of_ne_zero (Nat.ne_of_gt hn)
          rw [carried, List.range'_succ, List.map_cons] at htail
          exact (List.cons.inj htail).1
        rcases Nat.eq_or_lt_of_le hi with rfl | hlt
        · exact hnext (by omega)
        · exact (ih hnext).1 htail k hlt (by omega)
      · intro h
        have hnext : 0 < n → f (i + 1) (f i a) = f (i + 1) a := fun hn =>
          h i (Nat.le_refl i) (by omega)
        rw [(ih hnext).2 fun k hi hk => h k (by omega) (by omega)]

/-! ### What a register does to the scratch word -/

/-- A register overwrites the scratch word, leaves it, or leaves its lowest bit, turned
over: an input pin whose device is closed. -/
inductive Scratch where
  | word (v : UInt16)
  | leaves
  | leavesLow
  deriving DecidableEq, Repr

/-- The scratch word after the register. -/
def Scratch.run (cur : UInt16) : Scratch → UInt16
  | .word v => v
  | .leaves => cur
  | .leavesLow => (cur &&& 1) ^^^ 1

/-- The reader behind a function-mapped cell: the cell's own word where it has none. -/
def sysReader (env : Platform) (s : Rtu) (w i : Nat) : Scratch :=
  if i = mapGetBatteryVoltage ∧ env.adc = none then .leaves
  else if mapGetDI0 ≤ i ∧ i < mapGetDI0 + 8 ∧ env.ioOpen = false then .leavesLow
  else .word ((mapMapFunRead env s 0xFFFF w i).getD (s.map.ramX (s.map.xBase w + i)))

/-- The reader behind a cell. -/
def cellReader (env : Platform) (s : Rtu) (w i : Nat) : Scratch :=
  match s.map.ramXMapType (s.map.xBase w + i) with
  | .null | .ram => .word (s.map.ramX (s.map.xBase w + i))
  | .flash1 => .word (s.map.flash1 i)
  | .flash2 => .word (s.map.flash2 (s.map.xBase w + i))
  | .sys => sysReader env s w i
  | .record | .ro | .rw => .leaves

/-- The reader behind a register. -/
def registerReader (env : Platform) (s : Rtu) (w i : Nat) : Scratch :=
  match s.map.ramYMapType (yBase w + i) with
  | .null => .word (s.map.ramY (yBase w + i))
  | .ram =>
    if s.map.cellOf w i < s.map.xMax then cellReader env s w (s.map.cellOf w i) else .leaves
  | _ => .leaves

section Readers

variable {env : Platform} {s : Rtu} {w i : Nat} (cur : UInt16)

/-- `map_map_fun_read` looks at the word it finds in two cases alone. -/
theorem mapMapFunRead_congr {cur' : UInt16} (hv : ¬ i = mapGetBatteryVoltage)
    (hdi : ¬ (mapGetDI0 ≤ i ∧ i < mapGetDI0 + 8)) :
    mapMapFunRead env s cur w i = mapMapFunRead env s cur' w i := by
  unfold mapMapFunRead
  simp only [if_neg hv, if_neg hdi]

theorem mapMapFunRead_voltage :
    mapMapFunRead env s cur w mapGetBatteryVoltage = some (getBatteryVoltage env cur) := rfl

theorem mapMapFunRead_pin (hdi : mapGetDI0 ≤ i ∧ i < mapGetDI0 + 8) :
    mapMapFunRead env s cur w i = some (readDI env cur i) := by
  have hi := hdi
  simp only [mapGetDI0] at hi
  unfold mapMapFunRead
  rw [if_neg (by simp only [mapChangeWellType]; omega), if_neg (by simp only [mapGetRtuVer]; omega),
    if_neg (by simp only [mapGetTimeDay]; omega),
    if_neg (by simp only [mapGetBatteryVoltage]; omega),
    if_neg (by simp only [mapConfig1]; omega), if_neg (by simp only [mapGetMac0]; omega),
    if_neg (by simp only [mapConfig2ElecInterv, mapConfig2ActInterv]; omega), if_pos hdi]

theorem sysReader_run :
    (sysReader env s w i).run cur =
      (mapMapFunRead env s cur w i).getD (s.map.ramX (s.map.xBase w + i)) := by
  unfold sysReader
  by_cases hv : i = mapGetBatteryVoltage
  · subst hv
    rw [mapMapFunRead_voltage, mapMapFunRead_voltage]
    cases hadc : env.adc with
    | none => simp [Scratch.run, getBatteryVoltage, hadc]
    | some text =>
        rw [if_neg (by simp), if_neg (by simp [mapGetDI0, mapGetBatteryVoltage])]
        simp [Scratch.run, getBatteryVoltage, hadc]
  by_cases hdi : mapGetDI0 ≤ i ∧ i < mapGetDI0 + 8
  · rw [if_neg (fun h => hv h.1), mapMapFunRead_pin _ hdi, mapMapFunRead_pin _ hdi]
    cases hio : env.ioOpen with
    | false => simp [Scratch.run, readDI, hio, hdi]
    | true => simp [Scratch.run, readDI, hio]
  · rw [if_neg (fun h => hv h.1), if_neg (fun h => hdi ⟨h.1, h.2.1⟩)]
    exact congrArg (fun r : Option UInt16 => r.getD (s.map.ramX (s.map.xBase w + i)))
      (mapMapFunRead_congr 0xFFFF hv hdi)

theorem cellReader_run : (cellReader env s w i).run cur = readCell env s cur w i := by
  unfold cellReader readCell
  cases s.map.ramXMapType (s.map.xBase w + i) with
  | sys => exact sysReader_run cur
  | null => rfl
  | ram => rfl
  | flash1 => rfl
  | flash2 => rfl
  | record => rfl
  | ro => rfl
  | rw => rfl

/-- **A turn of the read loop is the register's reader.** -/
theorem registerReader_run (hw : 1 ≤ w) (hw8 : w ≤ 8) :
    (registerReader env s w i).run cur = readRegister env s cur w i := by
  unfold registerReader readRegister MapT.cellOf
  cases s.map.ramYMapType (yBase w + i) with
  | null => rfl
  | ram =>
      dsimp only
      rw [zigbeeReadRegisters_one hw hw8]
      split
      · exact cellReader_run cur
      · rfl
  | flash1 => rfl
  | flash2 => rfl
  | sys => rfl
  | record => rfl
  | ro => rfl
  | rw => rfl

end Readers

/-! ### One request or many -/

/-- The word of `next` is its own behind the register `before`. -/
def Scratch.Clean : Scratch → Scratch → Prop
  | _, .word _ => True
  | .word v, .leaves => v = 0xFFFF
  | .leaves, .leaves => True
  | .leavesLow, .leaves => False
  | .word v, .leavesLow => v &&& 1 = 1
  | .leaves, .leavesLow => True
  | .leavesLow, .leavesLow => False

/-- That is what it says: the scratch word starts as `0xFFFF`. -/
theorem Scratch.clean_iff (before next : Scratch) :
    Scratch.Clean before next ↔ next.run (before.run 0xFFFF) = next.run 0xFFFF := by
  cases next with
  | word v => exact iff_of_true trivial rfl
  | leaves =>
      cases before with
      | word v => rfl
      | leaves => exact iff_of_true trivial rfl
      | leavesLow => exact iff_of_false id (by decide)
  | leavesLow =>
      cases before with
      | word v =>
          exact (UInt16.xor_eq_zero_iff (a := v &&& 1) (b := 1)).symm
      | leaves => exact iff_of_true trivial rfl
      | leavesLow => exact iff_of_false id (by decide)

/-- The read loop is a word carried through the registers' readers. -/
theorem modbusReadLoop_eq_carried {env : Platform} {s : Rtu} {w : Nat} {bigL : Bool} :
    ∀ {n i : Nat} {rc : UInt16}, modbusReadLoop env s w bigL n i rc =
      (carried (fun i rc => readRegister env s rc w i) n i rc).map (orderWord bigL) := by
  intro n
  induction n with
  | zero => intro i rc; rfl
  | succ n ih =>
      intro i rc
      rw [modbusReadLoop, carried, List.map_cons, ih]

/-- The words of one request are the words of the single ones. -/
def BatchEqSingles (env : Platform) (s : Rtu) (n w addr : Nat) (bigL : Bool) : Prop :=
  ∃ ws, mapModbusReadRegisters env s n w addr bigL = some ws ∧
    ∀ k < n, mapModbusReadRegisters env s 1 w (addr + k : Nat) bigL = some [ws.getD k 0]

section Batch

variable {env : Platform} {s : Rtu} {n w addr : Nat} {bigL : Bool}

/-- A read of one register starts from `0xFFFF`. -/
theorem mapModbusReadRegisters_one (hw : 1 ≤ w) (hw8 : w ≤ maxWellNum)
    (ha : addr < maxRegisterNum) :
    mapModbusReadRegisters env s 1 w addr bigL =
      some [orderWord bigL (readRegister env s 0xFFFF w addr)] :=
  mapModbusReadRegisters_of_ok hw hw8 (Nat.le_refl 1) ha

/-- The comparison as one between lists. -/
theorem batchEqSingles_iff_carried (hw : 1 ≤ w) (hw8 : w ≤ maxWellNum) (hn : 1 ≤ n)
    (hlen : addr + n ≤ maxRegisterNum) :
    BatchEqSingles env s n w addr bigL ↔
      carried (fun i rc => readRegister env s rc w i) n addr 0xFFFF =
        (List.range' addr n).map fun i => readRegister env s 0xFFFF w i := by
  have hbatch : mapModbusReadRegisters env s n w addr bigL = some _ :=
    mapModbusReadRegisters_of_ok hw hw8 hn hlen
  obtain ⟨ws, hws⟩ : ∃ ws, ws = carried (fun i rc => readRegister env s rc w i) n addr 0xFFFF :=
    ⟨_, rfl⟩
  have hlength : ws.length = n := by rw [hws, carried_length]
  rw [modbusReadLoop_eq_carried, ← hws] at hbatch
  rw [← hws]
  constructor
  · rintro ⟨ws', hws', hsingle⟩
    obtain rfl := Option.some.inj (hbatch.symm.trans hws')
    refine List.ext_getElem (by simp [hlength]) fun k hk _ => ?_
    have h := hsingle k (by omega)
    rw [mapModbusReadRegisters_one hw hw8 (by omega)] at h
    have h := (List.cons.inj (Option.some.inj h)).1
    rw [List.getD_eq_getElem _ _ (by simpa using hk), List.getElem_map, orderWord_inj] at h
    simp [h]
  · intro h
    refine ⟨_, hbatch, fun k hk => ?_⟩
    rw [mapModbusReadRegisters_one hw hw8 (by omega), h]
    simp [hk]

end Batch

/-- **One read of `n` registers gives the words of `n` reads of one exactly when no
register lets the word before it through.** -/
theorem batchRead_eq_iff (env : Platform) (s : Rtu) {n w addr : Nat} (bigL : Bool) (hw : 1 ≤ w)
    (hw8 : w ≤ maxWellNum) (hn : 1 ≤ n) (hlen : addr + n ≤ maxRegisterNum) :
    BatchEqSingles env s n w addr bigL ↔
      ∀ k, addr ≤ k → k + 1 < addr + n →
        (registerReader env s w k).Clean (registerReader env s w (k + 1)) := by
  rw [batchEqSingles_iff_carried hw hw8 hn hlen, carried_eq_iff fun _ => rfl]
  refine forall_congr' fun k => imp_congr_right fun _ => imp_congr_right fun _ => ?_
  rw [Scratch.clean_iff, registerReader_run _ hw hw8, registerReader_run _ hw hw8,
    registerReader_run _ hw hw8]

/-- A unit without a converter: register 0 holds 5, the others show the battery
voltage. -/
def voltageUnit : Rtu :=
  .start
    { xMax := 300
      ramX := fun _ => 0
      ramXMapType := fun _ => .sys
      ramXMapRecord := fun _ => .null
      ramXMapRw := fun _ => .ro
      ramY := fun r => if r = 0 then 5 else 10
      ramYMapType := fun r => if r = 0 then .null else .ram
      flash1 := fun _ => 0
      flash2 := fun _ => 0 }

theorem voltageUnit_integrity : voltageUnit.map.Integrity := by
  refine ⟨fun w y _ _ _ _ => ?_, fun w y _ _ _ _ h => nomatch h⟩
  show (if yBase w + y = 0 then (5 : UInt16) else 10).toNat < 300
  split <;> decide

/-- The voltage reads as 5 behind register 0, and as `0xFFFF` alone. -/
theorem batchRead_ne_singles :
    ¬ ∀ (env : Platform) (s : Rtu) (n w addr : Nat) (bigL : Bool), s.map.Integrity → 1 ≤ w →
      w ≤ maxWellNum → 1 ≤ n → addr + n ≤ maxRegisterNum → BatchEqSingles env s n w addr bigL := by
  intro h
  obtain ⟨ws, hws, hsingle⟩ := h (.bare fun _ => none) voltageUnit 2 1 0 false
    voltageUnit_integrity (by decide) (by decide) (by decide) (by decide)
  have hbatch : mapModbusReadRegisters (.bare fun _ => none) voltageUnit 2 1 0 false =
      some [5, 5] := rfl
  have hone : mapModbusReadRegisters (.bare fun _ => none) voltageUnit 1 1 1 false =
      some [0xFFFF] := rfl
  obtain rfl := Option.some.inj (hbatch.symm.trans hws)
  exact absurd (hone.symm.trans (hsingle 1 (by decide))) (by decide)

/-- Two voltages read alike in one request: nothing has been in the scratch word. -/
theorem batchRead_eq_two : BatchEqSingles (.bare fun _ => none) voltageUnit 2 1 1 false := by
  refine (batchRead_eq_iff _ _ _ (by decide) (by decide) (by decide) (by decide)).2 ?_
  intro k hk hlt
  obtain rfl : k = 1 := by omega
  exact trivial

end RtuA118
