import RtuA118.Map.Access

/-!
# RtuA118.Map.Modbus

External access to the register map: the register numbers a Modbus request
names, and the cells behind them.

A register is either **unmapped** (kind `null`), a word of its own in `ram_y`, or
**mapped** (kind `ram`), and then its word in `ram_y` is the index of a cell.

The write loop carries two cursors, the register and the word it takes. It is
given here as the state after `n` turns, beside which the list of what landed
where is kept: it names the words that reached a register, in order, and the
function-mapped write each of them triggered.
-/

namespace RtuA118

/-- The guard of the two external access functions. -/
def registerArgsOk (len wellNum addr : Int) : Bool :=
  !(decide (wellNum > maxWellNum) || decide (wellNum < 1) || decide (addr < 0) || decide (len < 1)
    || decide (addr + len > maxRegisterNum))

theorem registerArgsOk_iff {len wellNum addr : Int} :
    registerArgsOk len wellNum addr = true ↔
      wellNum ≤ 8 ∧ 1 ≤ wellNum ∧ 0 ≤ addr ∧ 1 ≤ len ∧ addr + len ≤ 10000 := by
  have h8 : (maxWellNum : Int) = 8 := rfl
  have hr : (maxRegisterNum : Int) = 10000 := rfl
  simp only [registerArgsOk, Bool.not_eq_true', Bool.or_eq_false_iff, decide_eq_false_iff_not,
    and_assoc]
  omega

/-- A word in the requested byte order, from or to memory. -/
def orderWord (bigL : Bool) (v : UInt16) : UInt16 := if bigL then swapInt16 v else v

theorem orderWord_orderWord (bigL : Bool) (v : UInt16) :
    orderWord bigL (orderWord bigL v) = v := by
  cases bigL <;> simp [orderWord]

theorem orderWord_inj {bigL : Bool} {u v : UInt16} :
    orderWord bigL u = orderWord bigL v ↔ u = v := by
  unfold orderWord
  constructor
  · intro h
    cases bigL with
    | false => exact h
    | true => simpa using congrArg swapInt16 h
  · rintro rfl
    rfl

/-! ### `map_modbus_read_registers` -/

/-- The word of register `i`, into a word that holds `rc`. A cell index outside
the block leaves it. -/
def readRegister (env : Platform) (s : Rtu) (rc : UInt16) (w i : Nat) : UInt16 :=
  let y := s.map.ramY (yBase w + i)
  match s.map.ramYMapType (yBase w + i) with
  | .null => y
  | .ram =>
    match zigbeeReadRegisters env s (fun _ => rc) 1 w y.toNat with
    | some (v :: _) => v
    | _ => rc
  | _ => rc

/-- The read loop: `n` registers from `i` on, the word before them in `rc`. -/
def modbusReadLoop (env : Platform) (s : Rtu) (w : Nat) (bigL : Bool) :
    Nat → Nat → UInt16 → List UInt16
  | 0, _, _ => []
  | n + 1, i, rc =>
    let rc := readRegister env s rc w i
    orderWord bigL rc :: modbusReadLoop env s w bigL n (i + 1) rc

/-- `map_modbus_read_registers`: the words put into the buffer; `none` for `-1`. -/
def mapModbusReadRegisters (env : Platform) (s : Rtu) (len wellNum addr : Int) (bigL : Bool) :
    Option (List UInt16) :=
  if registerArgsOk len wellNum addr then
    some (modbusReadLoop env s wellNum.toNat bigL len.toNat addr.toNat 0xFFFF)
  else none

theorem modbusReadLoop_length {env : Platform} {s : Rtu} {w : Nat} {bigL : Bool} :
    ∀ {n i : Nat} {rc : UInt16}, (modbusReadLoop env s w bigL n i rc).length = n := by
  intro n
  induction n with
  | zero => intro i rc; rfl
  | succ n ih =>
      intro i rc
      rw [modbusReadLoop, List.length_cons, ih]

/-! ### `map_modbus_write_registers` -/

/-- A word that reached a register, with the index of the function-mapped write
it triggered. -/
structure Landing where
  reg : Nat
  word : UInt16
  call : Option Nat
  deriving DecidableEq, Repr

/-- The cell a mapped register leads to. -/
def MapT.cellOf (m : MapT) (w i : Nat) : Nat := (m.ramY (yBase w + i)).toNat

/-- The function-mapped write that storing into cell `x` triggers. -/
def callOf (env : Platform) (w x : Nat) (v : UInt16) (s : Rtu) : Option Nat :=
  if s.map.ramXMapType (s.map.xBase w + x) = .sys ∧ (mapMapFunWrite env v w x s).isSome then some x
  else none

/-- The position of the write loop: register cursor, word cursor, what has landed
and the unit. -/
structure WriteLoop where
  i : Nat
  p : Nat
  landed : List Landing
  rtu : Rtu

/-- One turn of the write loop. A read-only register leaves by `continue`, past
the step of the word cursor. -/
def WriteLoop.turn (env : Platform) (buf : Nat → UInt16) (bigL : Bool) (w : Nat) (c : WriteLoop) :
    WriteLoop :=
  let v := orderWord bigL (buf c.p)
  let m := c.rtu.map
  let x := m.cellOf w c.i
  match m.ramYMapType (yBase w + c.i) with
  | .null =>
    { i := c.i + 1, p := c.p + 1, landed := c.landed ++ [⟨c.i, v, none⟩],
      rtu := c.rtu.onMap (·.setRamY w c.i v) }
  | .ram =>
    if m.ramXMapRw (m.xBase w + x) ≠ .rw then { c with i := c.i + 1 }
    else
      { i := c.i + 1, p := c.p + 1,
        landed := if x < m.xMax then c.landed ++ [⟨c.i, v, callOf env w x v c.rtu⟩] else c.landed,
        rtu := (zigbeeWriteRegisters env (fun _ => v) 1 w x c.rtu).2 }
  | _ => { c with i := c.i + 1, p := c.p + 1 }

/-- The write loop after `n` turns. -/
def modbusWriteLoop (env : Platform) (buf : Nat → UInt16) (bigL : Bool) (w addr : Nat) (s : Rtu) :
    Nat → WriteLoop
  | 0 => ⟨addr, 0, [], s⟩
  | n + 1 => (modbusWriteLoop env buf bigL w addr s n).turn env buf bigL w

/-- `map_modbus_write_registers` with what it landed. -/
def modbusWriteLanded (env : Platform) (buf : Nat → UInt16) (len wellNum addr : Int) (bigL : Bool)
    (s : Rtu) : Int × List Landing × Rtu :=
  if registerArgsOk len wellNum addr then
    let c := modbusWriteLoop env buf bigL wellNum.toNat addr.toNat s len.toNat
    (0, c.landed, c.rtu)
  else (-1, [], s)

/-- `map_modbus_write_registers`. -/
def mapModbusWriteRegisters (env : Platform) (buf : Nat → UInt16) (len wellNum addr : Int)
    (bigL : Bool) (s : Rtu) : Int × Rtu :=
  let r := modbusWriteLanded env buf len wellNum addr bigL s
  (r.1, r.2.2)

theorem modbusWriteLanded_of_ok {env : Platform} {buf : Nat → UInt16} {n w addr : Nat} {bigL : Bool}
    {s : Rtu} (hw : 1 ≤ w) (hw8 : w ≤ 8) (hn : 1 ≤ n) (hlen : addr + n ≤ 10000) :
    modbusWriteLanded env buf n w addr bigL s =
      (0, (modbusWriteLoop env buf bigL w addr s n).landed,
        (modbusWriteLoop env buf bigL w addr s n).rtu) := by
  unfold modbusWriteLanded
  rw [if_pos (registerArgsOk_iff.2 (by omega))]
  simp

/-! ### The cursors of the write loop -/

@[simp] theorem WriteLoop.turn_i (env : Platform) (buf : Nat → UInt16) (bigL : Bool) (w : Nat)
    (c : WriteLoop) : (c.turn env buf bigL w).i = c.i + 1 := by
  unfold WriteLoop.turn
  dsimp only
  split
  · rfl
  · split <;> rfl
  · rfl

@[simp] theorem modbusWriteLoop_i (env : Platform) (buf : Nat → UInt16) (bigL : Bool) (w addr : Nat)
    (s : Rtu) (n : Nat) : (modbusWriteLoop env buf bigL w addr s n).i = addr + n := by
  induction n with
  | zero => rfl
  | succ n ih =>
      rw [modbusWriteLoop, WriteLoop.turn_i, ih]
      omega

/-- What has landed stays landed. -/
theorem WriteLoop.landed_prefix_turn (env : Platform) (buf : Nat → UInt16) (bigL : Bool) (w : Nat)
    (c : WriteLoop) : c.landed <+: (c.turn env buf bigL w).landed := by
  unfold WriteLoop.turn
  dsimp only
  split
  · exact List.prefix_append _ _
  · split
    · exact List.prefix_refl _
    · dsimp only
      split
      · exact List.prefix_append _ _
      · exact List.prefix_refl _
  · exact List.prefix_refl _

theorem modbusWriteLoop_landed_prefix {env : Platform} {buf : Nat → UInt16} {bigL : Bool}
    {w addr : Nat} {s : Rtu} {k n : Nat} (h : k ≤ n) :
    (modbusWriteLoop env buf bigL w addr s k).landed <+:
      (modbusWriteLoop env buf bigL w addr s n).landed := by
  induction h with
  | refl => exact List.prefix_refl _
  | step _ ih => exact ih.trans (WriteLoop.landed_prefix_turn env buf bigL w _)

theorem WriteLoop.turn_p_le (env : Platform) (buf : Nat → UInt16) (bigL : Bool) (w : Nat)
    (c : WriteLoop) : (c.turn env buf bigL w).p ≤ c.p + 1 := by
  unfold WriteLoop.turn
  dsimp only
  split
  · exact Nat.le_refl _
  · split
    · exact Nat.le_succ _
    · exact Nat.le_refl _
  · exact Nat.le_refl _

theorem modbusWriteLoop_p_le (env : Platform) (buf : Nat → UInt16) (bigL : Bool) (w addr : Nat)
    (s : Rtu) (n : Nat) : (modbusWriteLoop env buf bigL w addr s n).p ≤ n := by
  induction n with
  | zero => exact Nat.le_refl 0
  | succ n ih =>
      have h := WriteLoop.turn_p_le env buf bigL w (modbusWriteLoop env buf bigL w addr s n)
      rw [modbusWriteLoop]
      omega

/-- Only the first `n` words of the buffer are looked at. -/
theorem modbusWriteLoop_congr {env : Platform} {buf buf' : Nat → UInt16} {bigL : Bool}
    {w addr : Nat} {s : Rtu} : ∀ {n : Nat}, (∀ k < n, buf k = buf' k) →
    modbusWriteLoop env buf bigL w addr s n = modbusWriteLoop env buf' bigL w addr s n := by
  intro n
  induction n with
  | zero => intro _; rfl
  | succ n ih =>
      intro h
      have hp := modbusWriteLoop_p_le env buf' bigL w addr s n
      rw [modbusWriteLoop, modbusWriteLoop, ih fun k hk => h k (by omega)]
      unfold WriteLoop.turn
      rw [h _ (Nat.lt_succ_of_le hp)]

theorem mapModbusWriteRegisters_congr {env : Platform} {buf buf' : Nat → UInt16} {n : Nat}
    {wellNum addr : Int} {bigL : Bool} {s : Rtu} (h : ∀ k < n, buf k = buf' k) :
    mapModbusWriteRegisters env buf n wellNum addr bigL s
      = mapModbusWriteRegisters env buf' n wellNum addr bigL s := by
  unfold mapModbusWriteRegisters modbusWriteLanded
  rw [Int.toNat_natCast, modbusWriteLoop_congr h]

/-! ### Unmapped registers -/

theorem WriteLoop.turn_of_null {env : Platform} {buf : Nat → UInt16} {bigL : Bool} {w : Nat}
    {c : WriteLoop} (h : c.rtu.map.ramYMapType (yBase w + c.i) = .null) :
    c.turn env buf bigL w =
      { i := c.i + 1, p := c.p + 1, landed := c.landed ++ [⟨c.i, orderWord bigL (buf c.p), none⟩],
        rtu := c.rtu.onMap (·.setRamY w c.i (orderWord bigL (buf c.p))) } := by
  unfold WriteLoop.turn
  dsimp only
  rw [h]

/-- Over unmapped registers the write loop stores each word at its own register. -/
theorem modbusWriteLoop_unmapped {env : Platform} {buf : Nat → UInt16} {bigL : Bool} {w addr : Nat}
    {s : Rtu} (hnull : ∀ a, s.map.ramYMapType a = .null) (n : Nat) :
    (modbusWriteLoop env buf bigL w addr s n).p = n ∧
      (∀ a, (modbusWriteLoop env buf bigL w addr s n).rtu.map.ramYMapType a = .null) ∧
      ∀ k < n, (modbusWriteLoop env buf bigL w addr s n).rtu.map.ramY (yBase w + (addr + k))
        = orderWord bigL (buf k) := by
  induction n with
  | zero => exact ⟨rfl, hnull, fun k hk => absurd hk (Nat.not_lt_zero k)⟩
  | succ n ih =>
      obtain ⟨hp, ht, hy⟩ := ih
      have hi := modbusWriteLoop_i env buf bigL w addr s n
      rw [modbusWriteLoop, WriteLoop.turn_of_null (ht _), hp, hi]
      refine ⟨rfl, ht, fun k hk => ?_⟩
      dsimp only [Rtu.onMap, MapT.setRamY]
      by_cases hkn : k = n
      · subst hkn
        rw [Function.update_self]
      · rw [Function.update_of_ne (by omega), hy k (by omega)]

/-- The map with words stored over the own words of registers. -/
def MapT.putRamY (m : MapT) (w y : Nat) (vs : List UInt16) : MapT :=
  { m with ramY := Store.put (yBase w + y) vs m.ramY }

/-- Where the registers it passes are unmapped, the write loop stores its words there and
does nothing else. -/
theorem modbusWriteLoop_of_null {env : Platform} {buf : Nat → UInt16} {bigL : Bool} {w addr : Nat}
    {s : Rtu} (n : Nat) (hnull : ∀ k < n, s.map.ramYMapType (yBase w + (addr + k)) = .null) :
    (modbusWriteLoop env buf bigL w addr s n).p = n ∧
      (modbusWriteLoop env buf bigL w addr s n).rtu
        = s.onMap (·.putRamY w addr ((List.range n).map fun k => orderWord bigL (buf k))) := by
  induction n with
  | zero => exact ⟨rfl, by simp [modbusWriteLoop, MapT.putRamY, Rtu.onMap]⟩
  | succ n ih =>
      obtain ⟨hp, hrtu⟩ := ih fun k hk => hnull k (Nat.lt_succ_of_lt hk)
      have hi := modbusWriteLoop_i env buf bigL w addr s n
      have hnext : (modbusWriteLoop env buf bigL w addr s n).rtu.map.ramYMapType
          (yBase w + (modbusWriteLoop env buf bigL w addr s n).i) = .null := by
        rw [hi, hrtu]
        exact hnull n (Nat.lt_succ_self n)
      rw [modbusWriteLoop, WriteLoop.turn_of_null hnext, hp, hi]
      refine ⟨rfl, ?_⟩
      rw [hrtu, List.range_succ, List.map_append]
      simp only [MapT.putRamY, Rtu.onMap, MapT.setRamY, List.map_cons, List.map_nil,
        Store.put_append_singleton, List.length_map, List.length_range, Nat.add_assoc]

theorem mapModbusWriteRegisters_of_null {env : Platform} {buf : Nat → UInt16} {bigL : Bool}
    {n w addr : Nat} {s : Rtu} (hw : 1 ≤ w) (hw8 : w ≤ maxWellNum) (hn : 1 ≤ n)
    (hlen : addr + n ≤ maxRegisterNum)
    (hnull : ∀ k < n, s.map.ramYMapType (yBase w + (addr + k)) = .null) :
    (mapModbusWriteRegisters env buf n w addr bigL s).2
      = s.onMap (·.putRamY w addr ((List.range n).map fun k => orderWord bigL (buf k))) := by
  unfold mapModbusWriteRegisters
  rw [modbusWriteLanded_of_ok hw hw8 hn hlen]
  exact (modbusWriteLoop_of_null n hnull).2

theorem mapModbusWriteRegisters_unmapped {env : Platform} {buf : Nat → UInt16} {bigL : Bool}
    {n w addr k : Nat} {s : Rtu} (hnull : ∀ a, s.map.ramYMapType a = .null) (hw : 1 ≤ w)
    (hw8 : w ≤ maxWellNum) (hlen : addr + n ≤ maxRegisterNum) (hk : k < n) :
    (mapModbusWriteRegisters env buf n w addr bigL s).2.map.ramY (yBase w + (addr + k))
      = orderWord bigL (buf k) := by
  unfold maxWellNum at hw8
  unfold maxRegisterNum at hlen
  unfold mapModbusWriteRegisters
  rw [modbusWriteLanded_of_ok hw hw8 (by omega) hlen]
  exact (modbusWriteLoop_unmapped hnull n).2.2 k hk

end RtuA118
