import RtuA118.Map.Clock
import RtuA118.Modbus.Reply

/-!
# RtuA118.Map.ClockRead

The **clock read in one request**, while it goes on.

Each of the six cells of the clock calls `time` for itself, so a request that covers them takes
six readings or more. `clockedReadRegisters` is `map_modbus_read_registers` with a clock that
answers each call anew. What a request shorter than a minute gives is one instant just when no
other field rolls over between its own reading and that of the seconds (`one_instant_iff`).
-/

namespace RtuA118

open Calendar

/-! ### A clock that goes on -/

/-- The register leads to a cell of the clock. -/
def MapT.ReadsClock (m : MapT) (w i : Nat) : Prop :=
  m.ramYMapType (yBase w + i) = .ram ∧ m.cellOf w i < m.xMax ∧
    m.ramXMapType (m.xBase w + m.cellOf w i) = .sys ∧
    mapGetTimeHour ≤ m.cellOf w i ∧ m.cellOf w i ≤ mapGetTimeDay

instance (m : MapT) (w i : Nat) : Decidable (m.ReadsClock w i) :=
  inferInstanceAs (Decidable (_ ∧ _ ∧ _ ∧ _ ∧ _))

/-- The unit at a time. -/
def Rtu.atTime (s : Rtu) (t : Int) : Rtu := { s with time := t }

/-- The read loop when call `q` of `time` is the next; `clock` answers the calls. -/
def clockedReadLoop (env : Platform) (clock : Nat → Int) (s : Rtu) (w : Nat) (bigL : Bool) :
    Nat → Nat → Nat → UInt16 → List UInt16
  | 0, _, _, _ => []
  | n + 1, i, q, rc =>
    let rc := readRegister env (s.atTime (clock q)) rc w i
    orderWord bigL rc ::
      clockedReadLoop env clock s w bigL n (i + 1) (if s.map.ReadsClock w i then q + 1 else q) rc

/-- `map_modbus_read_registers`, its calls of `time` answered in turn; `none` for `-1`. -/
def clockedReadRegisters (env : Platform) (clock : Nat → Int) (s : Rtu) (len wellNum addr : Int)
    (bigL : Bool) : Option (List UInt16) :=
  if registerArgsOk len wellNum addr then
    some (clockedReadLoop env clock s wellNum.toNat bigL len.toNat addr.toNat 0 0xFFFF)
  else none

/-- The calls of `time` for the `n` registers from `i` on. -/
def MapT.clockCalls (m : MapT) (w i n : Nat) : Nat :=
  (List.range n).countP fun k => m.ReadsClock w (i + k)

section Loop

variable {env : Platform} {clock : Nat → Int} {s : Rtu} {w : Nat} {bigL : Bool}

/-- A clock that stands is the one of the unit. -/
theorem clockedReadLoop_const (t : Int) : ∀ {n i q : Nat} {rc : UInt16},
    clockedReadLoop env (fun _ => t) s w bigL n i q rc =
      modbusReadLoop env (s.atTime t) w bigL n i rc := by
  intro n
  induction n with
  | zero => exact rfl
  | succ n ih =>
      intro i q rc
      rw [clockedReadLoop, modbusReadLoop, ih]

theorem clockedReadRegisters_const (t len wellNum addr : Int) :
    clockedReadRegisters env (fun _ => t) s len wellNum addr bigL =
      mapModbusReadRegisters env (s.atTime t) len wellNum addr bigL := by
  rw [clockedReadRegisters, mapModbusReadRegisters, clockedReadLoop_const]

theorem MapT.clockCalls_succ (m : MapT) (i n : Nat) :
    m.clockCalls w i (n + 1) =
      (if m.ReadsClock w i then 1 else 0) + m.clockCalls w (i + 1) n := by
  rw [clockCalls, List.range_succ_eq_map, List.countP_cons, List.countP_map, Nat.add_comm]
  congr 1
  · simp
  · refine List.countP_congr fun k _ => ?_
    simp [Nat.add_assoc, Nat.add_comm 1]

theorem MapT.clockCalls_succ_last (m : MapT) (i n : Nat) :
    m.clockCalls w i (n + 1) = m.clockCalls w i n + if m.ReadsClock w (i + n) then 1 else 0 := by
  rw [clockCalls, List.range_succ, List.countP_append, List.countP_singleton]
  simp [clockCalls]

/-- The call for a register is one of the request's. -/
theorem MapT.clockCalls_lt {m : MapT} {i k : Nat} (hread : m.ReadsClock w (i + k)) :
    ∀ {n : Nat}, k < n → m.clockCalls w i k < m.clockCalls w i n := by
  intro n
  induction n with
  | zero => exact fun hk => absurd hk (Nat.not_lt_zero _)
  | succ n ih =>
      intro hk
      rw [m.clockCalls_succ_last]
      rcases Nat.eq_or_lt_of_le (Nat.le_of_lt_succ hk) with rfl | hlt
      · rw [if_pos hread]
        exact Nat.lt_succ_self _
      · exact Nat.lt_add_right _ (ih hlt)

/-- A register's word is read at its own call. -/
theorem clockedReadLoop_getElem? : ∀ {n k i q : Nat} {rc : UInt16}, k < n →
    ∃ rc', (clockedReadLoop env clock s w bigL n i q rc)[k]? = some (orderWord bigL
      (readRegister env (s.atTime (clock (q + s.map.clockCalls w i k))) rc' w (i + k))) := by
  intro n
  induction n with
  | zero => exact fun hk => absurd hk (Nat.not_lt_zero _)
  | succ n ih =>
      intro k i q rc hk
      rw [clockedReadLoop]
      cases k with
      | zero => exact ⟨rc, rfl⟩
      | succ k =>
          obtain ⟨rc', hrest⟩ := ih (Nat.lt_of_succ_lt_succ hk)
          have hcalls : (if s.map.ReadsClock w i then q + 1 else q) +
              s.map.clockCalls w (i + 1) k = q + s.map.clockCalls w i (k + 1) := by
            rw [MapT.clockCalls_succ]
            split <;> omega
          rw [hcalls, Nat.add_assoc i, Nat.add_comm 1] at hrest
          exact ⟨rc', hrest⟩

end Loop

/-! ### The six fields -/

/-- A field of an instant, as its register has it. -/
def clockWord (zone : Int) (f : TimeField) (t : Int) : UInt16 :=
  int16ToBcd (UInt16.ofInt (fieldOf f (civilAt zone t)))

/-- The window of a request has a register for each cell of the clock, `pos` of the way in. -/
structure ClockWindow (m : MapT) (w addr len : Nat) (pos : TimeField → Nat) : Prop where
  inside : ∀ f, pos f < len
  room : mapGetTimeDay < m.xMax
  mapped : ∀ f, m.ramYMapType (yBase w + (addr + pos f)) = .ram
  cell : ∀ f, m.cellOf w (addr + pos f) = f.addr
  sys : ∀ f : TimeField, m.ramXMapType (m.xBase w + f.addr) = .sys

section Fields

variable {env : Platform} {zone hi : Int} {s : Rtu} {w addr len : Nat} {pos : TimeField → Nat}

theorem TimeField.addr_range (f : TimeField) :
    mapGetTimeHour ≤ f.addr ∧ f.addr ≤ mapGetTimeDay := by
  cases f <;> decide

theorem mapGettime_addr (hclock : PosixClock env zone hi) (hs : 0 ≤ s.time ∧ s.time ≤ hi)
    (f : TimeField) : mapGettime env s f.addr = clockWord zone f s.time := by
  unfold mapGettime
  rw [hclock.localtime s.time hs.1 hs.2]
  cases f with
  | hour | minute | second | day => rfl
  | year => exact congrArg (fun y => int16ToBcd (UInt16.ofInt y)) (Int.sub_add_cancel _ _)
  | month => exact congrArg (fun y => int16ToBcd (UInt16.ofInt y)) (Int.sub_add_cancel _ _)

theorem ClockWindow.readRegister_eq (h : ClockWindow s.map w addr len pos) (hw : 1 ≤ w)
    (hw8 : w ≤ maxWellNum) (f : TimeField) (rc : UInt16) :
    readRegister env s rc w (addr + pos f) = mapGettime env s f.addr := by
  obtain ⟨hlo, hhi⟩ := f.addr_range
  have hy : (s.map.ramY (yBase w + (addr + pos f))).toNat = f.addr := h.cell f
  have hfun : mapMapFunRead env s rc w f.addr = some (mapGettime env s f.addr) := by
    have h0 : f.addr ≠ mapChangeWellType := Nat.ne_of_gt (Nat.lt_of_lt_of_le (by decide) hlo)
    have h2 : f.addr ≠ mapGetRtuVer := Nat.ne_of_gt (Nat.lt_of_lt_of_le (by decide) hlo)
    rw [mapMapFunRead, if_neg h0, if_neg h2, if_pos ⟨hlo, hhi⟩]
  unfold readRegister
  dsimp only
  rw [h.mapped f]
  dsimp only
  rw [hy, zigbeeReadRegisters_one hw hw8, if_pos (Nat.lt_of_le_of_lt hhi h.room), readCell, h.sys f]
  dsimp only
  rw [hfun]
  rfl

theorem ClockWindow.readsClock (h : ClockWindow s.map w addr len pos) (f : TimeField) :
    s.map.ReadsClock w (addr + pos f) := by
  obtain ⟨hlo, hhi⟩ := f.addr_range
  refine ⟨h.mapped f, ?_⟩
  rw [h.cell f]
  exact ⟨Nat.lt_of_le_of_lt hhi h.room, h.sys f, hlo, hhi⟩

/-- The word of a field is the one of its own reading. -/
theorem ClockWindow.reply_eq (hclock : PosixClock env zone hi) {clock : Nat → Int}
    (hrange : ∀ q, 0 ≤ clock q ∧ clock q ≤ hi) (h : ClockWindow s.map w addr len pos)
    (hw : 1 ≤ w) (hw8 : w ≤ maxWellNum) (bigL : Bool) (f : TimeField) :
    (clockedReadLoop env clock s w bigL len addr 0 0xFFFF)[pos f]? = some (orderWord bigL
      (clockWord zone f (clock (s.map.clockCalls w addr (pos f))))) := by
  obtain ⟨rc, hword⟩ : ∃ rc, (clockedReadLoop env clock s w bigL len addr 0 0xFFFF)[pos f]? =
      some (orderWord bigL (readRegister env
        (s.atTime (clock (0 + s.map.clockCalls w addr (pos f)))) rc w (addr + pos f))) :=
    clockedReadLoop_getElem? (h.inside f)
  have hwindow : ClockWindow (s.atTime (clock (s.map.clockCalls w addr (pos f)))).map w addr len
      pos := h
  rw [hword, Nat.zero_add, hwindow.readRegister_eq hw hw8, mapGettime_addr hclock (hrange _)]
  rfl

/-- A four-digit year is read back from its words, like the other fields. -/
theorem clockWord_inj (hyears : 0 ≤ (civilAt zone 0).year ∧ (civilAt zone hi).year ≤ 9999)
    {t t' : Int} (ht : 0 ≤ t ∧ t ≤ hi) (ht' : 0 ≤ t' ∧ t' ≤ hi) {f : TimeField} :
    clockWord zone f t = clockWord zone f t' ↔
      fieldOf f (civilAt zone t) = fieldOf f (civilAt zone t') := by
  have hyear {t : Int} (ht : 0 ≤ t ∧ t ≤ hi) :
      0 ≤ (civilAt zone t).year ∧ (civilAt zone t).year ≤ 9999 :=
    ⟨Int.le_trans hyears.1 (yearOf_le_yearOf (Int.ediv_le_ediv (by decide) (by omega))),
      Int.le_trans (yearOf_le_yearOf (Int.ediv_le_ediv (by decide) (by omega))) hyears.2⟩
  have hback {t : Int} (ht : 0 ≤ t ∧ t ≤ hi) :
      ((bcdToInt16 (clockWord zone f t)).toNat : Int) = fieldOf f (civilAt zone t) := by
    have hk : ∃ k, timeField k = f := by
      cases f
      exacts [⟨0, rfl⟩, ⟨1, rfl⟩, ⟨2, rfl⟩, ⟨3, rfl⟩, ⟨4, rfl⟩, ⟨5, rfl⟩]
    obtain ⟨k, rfl⟩ := hk
    exact toNat_timeWord (civilOf_valid _) (hyear ht) k
  constructor
  · intro h
    rw [← hback ht, ← hback ht', h]
  · intro h
    rw [clockWord, clockWord, h]

end Fields

/-! ### One instant -/

/-- The six words of a reply are those of an instant between the first reading and the last. -/
def OneInstant (zone first last : Int) (bigL : Bool) (pos : TimeField → Nat)
    (reply : List UInt16) : Prop :=
  ∃ t, first ≤ t ∧ t ≤ last ∧
    ∀ f, reply[pos f]? = some (orderWord bigL (clockWord zone f t))

/-- No field rolls over between its own reading and that of the seconds. In a request of a minute
or longer, the fields may also come together whole minutes from the reading of the seconds. -/
def NoFieldRolls (zone first last : Int) (own : TimeField → Int) : Prop :=
  if last < first + 60 then
    ∀ f, fieldOf f (civilAt zone (own f)) = fieldOf f (civilAt zone (own .second))
  else
    ∃ k : Int, first ≤ own .second + 60 * k ∧ own .second + 60 * k ≤ last ∧
      ∀ f, fieldOf f (civilAt zone (own f)) = fieldOf f (civilAt zone (own .second + 60 * k))

/-- An instant with all six fields is whole minutes from the reading of the seconds. -/
theorem noFieldRolls_iff {zone first last : Int} {own : TimeField → Int}
    (hown : first ≤ own .second ∧ own .second ≤ last) :
    NoFieldRolls zone first last own ↔ ∃ t, first ≤ t ∧ t ≤ last ∧
      ∀ f, fieldOf f (civilAt zone (own f)) = fieldOf f (civilAt zone t) := by
  have hminutes {t : Int}
      (h : fieldOf .second (civilAt zone (own .second)) = fieldOf .second (civilAt zone t)) :
      t = own .second + 60 * ((t - own .second) / 60) := by
    have hmod : (own .second + epochSeconds + zone) % 60 = (t + epochSeconds + zone) % 60 := h
    omega
  rw [NoFieldRolls]
  split
  · rename_i hshort
    constructor
    · exact fun h => ⟨own .second, hown.1, hown.2, h⟩
    · rintro ⟨t, hfirst, hlast, h⟩
      have ht := hminutes (h .second)
      obtain rfl : t = own .second := by omega
      exact h
  · constructor
    · exact fun ⟨k, h⟩ => ⟨_, h⟩
    · rintro ⟨t, h⟩
      refine ⟨(t - own .second) / 60, ?_⟩
      rw [← hminutes (h.2.2 .second)]
      exact h

/-- **The reply is one instant** just when no field rolls over in between. -/
theorem one_instant_iff {env : Platform} {zone hi : Int} (hclock : PosixClock env zone hi)
    (hyears : 0 ≤ (civilAt zone 0).year ∧ (civilAt zone hi).year ≤ 9999) {clock : Nat → Int}
    (hforward : ∀ q q', q ≤ q' → clock q ≤ clock q') (hrange : ∀ q, 0 ≤ clock q ∧ clock q ≤ hi)
    {s : Rtu} {w addr len : Nat} {pos : TimeField → Nat} (hw : 1 ≤ w) (hw8 : w ≤ maxWellNum)
    (hlen : addr + len ≤ maxRegisterNum) (h : ClockWindow s.map w addr len pos) (bigL : Bool) :
    (∃ reply, clockedReadRegisters env clock s len w addr bigL = some reply ∧
      OneInstant zone (clock 0) (clock (s.map.clockCalls w addr len - 1)) bigL pos reply) ↔
    NoFieldRolls zone (clock 0) (clock (s.map.clockCalls w addr len - 1))
      fun f => clock (s.map.clockCalls w addr (pos f)) := by
  have hcall (f : TimeField) :
      s.map.clockCalls w addr (pos f) ≤ s.map.clockCalls w addr len - 1 :=
    Nat.le_sub_one_of_lt (MapT.clockCalls_lt (h.readsClock f) (h.inside f))
  have hown : clock 0 ≤ clock (s.map.clockCalls w addr (pos .second)) ∧
      clock (s.map.clockCalls w addr (pos .second)) ≤
        clock (s.map.clockCalls w addr len - 1) :=
    ⟨hforward _ _ (Nat.zero_le _), hforward _ _ (hcall .second)⟩
  have hreply : clockedReadRegisters env clock s len w addr bigL =
      some (clockedReadLoop env clock s w bigL len addr 0 0xFFFF) := by
    have hpos : 0 < len := Nat.lt_of_le_of_lt (Nat.zero_le _) (h.inside .second)
    unfold maxWellNum at hw8
    unfold maxRegisterNum at hlen
    rw [clockedReadRegisters, if_pos (registerArgsOk_iff.2 (by omega))]
    simp only [Int.toNat_natCast]
  -- a word of the reply is the word of an instant when the field is the same
  have hwords {t : Int} (ht : clock 0 ≤ t ∧ t ≤ clock (s.map.clockCalls w addr len - 1))
      (f : TimeField) :
      (clockedReadLoop env clock s w bigL len addr 0 0xFFFF)[pos f]? =
          some (orderWord bigL (clockWord zone f t)) ↔
        fieldOf f (civilAt zone (clock (s.map.clockCalls w addr (pos f)))) =
          fieldOf f (civilAt zone t) := by
    have hrange' : 0 ≤ t ∧ t ≤ hi :=
      ⟨Int.le_trans (hrange 0).1 ht.1, Int.le_trans ht.2 (hrange _).2⟩
    rw [h.reply_eq hclock hrange hw hw8, Option.some_inj, orderWord_inj,
      clockWord_inj hyears (hrange _) hrange']
  rw [noFieldRolls_iff hown]
  constructor
  · rintro ⟨reply, heq, t, hfirst, hlast, h⟩
    obtain rfl := Option.some.inj (hreply.symm.trans heq)
    exact ⟨t, hfirst, hlast, fun f => (hwords ⟨hfirst, hlast⟩ f).1 (h f)⟩
  · rintro ⟨t, hfirst, hlast, h⟩
    exact ⟨_, hreply, t, hfirst, hlast, fun f => (hwords ⟨hfirst, hlast⟩ f).2 (h f)⟩

/-! ### Around the turn of the year -/

/-- A clock that shows the next second from its second reading on. -/
def secondLater (t : Int) (q : Nat) : Int := if q = 0 then t else t + 1

theorem secondLater_forward (t : Int) (q q' : Nat) (h : q ≤ q') :
    secondLater t q ≤ secondLater t q' := by
  unfold secondLater
  split <;> split <;> omega

theorem clockUnit_window (c : Civil) :
    ClockWindow (clockUnit c).map 1 4 6 fun f => f.addr - mapGetTimeHour where
  inside := fun f => by cases f <;> decide
  room := (by decide : 9 < 10)
  mapped := fun _ => rfl
  cell := fun f => by cases f <;> rfl
  sys := fun _ => rfl

/-- A second before New Year, and two before its noon. -/
def beforeMidnight : Int := clockOf 0 ⟨2014, 12, 31, 23, 59, 59⟩
def beforeNoon : Int := clockOf 0 ⟨2015, 1, 1, 11, 59, 58⟩

theorem secondLater_range {t : Int} (ht : 0 ≤ t) (ht' : t < 2147483647) (q : Nat) :
    0 ≤ secondLater t q ∧ secondLater t q ≤ 2147483647 := by
  unfold secondLater
  split <;> omega

/-- The hour is read before midnight and the rest after it: the reply says 23:00:00 on New Year's
day. -/
theorem not_one_instant : ¬ ∀ (env : Platform) (zone hi : Int), PosixClock env zone hi →
    0 ≤ (civilAt zone 0).year ∧ (civilAt zone hi).year ≤ 9999 → ∀ clock : Nat → Int,
    (∀ q q', q ≤ q' → clock q ≤ clock q') → (∀ q, 0 ≤ clock q ∧ clock q ≤ hi) →
    ∀ (s : Rtu) (w addr len : Nat) (pos : TimeField → Nat), 1 ≤ w → w ≤ maxWellNum →
    addr + len ≤ maxRegisterNum → ClockWindow s.map w addr len pos → ∀ bigL : Bool,
    ∃ reply, clockedReadRegisters env clock s len w addr bigL = some reply ∧
      OneInstant zone (clock 0) (clock (s.map.clockCalls w addr len - 1)) bigL pos reply := by
  intro h
  obtain ⟨reply, hreply, t, hfirst, hlast, hword⟩ := h (gregorian 0 2147483647) 0 2147483647
    (gregorian_posix _ _) (by decide) (secondLater beforeMidnight) (secondLater_forward _)
    (secondLater_range (by decide) (by decide)) (clockUnit lastOfJanuary) 1 4 6 _ (by decide)
    (by decide) (by decide) (clockUnit_window _) false
  have hget (f : TimeField) : (clockedReadRegisters (gregorian 0 2147483647)
      (secondLater beforeMidnight) (clockUnit lastOfJanuary) 6 1 4 false).bind
        (·[f.addr - mapGetTimeHour]?) = some (clockWord 0 f t) :=
    (congrArg (Option.bind · _) hreply).trans (hword f)
  have ht : t = beforeMidnight ∨ t = beforeMidnight + 1 := by
    have h0 : secondLater beforeMidnight 0 = beforeMidnight := rfl
    have h5 : secondLater beforeMidnight ((clockUnit lastOfJanuary).map.clockCalls 1 4 6 - 1) =
      beforeMidnight + 1 := by decide +kernel
    omega
  rcases ht with rfl | rfl
  · exact absurd (hget .minute) (by decide +kernel)
  · exact absurd (hget .hour) (by decide +kernel)

/-- Before noon only the seconds go on. -/
theorem beforeNoon_one_instant :
    ∃ reply, clockedReadRegisters (gregorian 0 2147483647) (secondLater beforeNoon)
        (clockUnit lastOfJanuary) (6 : Nat) (1 : Nat) (4 : Nat) false = some reply ∧
      OneInstant 0 (secondLater beforeNoon 0) (secondLater beforeNoon
        ((clockUnit lastOfJanuary).map.clockCalls 1 4 6 - 1)) false
        (fun f => f.addr - mapGetTimeHour) reply := by
  refine (one_instant_iff (gregorian_posix 0 2147483647) (by decide) (secondLater_forward _)
    (secondLater_range (by decide) (by decide)) (by decide) (by decide) (by decide)
    (clockUnit_window _) false).2 ?_
  rw [NoFieldRolls, if_pos (by decide +kernel)]
  intro f
  cases f <;> decide +kernel

end RtuA118
