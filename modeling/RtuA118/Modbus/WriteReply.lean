import RtuA118.Map.FailedStore
import RtuA118.Map.WriteOutlook
import RtuA118.Modbus.Guards

/-!
# RtuA118.Modbus.WriteReply

What a Modbus write has stored when it is answered as done.

The return codes of the internal writes are dropped, by `map_modbus_write_registers` and
again by `modbus_reply`, so every write request within the limits is echoed. Its registers
read their new words exactly when every inner write succeeds and the place that each leads to
at the end is given its own word last (`WriteFits`): the word cursor falls back at a read-only
register, two registers may stand for one word, and the rows of a type that the request changes to
give words too.
-/

namespace RtuA118

/-! ### A write request -/

/-- The write request passes the tests of `modbus_reply`. -/
def WriteAccepted (b : Backend) (q : Nat → UInt8) : Prop :=
  (1 ≤ (reqSlave b q).toNat ∧ (reqSlave b q).toNat ≤ maxWellNum) ∧
    (reqFunction b q = 6 ∧ reqAddress b q < maxRegisterNum ∨
      reqFunction b q = 16 ∧ 1 ≤ reqNb b q ∧ reqNb b q ≤ modbusMaxWriteRegisters ∧
        reqAddress b q + reqNb b q ≤ maxRegisterNum)

/-- The number of registers a write request names, and its words as they lie in memory. -/
def reqCount (b : Backend) (q : Nat → UInt8) : Nat :=
  if reqFunction b q = 6 then 1 else reqNb b q

def reqWords (b : Backend) (q : Nat → UInt8) : Nat → UInt16 :=
  queryWords q (b.headerLength + if reqFunction b q = 6 then 3 else 6)

/-- The write loop of the request before register `k`. -/
def reqLoop (env : Platform) (b : Backend) (q : Nat → UInt8) (s : Rtu) (k : Nat) : WriteLoop :=
  modbusWriteLoop env (reqWords b q) true (reqSlave b q).toNat (reqAddress b q) s k

section Request

variable {env : Platform} {b : Backend} {q : Nat → UInt8} {n : Nat} {s : Rtu}

theorem WriteAccepted.range (h : WriteAccepted b q) :
    1 ≤ reqCount b q ∧ reqAddress b q + reqCount b q ≤ maxRegisterNum := by
  unfold reqCount
  obtain ⟨-, ⟨h6, hlt⟩ | ⟨h16, hn, -, hend⟩⟩ := h
  · rw [if_pos h6]
    exact ⟨Nat.le_refl 1, hlt⟩
  · rw [if_neg (by rw [h16]; decide)]
    exact ⟨hn, hend⟩

/-- An accepted write is answered as done, after its write loop. -/
theorem modbusReply_accepted (env : Platform) (n : Nat) (s : Rtu) (h : WriteAccepted b q) :
    ∃ reply, modbusReply env b q n s = (some reply, (reqLoop env b q s (reqCount b q)).rtu) ∧
      ¬ IsException b q reply := by
  obtain ⟨hn1, hrange⟩ := h.range
  obtain ⟨⟨hw, hw8⟩, hf⟩ := h
  have hu : ¬ ((q (b.headerLength - 1)).toNat < 1 ∨
      (q (b.headerLength - 1)).toNat > maxWellNum) := by
    unfold reqSlave at hw hw8
    omega
  -- both functions run the same loop, over their own words and count
  have hloop : mapModbusWriteRegisters env (reqWords b q) (reqCount b q) (reqSlave b q).toNat
      (reqAddress b q) true s = (0, (reqLoop env b q s (reqCount b q)).rtu) := by
    unfold mapModbusWriteRegisters
    rw [modbusWriteLanded_of_ok hw hw8 hn1 hrange]
    rfl
  rcases hf with ⟨h6, hlt⟩ | ⟨h16, hn, hmax, hend⟩
  · have hstores : mapModbusWriteRegisters env (queryWords q (b.headerLength + 3)) 1
        (reqSlave b q).toNat (reqAddress b q) true s
          = (0, (reqLoop env b q s (reqCount b q)).rtu) := by
      simpa only [reqWords, reqCount, if_pos h6, Int.natCast_one] using hloop
    have hout : CarriedOut env b q n s _ _ := .writeSingle h6 rfl hstores
    refine ⟨_, ?_, hout.not_exception⟩
    rw [modbusReply_writeSingle hu h6]
    have hdone : replyWriteSingle env b q (reqSlave b q) (reqAddress b q) (b.preparedLength n) s
        = _ := replyWriteSingle_success hlt
    rw [hstores] at hdone
    exact congrArg (fun r => (some r.1, r.2)) hdone
  · have h6 : ¬ reqFunction b q = 6 := by
      rw [h16]
      decide
    have hstores : mapModbusWriteRegisters env (queryWords q (b.headerLength + 6)) (reqNb b q)
        (reqSlave b q).toNat (reqAddress b q) true s
          = (0, (reqLoop env b q s (reqCount b q)).rtu) := by
      simpa only [reqWords, reqCount, if_neg h6] using hloop
    have hout : CarriedOut env b q n s _ _ := .writeMultiple h16 rfl hstores
    refine ⟨_, ?_, hout.not_exception⟩
    rw [modbusReply_writeMultiple hu h16]
    have hdone : replyWriteMultiple env b q (reqSlave b q) (reqAddress b q) (reqNb b q) s
        = _ := replyWriteMultiple_success hn hmax hend
    rw [hstores] at hdone
    exact congrArg (fun r => (some r.1, r.2)) hdone

/-- A write that is not accepted is ignored or answered with an exception. -/
theorem isException_of_not_accepted (hf : reqFunction b q = 6 ∨ reqFunction b q = 16)
    (h : ¬ WriteAccepted b q) {reply : List UInt8} {s' : Rtu}
    (hreply : modbusReply env b q n s = (some reply, s')) : IsException b q reply := by
  by_cases hu : (q (b.headerLength - 1)).toNat < 1 ∨ (q (b.headerLength - 1)).toNat > maxWellNum
  · rw [modbusReply_ignored hu] at hreply
    cases hreply
  have hslave : 1 ≤ (reqSlave b q).toNat ∧ (reqSlave b q).toNat ≤ maxWellNum := by
    unfold reqSlave
    omega
  rcases hf with h6 | h16
  · have hge : reqAddress b q ≥ maxRegisterNum :=
      Nat.le_of_not_lt fun hlt => h ⟨hslave, .inl ⟨h6, hlt⟩⟩
    rw [modbusReply_writeSingle hu h6] at hreply
    refine ⟨2, ?_⟩
    rw [← Option.some.inj (Prod.mk.inj hreply).1, h6]
    exact congrArg Prod.fst (replyWriteSingle_exception hge)
  · rw [modbusReply_writeMultiple hu h16] at hreply
    cases hd : dueWriteMultiple (reqAddress b q) (reqNb b q) with
    | badData => exact absurd hd dueWriteMultiple_ne_badData
    | exception c =>
        refine ⟨c, ?_⟩
        rw [← Option.some.inj (Prod.mk.inj hreply).1, h16]
        exact congrArg Prod.fst (replyWriteMultiple_exception hd)
    | success m =>
        exact absurd ⟨hslave, .inr ⟨h16, dueWriteMultiple_success hd⟩⟩ h

end Request

/-- A write that is answered as done has stored the new word of every register that may
be written when the write loop comes to it, cells with code behind them, then or at the end,
aside, and no inner write has returned `-1`. -/
def WriteReported (env : Platform) (b : Backend) (q : Nat → UInt8) (n : Nat) (s : Rtu) : Prop :=
  reqFunction b q = 6 ∨ reqFunction b q = 16 → ∀ reply s',
    modbusReply env b q n s = (some reply, s') → ¬ IsException b q reply →
      (∀ k < reqCount b q, (reqLoop env b q s k).rtu.map.WritableRegister (reqSlave b q).toNat
          (reqAddress b q + k) →
        ¬ s'.map.tables.functionMapped (reqSlave b q).toNat (reqAddress b q + k) →
        mapModbusReadRegisters env s' 1 (reqSlave b q).toNat (reqAddress b q + k : Nat) true
          = some [reqWords b q k]) ∧
      ∀ k < reqCount b q,
        (reqLoop env b q s k).innerCode env (reqWords b q) true (reqSlave b q).toNat ≠ some (-1)

/-- The outlook over the registers of a request. -/
def reqOutlook (env : Platform) (b : Backend) (q : Nat → UInt8) (s : Rtu) (k : Nat) :
    Outlook × Nat :=
  s.outlook.afterRegisters env (reqSlave b q).toNat (reqAddress b q)
    (orderWords true (reqWords b q)) k

/-- The words of the map when those that a request gives are overlaid. -/
def reqWordAt (env : Platform) (b : Backend) (q : Nat → UInt8) (s : Rtu) : Storage → UInt16 :=
  Store.overlay s.map.wordAt (s.outlook.gives env (reqSlave b q).toNat (reqAddress b q)
    (orderWords true (reqWords b q)) (reqCount b q))

/-- Every inner write of an accepted request succeeds, and the place that a writable register
leads to at the end, if it is none with code behind it, is given that register's own word last, or
is given none and has it. -/
def WriteFits (env : Platform) (b : Backend) (q : Nat → UInt8) (s : Rtu) : Prop :=
  WriteAccepted b q →
    (∀ k < reqCount b q,
      ¬ (reqOutlook env b q s k).1.Refuses env (reqSlave b q).toNat (reqAddress b q + k)) ∧
    ∀ k < reqCount b q,
      (reqOutlook env b q s k).1.tables.writable (reqSlave b q).toNat (reqAddress b q + k) →
      ¬ (reqOutlook env b q s (reqCount b q)).1.tables.functionMapped (reqSlave b q).toNat
        (reqAddress b q + k) →
      (reqOutlook env b q s (reqCount b q)).1.tables.wordOf (reqWordAt env b q s)
        (reqSlave b q).toNat (reqAddress b q + k) = orderWords true (reqWords b q) k

section Request

variable {env : Platform} {b : Backend} {q : Nat → UInt8} {n : Nat} {s : Rtu}

/-- The write loop of an accepted request has the codes and the tables of its outlook. -/
theorem reqLoop_outlook (h : WriteAccepted b q) (k : Nat) :
    ((reqLoop env b q s k).innerCode env (reqWords b q) true (reqSlave b q).toNat = some (-1) ↔
      (reqOutlook env b q s k).1.Refuses env (reqSlave b q).toNat (reqAddress b q + k)) ∧
    ((reqLoop env b q s k).rtu.map.WritableRegister (reqSlave b q).toNat (reqAddress b q + k) ↔
      (reqOutlook env b q s k).1.tables.writable (reqSlave b q).toNat (reqAddress b q + k)) := by
  have hout : (reqLoop env b q s k).rtu.outlook = (reqOutlook env b q s k).1 :=
    congrArg Prod.fst (modbusWriteLoop_outlook h.1.1 h.1.2 k)
  have hi : (reqLoop env b q s k).i = reqAddress b q + k := modbusWriteLoop_i _ _ _ _ _ _ _
  refine ⟨?_, ?_⟩
  · rw [WriteLoop.innerCode_iff h.1.1 h.1.2, hout, hi]
  · rw [← hout]
    rfl

theorem reqLoop_tables (h : WriteAccepted b q) :
    (reqLoop env b q s (reqCount b q)).rtu.map.tables
      = (reqOutlook env b q s (reqCount b q)).1.tables :=
  modbusWriteLoop_tables h.1.1 h.1.2 _

/-- What is read of a register of the request at the end, once every inner write has
succeeded. -/
theorem read_reqLoop (hacc : WriteAccepted b q) (hstores : ∀ k < reqCount b q,
      ¬ (reqOutlook env b q s k).1.Refuses env (reqSlave b q).toNat (reqAddress b q + k)) {k : Nat}
    (hk : k < reqCount b q)
    (hwr : (reqOutlook env b q s k).1.tables.writable (reqSlave b q).toNat (reqAddress b q + k))
    (hcode : ¬ (reqOutlook env b q s (reqCount b q)).1.tables.functionMapped
      (reqSlave b q).toNat (reqAddress b q + k)) :
    mapModbusReadRegisters env (reqLoop env b q s (reqCount b q)).rtu 1 (reqSlave b q).toNat
        (reqAddress b q + k : Nat) true = some [reqWords b q k] ↔
      (reqOutlook env b q s (reqCount b q)).1.tables.wordOf (reqWordAt env b q s)
        (reqSlave b q).toNat (reqAddress b q + k) = orderWords true (reqWords b q) k := by
  have hread : mapModbusReadRegisters env (reqLoop env b q s (reqCount b q)).rtu 1
      (reqSlave b q).toNat (reqAddress b q + k : Nat) true
        = some [orderWord true ((reqOutlook env b q s (reqCount b q)).1.tables.wordOf
          (reqWordAt env b q s) (reqSlave b q).toNat (reqAddress b q + k))] :=
    mapModbusReadRegisters_modbusWriteLoop hacc.1.1 hacc.1.2 hacc.range.2 hstores hk hwr hcode
  rw [hread, Option.some.injEq, List.cons.injEq, and_iff_left rfl, orderWords]
  constructor
  · intro h
    rw [← h, orderWord_orderWord]
  · intro h
    rw [h, orderWord_orderWord]

/-- **A write is answered as done only when it has been**, exactly where it fits. -/
theorem writeReported_iff_fits : WriteReported env b q n s ↔ WriteFits env b q s := by
  constructor
  · intro h hacc
    obtain ⟨reply, hreply, hex⟩ := modbusReply_accepted env n s hacc
    have hf : reqFunction b q = 6 ∨ reqFunction b q = 16 := hacc.2.imp And.left And.left
    obtain ⟨hread, hcodes⟩ := h hf reply _ hreply hex
    have hstores : ∀ k < reqCount b q, ¬ (reqOutlook env b q s k).1.Refuses env
        (reqSlave b q).toNat (reqAddress b q + k) := by
      intro k hk
      rw [← (reqLoop_outlook hacc k).1]
      exact hcodes k hk
    refine ⟨hstores, fun k hk hwr hcode => (read_reqLoop hacc hstores hk hwr hcode).1 ?_⟩
    exact hread k hk ((reqLoop_outlook hacc k).2.mpr hwr) (by rwa [reqLoop_tables hacc])
  · intro h hf reply s' hreply hex
    by_cases hacc : WriteAccepted b q
    · obtain ⟨hstores, hwords⟩ := h hacc
      obtain ⟨reply', hreply', -⟩ := modbusReply_accepted env n s hacc
      rw [hreply] at hreply'
      obtain ⟨-, rfl⟩ := Prod.mk.inj hreply'
      refine ⟨fun k hk hwr hcode => ?_, fun k hk => ?_⟩
      · rw [(reqLoop_outlook hacc k).2] at hwr
        rw [reqLoop_tables hacc] at hcode
        exact (read_reqLoop hacc hstores hk hwr hcode).2 (hwords k hk hwr hcode)
      · rw [ne_eq, (reqLoop_outlook hacc k).1]
        exact hstores k hk
    · exact absurd (isException_of_not_accepted hf hacc hreply) hex

end Request

/-- **Failed stores.** A batch that stops leaves every reading as it was where nothing shows: the
words stored on the way are there already. Only a batch that has changed the type before it stops
can do so otherwise, where the rows of the new type restore by chance what they have replaced. And
a write is answered as done only when it has been exactly where it fits. -/
theorem failedStore_unseen (env : Platform) (s : Rtu) :
    (∀ (buf : Nat → UInt16) (len wellNum addr : Int),
      (BatchHeld env buf len wellNum addr s → BatchAtomic env buf len wellNum addr s) ∧
      (BatchAtomic env buf len wellNum addr s → BatchHeld env buf len wellNum addr s ∨
        s.map.Retypes env wellNum.toNat addr.toNat (buf 0))) ∧
    ∀ (b : Backend) (q : Nat → UInt8) (n : Nat),
      WriteReported env b q n s ↔ WriteFits env b q s := by
  refine ⟨fun buf len wellNum addr => ⟨batchAtomic_of_held, fun h => ?_⟩,
    fun b q n => writeReported_iff_fits⟩
  by_cases hre : s.map.Retypes env wellNum.toNat addr.toNat (buf 0)
  · exact .inr hre
  · exact .inl (batchHeld_of_atomic hre h)

/-- A platform whose `msync` fails. -/
def failingSync : Platform := { Platform.bare fun _ => none with msync := fun _ => false }

/-- A request over RTU to well 1: function 6, register 40, word `0x0007`. -/
def writeForty : Nat → UInt8 := fun i => [1, 6, 0, 40, 0, 7].getD i 0

/-- One word for cell 40, in the first flash: the batch returns `-1` with the word stored, and
the request for the register that leads there is echoed. -/
theorem not_failedStore :
    ¬ BatchAtomic failingSync (fun _ => 7) 1 1 40 sharedUnit ∧
      ¬ WriteReported failingSync .rtu writeForty 8 sharedUnit := by
  constructor
  · intro h
    have hread := (h (by decide +kernel)).cell (fun _ => 0) 1 40
    exact absurd hread (by decide +kernel)
  · intro h
    have hacc : WriteAccepted .rtu writeForty :=
      ⟨⟨by decide, by decide⟩, .inl ⟨by decide, by decide⟩⟩
    obtain ⟨reply, hreply, hex⟩ := modbusReply_accepted failingSync 8 sharedUnit hacc
    exact (h (.inl (by decide)) reply _ hreply hex).2 0 (by decide) (by decide +kernel)

end RtuA118
