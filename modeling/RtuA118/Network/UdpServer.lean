import RtuA118.Modbus.RequestBytes

/-!
# RtuA118.Network.UdpServer

A datagram on the UDP port: a **heartbeat** of a remote server or a Modbus request.

The server tells them apart by the first byte, `0xC0`, and a checksum: the two bytes
at offset 9 against the CRC of what follows them. In a request these are the low
byte of the address and the high byte of the quantity, the first byte is the high
byte of the transaction identifier, and what follows is the rest of the request. So
some requests are heartbeats too (`MbRequest.Collides`), and they are not answered.
-/

namespace RtuA118

/-! ### The server -/

/-- What the server does with a datagram. -/
inductive UdpTurn where
  | dropped
  | heartBeat
  | replied (sent : Option (List UInt8)) (s : Rtu)

/-- The datagram in `query` behind `recvfrom`. -/
def threadUdpServer (env : Platform) (query : Nat → UInt8) (rc : Nat) (s : Rtu) : UdpTurn :=
  if rc > 7 then
    if isHeartbeat ((List.range rc).map query) then .heartBeat
    else
      let r := modbusReply env .tcp query rc s
      .replied r.1 r.2
  else .dropped

/-- The request gets an answer. -/
def UdpTurn.Answered : UdpTurn → Prop
  | .replied (some _) _ => True
  | _ => False

/-! ### Requests -/

/-- A request for one of the three functions. -/
inductive MbRequest where
  | read (address nb : UInt16)
  | writeSingle (address value : UInt16)
  | writeMultiple (address : UInt16) (values : List UInt16)

namespace MbRequest

/-- The quantity and the addresses are in range. -/
def InRange : MbRequest → Prop
  | .read address nb => 1 ≤ nb.toNat ∧ nb.toNat ≤ modbusMaxReadRegisters ∧
      address.toNat + nb.toNat ≤ maxRegisterNum
  | .writeSingle address _ => address.toNat < maxRegisterNum
  | .writeMultiple address values => 1 ≤ values.length ∧
      values.length ≤ modbusMaxWriteRegisters ∧ address.toNat + values.length ≤ maxRegisterNum

/-- Words in the order of the wire. -/
def wire (ws : List UInt16) : List UInt8 := ws.flatMap fun w => [hiByte w, loByte w]

/-- The function code and what follows it. -/
def pdu : MbRequest → List UInt8
  | .read address nb => [3, hiByte address, loByte address, hiByte nb, loByte nb]
  | .writeSingle address value =>
    [6, hiByte address, loByte address, hiByte value, loByte value]
  | .writeMultiple address values =>
    [16, hiByte address, loByte address, UInt8.ofNat (values.length / 256),
      UInt8.ofNat (values.length % 256), UInt8.ofNat (2 * values.length)] ++ wire values

/-- The whole Modbus/TCP request. -/
def frame (tidHi tidLo unit : UInt8) (r : MbRequest) : List UInt8 :=
  [tidHi, tidLo, 0, 0, UInt8.ofNat ((r.pdu.length + 1) / 256),
    UInt8.ofNat ((r.pdu.length + 1) % 256), unit] ++ r.pdu

/-- The requests whose tail has their own fields for a checksum: of the reads, those
of four quantities at addresses with the low byte that goes with each. -/
def Collides : MbRequest → Prop
  | .read address nb =>
    (loByte address, nb) ∈
      [((0xFF : UInt8), (255 : UInt16)), (0xBF, 508), (0x7F, 761), (0x3F, 1018)]
  | .writeSingle address value => crc16 [loByte value] = (loByte address, hiByte value)
  | .writeMultiple address values =>
    crc16 ([UInt8.ofNat values.length, UInt8.ofNat (2 * values.length)] ++ wire values) =
      (loByte address, 0)

@[simp] theorem wire_length (ws : List UInt16) : (wire ws).length = 2 * ws.length := by
  simp [wire, Nat.mul_comm]

/-! ### The checksum of a quantity -/

/-- The low byte of the CRC of one byte is small for four bytes. -/
theorem crc16_byte (b : UInt8) (h : (crc16 [b]).2.toNat ≤ 3) :
    (b, crc16 [b]) ∈ [((0xFF : UInt8), ((0xFF : UInt8), (0 : UInt8))), (0xFC, (0xBF, 1)),
      (0xF9, (0x7F, 2)), (0xFA, (0x3F, 3))] := by
  have hall : ∀ n < 256, (crc16 [UInt8.ofNat n]).2.toNat ≤ 3 →
      (UInt8.ofNat n, crc16 [UInt8.ofNat n]) ∈ [((0xFF : UInt8), ((0xFF : UInt8), (0 : UInt8))),
        (0xFC, (0xBF, 1)), (0xF9, (0x7F, 2)), (0xFA, (0x3F, 3))] := by
    decide +kernel
  have hb := hall b.toNat b.toNat_lt
  rw [UInt8.ofNat_toNat] at hb
  exact hb h

/-- A read collides when its quantity's low byte has the checksum its fields hold. -/
theorem collides_read_iff {address nb : UInt16} (hnb : nb.toNat ≤ modbusMaxReadRegisters) :
    crc16 [loByte nb] = (loByte address, hiByte nb) ↔ (MbRequest.read address nb).Collides := by
  have hnb' : ∀ {lo hi : UInt8}, loByte nb = lo → hiByte nb = hi → nb = wordOfBytes lo hi := by
    intro lo hi hlo hhi
    rw [← hlo, ← hhi, wordOfBytes_loByte_hiByte]
  unfold modbusMaxReadRegisters at hnb
  constructor
  · intro h
    have hsmall : (crc16 [loByte nb]).2.toNat ≤ 3 := by
      rw [h, toNat_hiByte]
      omega
    have hmem := crc16_byte _ hsmall
    rw [h] at hmem
    simp only [List.mem_cons, Prod.mk.injEq, List.not_mem_nil, or_false] at hmem
    rcases hmem with ⟨hlo, ha, hhi⟩ | ⟨hlo, ha, hhi⟩ | ⟨hlo, ha, hhi⟩ | ⟨hlo, ha, hhi⟩ <;>
      · rw [hnb' hlo hhi]
        simp only [Collides, ha]
        decide
  · intro h
    simp only [Collides, List.mem_cons, Prod.mk.injEq, List.not_mem_nil, or_false] at h
    rcases h with ⟨ha, rfl⟩ | ⟨ha, rfl⟩ | ⟨ha, rfl⟩ | ⟨ha, rfl⟩ <;>
      · rw [ha]
        decide +kernel

/-! ### The classifier on a request -/

/-- **A request is taken for a heartbeat exactly when it starts with the byte of one
and collides.** -/
theorem isHeartbeat_frame_iff {tidHi tidLo unit : UInt8} {r : MbRequest} (hr : r.InRange) :
    isHeartbeat (r.frame tidHi tidLo unit) = true ↔ tidHi = 0xC0 ∧ r.Collides := by
  have htest : ∀ f : List UInt8, 11 < f.length → (isHeartbeat f = true ↔
      f.getD 0 0 = 0xC0 ∧ crc16 (f.drop 11) = (f.getD 9 0, f.getD 10 0)) := by
    intro f hf
    simp [isHeartbeat, hf]
  cases r with
  | read address nb =>
      have h := htest (frame tidHi tidLo unit (.read address nb)) (show 11 < 12 by decide)
      exact h.trans (and_congr_right fun _ => collides_read_iff hr.2.1)
  | writeSingle address value => exact htest _ (show 11 < 12 by decide)
  | writeMultiple address values =>
      have hlen : values.length ≤ 123 := hr.2.1
      rw [htest _ (by simp [frame, pdu])]
      have hhi : UInt8.ofNat (values.length / 256) = 0 := by
        rw [Nat.div_eq_of_lt (by omega)]
        rfl
      have hlo : values.length % 256 = values.length := Nat.mod_eq_of_lt (by omega)
      simp [frame, pdu, Collides, hhi, hlo]

end MbRequest

/-! ### Answered requests -/

/-- A request for a unit there is gets an answer from `modbus_reply`. -/
theorem modbusReply_answers (env : Platform) {b : Backend} {q : Nat → UInt8} (n : Nat) (s : Rtu)
    (hu : ¬ ((q (b.headerLength - 1)).toNat < 1 ∨ (q (b.headerLength - 1)).toNat > maxWellNum)) :
    ∃ reply, (modbusReply env b q n s).1 = some reply := by
  unfold modbusReply
  dsimp only
  rw [if_neg hu]
  split_ifs <;> exact ⟨_, rfl⟩

/-- **A well-formed request on the UDP port is answered exactly when it is not one of
those that read as a heartbeat.** -/
theorem udp_request_answered_iff (env : Platform) {r : MbRequest} (hr : r.InRange)
    (tidHi tidLo : UInt8) {unit : UInt8} (h1 : 1 ≤ unit.toNat) (h8 : unit.toNat ≤ maxWellNum)
    {query : Nat → UInt8} (hq : View.AgreesOn (r.frame tidHi tidLo unit) query) (s : Rtu) :
    (threadUdpServer env query (r.frame tidHi tidLo unit).length s).Answered ↔
      ¬ (tidHi = 0xC0 ∧ r.Collides) := by
  have hlen : 7 < (r.frame tidHi tidLo unit).length := by
    cases r <;> simp [MbRequest.frame, MbRequest.pdu]
  have hunit : query 6 = unit := hq 6 (by omega)
  rw [← MbRequest.isHeartbeat_frame_iff hr, threadUdpServer, if_pos hlen, hq.map_range]
  split
  · rename_i hbeat
    exact iff_of_false id (not_not.2 hbeat)
  · rename_i hbeat
    have hu : ¬ ((query 6).toNat < 1 ∨ (query 6).toNat > maxWellNum) := by
      rw [hunit]
      omega
    obtain ⟨reply, hreply⟩ := modbusReply_answers env (b := .tcp)
      (r.frame tidHi tidLo unit).length s hu
    dsimp only
    rw [hreply]
    exact iff_of_true trivial hbeat

/-- A unit with an empty map. -/
def blankUnit : Rtu :=
  .start
    { xMax := 0
      ramX := fun _ => 0
      ramXMapType := fun _ => .null
      ramXMapRecord := fun _ => .null
      ramXMapRw := fun _ => .null
      ramY := fun _ => 0
      ramYMapType := fun _ => .null
      flash1 := fun _ => 0
      flash2 := fun _ => 0 }

/-- A read of the 255 registers from 255 on. -/
theorem udp_request_taken_for_heartbeat :
    ¬ ∀ (env : Platform) (r : MbRequest) (tidHi tidLo unit : UInt8) (query : Nat → UInt8) (s : Rtu),
      r.InRange → 1 ≤ unit.toNat → unit.toNat ≤ maxWellNum →
      View.AgreesOn (r.frame tidHi tidLo unit) query →
      (threadUdpServer env query (r.frame tidHi tidLo unit).length s).Answered := by
  intro h
  have hr : (MbRequest.read 255 255).InRange := ⟨by decide, by decide, by decide⟩
  have hc : (MbRequest.read 255 255).Collides := by
    unfold MbRequest.Collides
    decide +kernel
  have hbeat : isHeartbeat (MbRequest.frame 0xC0 1 1 (.read 255 255)) = true :=
    (MbRequest.isHeartbeat_frame_iff hr).2 ⟨rfl, hc⟩
  obtain ⟨query, hq⟩ : ∃ query, View.AgreesOn (MbRequest.frame 0xC0 1 1 (.read 255 255)) query :=
    ⟨_, View.agreesOn_extend _ fun _ => 0⟩
  have ha := h (.bare fun _ => none) _ 0xC0 1 1 query blankUnit hr (by decide) (by decide) hq
  have hlen : 7 < (MbRequest.frame 0xC0 1 1 (.read 255 255)).length := show 7 < 12 by decide
  rw [threadUdpServer, if_pos hlen, hq.map_range, if_pos hbeat] at ha
  exact ha

/-- The same request under another transaction identifier. -/
theorem udp_request_answered :
    (threadUdpServer (.bare fun _ => none) (View.extend
      (MbRequest.frame 0xC1 1 1 (.read 255 255)) fun _ => 0) 12 blankUnit).Answered := by
  have hr : (MbRequest.read 255 255).InRange := ⟨by decide, by decide, by decide⟩
  exact (udp_request_answered_iff _ hr 0xC1 1 (by decide) (by decide)
    (View.agreesOn_extend _ _) _).2 fun h => absurd h.1 (by decide)

end RtuA118
