import RtuA118.Zigbee.Reception

/-!
# RtuA118.Zigbee.Codec

`zigbee_send_packet` in its own buffer, and what the receiver makes of it.

The sender fills a structure of fixed size field by field; its check sum stands
right behind the payload, which for a payload of the full 80 bytes is a field of
its own. `zigbeeTxBytes_eq` shows that the bytes written are those of the model in
`RtuA118.Meter.Packet`; they are a **valid frame** (`ZigbeeFrame`), and a valid
frame is what a receive call takes off the line, whatever follows it.
-/

namespace RtuA118

/-! ### The sender -/

/-- `calc_sum_check` of the frame in a buffer. -/
def calcSumCheckIn (buf : Nat → UInt8) : UInt8 :=
  let len := be16 (buf 1) (buf 2)
  if len = 0 then 0
  else
    let temp := (List.range len).foldl (fun (temp : UInt16) i => temp + (buf (i + 3)).toUInt16) 0
    0xFF - temp.toUInt8

/-- The structure of `zigbee_send_packet` up to its payload, over what `tmp_buff`
held. -/
def zigbeeTxFields (tmp : Nat → UInt8) (mac : Nat → UInt8) (data : List UInt8) : Nat → UInt8 :=
  let len := 20 + data.length
  let buf := putBytes tmp 0 [0x7E]
  let buf := putBytes buf 1 [UInt8.ofNat (len / 256)]
  let buf := putBytes buf 2 [UInt8.ofNat (len % 256)]
  let buf := putBytes buf 3 [0x11, 0x00]
  let buf := putBytes buf 5 ((List.range 10).map mac)
  let buf := putBytes buf 13 [0xFF, 0xFE]
  let buf := putBytes buf 15 [0xE8, 0xE8, 0x00, 0x11, 0x18, 0x57, 0x00, 0x60]
  putBytes buf 23 data

/-- The buffer that `zigbee_send_packet` writes out: the check sum is in
`tx_api_check_sum` behind a full payload, else in `tx_api_data[len]`. -/
def zigbeeTxBuffer (tmp : Nat → UInt8) (mac : Nat → UInt8) (data : List UInt8) : Nat → UInt8 :=
  let buf := zigbeeTxFields tmp mac data
  if data.length = 80 then putBytes buf 103 [calcSumCheckIn buf]
  else putBytes buf (23 + data.length) [calcSumCheckIn buf]

/-- The bytes `zigbee_send_packet` writes, `none` where it refuses. -/
def zigbeeTxBytes (tmp : Nat → UInt8) (mac : Nat → UInt8) (data : List UInt8) :
    Option (List UInt8) :=
  if data.length > 80 then none
  else some (bytesOf (zigbeeTxBuffer tmp mac data) (20 + data.length + 4))

/-- The frame behind its length field and before its check sum. -/
def zigbeeTxBody (mac : Nat → UInt8) (data : List UInt8) : List UInt8 :=
  [0x11, 0x00] ++ (List.range 8).map mac ++ [0xFF, 0xFE] ++
    [0xE8, 0xE8, 0x00, 0x11, 0x18, 0x57, 0x00, 0x60] ++ data

/-- The whole frame. -/
def zigbeeTxFrame (mac : Nat → UInt8) (data : List UInt8) : List UInt8 :=
  [0x7E, UInt8.ofNat ((20 + data.length) / 256), UInt8.ofNat ((20 + data.length) % 256)] ++
    zigbeeTxBody mac data ++ [calcSumCheck (zigbeeTxBody mac data)]

@[simp] theorem zigbeeTxBody_length (mac : Nat → UInt8) (data : List UInt8) :
    (zigbeeTxBody mac data).length = 20 + data.length := by
  simp [zigbeeTxBody]
  omega

@[simp] theorem zigbeeTxFrame_length (mac : Nat → UInt8) (data : List UInt8) :
    (zigbeeTxFrame mac data).length = data.length + 24 := by
  simp [zigbeeTxFrame]
  omega

/-- It is the frame the model of the meters puts on the radio. -/
theorem zigbeeSendPacket_radio {mac : Nat → UInt8} {data : List UInt8} (hlen : data.length ≤ 80)
    (s : Rtu) : (zigbeeSendPacket mac data s).radio = s.radio ++ [zigbeeTxFrame mac data] := by
  unfold zigbeeSendPacket
  rw [if_neg (by omega)]
  rfl

/-! ### The buffer, field by field -/

/-- A field right behind what is written. -/
theorem putBytes_behind (tmp : Nat → UInt8) {msg : List UInt8} {k : Nat} (bytes : List UInt8)
    (hk : k = msg.length) :
    putBytes (putBytes tmp 0 msg) k bytes = putBytes tmp 0 (msg ++ bytes) := by
  rw [hk, putBytes_putBytes]

/-- A field written over the last one. -/
theorem putBytes_over (tmp : Nat → UInt8) {msg old : List UInt8} {k : Nat} (bytes : List UInt8)
    (hk : k = msg.length) (hlen : old.length = bytes.length) :
    putBytes (putBytes tmp 0 (msg ++ old)) k bytes = putBytes tmp 0 (msg ++ bytes) := by
  subst hk
  rw [← putBytes_putBytes, ← putBytes_putBytes]
  funext i
  unfold putBytes
  by_cases h : msg.length ≤ i ∧ i < msg.length + bytes.length
  · rw [if_pos h, if_pos h]
  · rw [if_neg h, if_neg h, if_neg (by rwa [hlen])]

theorem zigbeeTxFields_eq (tmp mac : Nat → UInt8) (data : List UInt8) :
    zigbeeTxFields tmp mac data = putBytes tmp 0
      ([0x7E, UInt8.ofNat ((20 + data.length) / 256), UInt8.ofNat ((20 + data.length) % 256)] ++
        zigbeeTxBody mac data) := by
  have hmac : (List.range 10).map mac = (List.range 8).map mac ++ [mac 8, mac 9] := rfl
  unfold zigbeeTxFields
  dsimp only
  rw [putBytes_behind tmp (k := 1) _ rfl, putBytes_behind tmp (k := 2) _ rfl,
    putBytes_behind tmp (k := 3) _ rfl, putBytes_behind tmp (k := 5) _ rfl, hmac,
    ← List.append_assoc, putBytes_over tmp (k := 13) _ (by simp) (by simp),
    putBytes_behind tmp (k := 15) _ (by simp), putBytes_behind tmp (k := 23) _ (by simp)]
  simp only [zigbeeTxBody, List.append_assoc, List.cons_append, List.nil_append]

/-- Both places of the check sum are the byte behind the payload. -/
theorem zigbeeTxBuffer_eq (tmp mac : Nat → UInt8) (data : List UInt8) :
    zigbeeTxBuffer tmp mac data =
      putBytes (zigbeeTxFields tmp mac data) (23 + data.length)
        [calcSumCheckIn (zigbeeTxFields tmp mac data)] := by
  unfold zigbeeTxBuffer
  dsimp only
  split
  · rename_i h
    rw [h]
  · rfl

/-! ### The check sum -/

theorem toUInt8_sum (l : List UInt8) (a : UInt16) :
    (l.foldl (fun (temp : UInt16) b => temp + b.toUInt16) a).toUInt8 =
      l.foldl (· + ·) a.toUInt8 := by
  induction l generalizing a with
  | nil => rfl
  | cons b l ih => simp [ih]

theorem sum8_append (l l' : List UInt8) : sum8 (l ++ l') = l'.foldl (· + ·) (sum8 l) := by
  simp [sum8]

/-- The check sum makes the sum `0xFF`. -/
theorem sum8_check (body : List UInt8) : sum8 (body ++ [calcSumCheck body]) = 0xFF := by
  rw [sum8_append, calcSumCheck, List.foldl_cons, List.foldl_nil, UInt8.add_comm,
    UInt8.sub_add_cancel]

/-- `calc_sum_check` reads the length field, and sums what it says. -/
theorem calcSumCheckIn_eq (tmp : Nat → UInt8) {h hi lo : UInt8} {body : List UInt8}
    (hne : body ≠ []) (hlen : be16 hi lo = body.length) :
    calcSumCheckIn (putBytes tmp 0 ([h, hi, lo] ++ body)) = calcSumCheck body := by
  have hbody : (List.range body.length).map (fun i => putBytes tmp 0 ([h, hi, lo] ++ body) (i + 3))
      = body := by
    refine List.ext_getElem (by simp) fun i h1 h2 => ?_
    simp [putBytes, h2]
  have h1 : putBytes tmp 0 ([h, hi, lo] ++ body) 1 = hi := by simp [putBytes]
  have h2 : putBytes tmp 0 ([h, hi, lo] ++ body) 2 = lo := by simp [putBytes]
  unfold calcSumCheckIn
  dsimp only
  rw [h1, h2, hlen, if_neg (by simpa using hne)]
  have hfold := toUInt8_sum body 0
  rw [← hbody, List.foldl_map] at hfold
  rw [hbody] at hfold
  rw [hfold]
  rfl

/-! ### Valid frames -/

/-- A frame the receiver takes: the delimiter, a length field that counts the bytes
between it and the check sum, room in the buffer, and the sum. -/
structure ZigbeeFrame (f : List UInt8) : Prop where
  head : f.getD 0 0 = 0x7E
  length : f.length = be16 (f.getD 1 0) (f.getD 2 0) + 4
  room : f.length ≤ 256
  sum : sum8 (f.drop 3) = 0xFF

namespace ZigbeeFrame

variable {f : List UInt8}

theorem checked (hf : ZigbeeFrame f) : checkIntegrityZigbee f = true := by
  rw [checkIntegrityZigbee, hf.sum, hf.head]
  rfl

/-- **A valid frame is received as it is**, whatever follows it. -/
theorem reception (hf : ZigbeeFrame f) (more : List UInt8) :
    zigbeeRule.reception (f ++ more) = ⟨f, .received, more⟩ := by
  have hlen := hf.length
  have hroom : ¬ f.length > zigbeeRule.maxAduLength := Nat.not_lt.2 hf.room
  have hhead : zigbeeRule.headLength (f ++ more) = 3 := rfl
  have hbyte : ∀ i < 3, ((f ++ more).take 3).getD i 0 = f.getD i 0 := by
    intro i hi
    rw [getD_take hi, List.getD_append _ _ _ _ (by omega)]
  have hframe : zigbeeRule.frameLength (f ++ more) = f.length := by
    unfold FrameRule.frameLength
    rw [hhead]
    show 3 + (be16 (((f ++ more).take 3).getD 1 0) (((f ++ more).take 3).getD 2 0) + 1) = _
    rw [hbyte 1 (by decide), hbyte 2 (by decide), hlen]
    omega
  unfold FrameRule.reception
  rw [hhead, hframe, if_neg (by rw [List.length_append]; omega),
    if_neg hroom, if_neg (by rw [List.length_append]; omega),
    List.take_left, List.drop_left]

end ZigbeeFrame

/-- What the sender writes is a valid frame. -/
theorem zigbeeTxFrame_valid (mac : Nat → UInt8) {data : List UInt8} (hlen : data.length ≤ 80) :
    ZigbeeFrame (zigbeeTxFrame mac data) := by
  have hfield : be16 (UInt8.ofNat ((20 + data.length) / 256))
      (UInt8.ofNat ((20 + data.length) % 256)) = 20 + data.length := by
    simp only [be16, UInt8.toNat_ofNat']
    omega
  refine ⟨rfl, ?_, ?_, ?_⟩
  · rw [zigbeeTxFrame_length]
    show _ = be16 (UInt8.ofNat _) (UInt8.ofNat _) + 4
    rw [hfield]
    omega
  · rw [zigbeeTxFrame_length]
    omega
  · exact sum8_check (zigbeeTxBody mac data)

/-- The bytes the sender writes are the frame. -/
theorem zigbeeTxBytes_eq (tmp mac : Nat → UInt8) {data : List UInt8} (hlen : data.length ≤ 80) :
    zigbeeTxBytes tmp mac data = some (zigbeeTxFrame mac data) := by
  have hfield : be16 (UInt8.ofNat ((20 + data.length) / 256))
      (UInt8.ofNat ((20 + data.length) % 256)) = (zigbeeTxBody mac data).length := by
    rw [zigbeeTxBody_length]
    simp only [be16, UInt8.toNat_ofNat']
    omega
  have hne : zigbeeTxBody mac data ≠ [] := by
    simp [zigbeeTxBody]
  have hn : 20 + data.length + 4 = (zigbeeTxFrame mac data).length := by
    rw [zigbeeTxFrame_length]
    omega
  unfold zigbeeTxBytes
  rw [if_neg (by omega), zigbeeTxBuffer_eq, zigbeeTxFields_eq, calcSumCheckIn_eq tmp hne hfield,
    putBytes_behind tmp _ (by simp; omega), hn]
  exact congrArg some (bytesOf_putBytes tmp (zigbeeTxFrame mac data))

/-- A call on a line that starts with a valid frame. -/
theorem receiveMsgZigbeeInto_frame {t : ZigbeeMsgType} (ht : t ≠ .confirmation) {f : List UInt8}
    (hf : ZigbeeFrame f) (buf : Nat → UInt8) {more : List UInt8} {line : List (List UInt8)}
    (hflow : Flowing line) (hline : line.flatten = f ++ more) :
    ∃ later, Flowing later ∧ later.flatten = more ∧
      receiveMsgZigbeeInto t buf line = ⟨.length f.length, f.length, putBytes buf 0 f, later⟩ := by
  obtain ⟨later, hlater, hrest, heq⟩ := receiveCall_eq (r := zigbeeRule) checkIntegrityZigbee buf
    (show 0 < 3 by decide) (show Step.stepMeta ≠ Step.stepData by decide) hflow
  rw [hline, hf.reception] at hrest heq
  refine ⟨later, hlater, hrest, ?_⟩
  unfold receiveMsgZigbeeInto
  rw [zigbeeRuleOf_eq ht, heq]
  simp [Reception.result, hf.checked]

/-- **Encode and decode**: what `zigbee_send_packet` writes is what
`receive_msg_zigbee` receives, in however many reads and whatever follows. -/
theorem zigbee_send_receive {t : ZigbeeMsgType} (ht : t ≠ .confirmation) (tmp mac : Nat → UInt8)
    {data : List UInt8} (hlen : data.length ≤ 80) :
    zigbeeTxBytes tmp mac data = some (zigbeeTxFrame mac data) ∧
      be16 ((zigbeeTxFrame mac data).getD 1 0) ((zigbeeTxFrame mac data).getD 2 0) =
        data.length + 20 ∧
      sum8 ((zigbeeTxFrame mac data).drop 3) = 0xFF ∧
      ∀ (buf : Nat → UInt8) (more : List UInt8) (line : List (List UInt8)), Flowing line →
        line.flatten = zigbeeTxFrame mac data ++ more →
        (receiveMsgZigbeeInto t buf line).result = .length (data.length + 24) ∧
          (receiveMsgZigbeeInto t buf line).consumed = data.length + 24 ∧
          bytesOf (receiveMsgZigbeeInto t buf line).buf (data.length + 24) =
            zigbeeTxFrame mac data := by
  have hf := zigbeeTxFrame_valid mac hlen
  have hlength := hf.length
  rw [zigbeeTxFrame_length] at hlength
  refine ⟨zigbeeTxBytes_eq tmp mac hlen, by omega, hf.sum, ?_⟩
  intro buf more line hflow hline
  obtain ⟨later, -, -, heq⟩ := receiveMsgZigbeeInto_frame ht hf buf hflow hline
  have hbytes := bytesOf_putBytes buf (zigbeeTxFrame mac data)
  rw [zigbeeTxFrame_length] at heq hbytes
  rw [heq]
  exact ⟨rfl, rfl, hbytes⟩

/-- A payload of one byte, in two reads. -/
theorem zigbee_send_receive_one :
    (receiveMsgZigbeeInto .timeout (fun _ => 0)
      [(zigbeeTxFrame (fun _ => 5) [7]).take 9, (zigbeeTxFrame (fun _ => 5) [7]).drop 9]).result =
      .length 25 := by
  have hone : ([7] : List UInt8).length ≤ 80 := by decide
  obtain ⟨-, -, -, h⟩ := zigbee_send_receive (t := .timeout) ZigbeeMsgType.noConfusion
    (fun _ => 0) (fun _ => 5) hone
  refine (h (fun _ => 0) [] _ ?_ ?_).1
  · have hlen := zigbeeTxFrame_length (fun _ => 5) [7]
    simp [Flowing, ← List.length_pos_iff]
  · simp

end RtuA118
