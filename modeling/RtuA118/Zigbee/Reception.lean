import RtuA118.Modbus.Reads
import RtuA118.Serial.Transaction

/-!
# RtuA118.Zigbee.Reception

`receive_msg_zigbee` and `receive_msg_actuator` over the line: what a call returns,
how much it takes and what it leaves in the buffer **depend on the bytes alone**,
not on how they arrive, and no read passes offset 256.
-/

namespace RtuA118

/-- `msg_type_t`. -/
inductive ZigbeeMsgType where
  | indication
  | confirmation
  | timeout
  deriving DecidableEq, Repr

/-- `compute_data_length_after_meta_zigbee`. -/
def computeDataLengthAfterMetaZigbee (t : ZigbeeMsgType) (msg : List UInt8) : Nat :=
  match t with
  | .indication | .timeout => be16 (msg.getD 1 0) (msg.getD 2 0) + 1
  | .confirmation => 0

/-- `receive_msg_zigbee` as a rule, for each kind of wait. -/
def zigbeeRuleOf (t : ZigbeeMsgType) : FrameRule :=
  { zigbeeRule with dataLength := computeDataLengthAfterMetaZigbee t }

/-- A confirmation, which no caller waits for, ends with the length field. -/
theorem zigbeeRuleOf_eq {t : ZigbeeMsgType} (ht : t ≠ .confirmation) :
    zigbeeRuleOf t = zigbeeRule := by
  cases t with
  | indication => rfl
  | confirmation => exact absurd rfl ht
  | timeout => rfl

/-- `receive_msg_zigbee`. -/
def receiveMsgZigbeeInto (t : ZigbeeMsgType) : (Nat → UInt8) → List (List UInt8) → RecvCall :=
  receiveCall (zigbeeRuleOf t) checkIntegrityZigbee

/-- `receive_msg_actuator`. -/
def receiveMsgActuatorInto : (Nat → UInt8) → List (List UInt8) → RecvCall :=
  receiveCall actuatorRule checkIntegrityActuator

/-- **A frame is received however it arrives, and inside the buffer.** -/
theorem receive_split_and_room (t : ZigbeeMsgType) (buf : Nat → UInt8) :
    (∀ line line', Flowing line → Flowing line' → line.flatten = line'.flatten →
      (receiveMsgZigbeeInto t buf line).Same (receiveMsgZigbeeInto t buf line') ∧
        (receiveMsgActuatorInto buf line).Same (receiveMsgActuatorInto buf line')) ∧
    (∀ line s,
      (zigbeeRuleOf t).Turns (reading buf .stepMeta [] 3 line) s ∨
        actuatorRule.Turns (reading buf .stepMeta [] 5 line) s →
      s.msgLength + s.lengthToRead ≤ 256) ∧
    (∀ line i, 256 ≤ i → (receiveMsgZigbeeInto t buf line).buf i = buf i ∧
      (receiveMsgActuatorInto buf line).buf i = buf i) := by
  have hmeta : Step.stepMeta ≠ Step.stepFunction := Step.noConfusion
  have hdata : Step.stepMeta ≠ Step.stepData := Step.noConfusion
  have h3 : (zigbeeRuleOf t).firstLength ≤ (zigbeeRuleOf t).maxAduLength := show 3 ≤ 256 by decide
  have h5 : actuatorRule.firstLength ≤ actuatorRule.maxAduLength := show 5 ≤ 256 by decide
  refine ⟨fun line line' hflow hflow' hsame => ⟨?_, ?_⟩, fun line s hs => ?_, fun line i hi => ?_⟩
  · exact receiveCall_split (show 0 < 3 by decide) hdata hflow hflow' hsame
  · exact receiveCall_split (show 0 < 5 by decide) hdata hflow hflow' hsame
  · rcases hs with hs | hs
    · exact ((roomOk_start (r := zigbeeRuleOf t) hmeta h3).turns hs).2
    · exact ((roomOk_start (r := actuatorRule) hmeta h5).turns hs).2
  · exact ⟨receiveCall_buf hmeta h3 hi, receiveCall_buf hmeta h5 hi⟩

/-- A frame in two pieces and in one. -/
theorem receive_split_and_room_two :
    (receiveMsgZigbeeInto .indication (fun _ => 0) [[0x7E, 0x00], [0x01, 0x91, 0x6E]]).Same
      (receiveMsgZigbeeInto .indication (fun _ => 0) [[0x7E, 0x00, 0x01, 0x91, 0x6E]]) ∧
    (reading (fun _ => 0) .stepMeta [] 3 []).msgLength + 3 ≤ 256 ∧
    (receiveMsgActuatorInto (fun _ => 0) [[0xCC]]).buf 256 = 0 := by
  obtain ⟨hsplit, hroom, hbuf⟩ := receive_split_and_room .indication fun _ => 0
  refine ⟨(hsplit [[0x7E, 0x00], [0x01, 0x91, 0x6E]] [[0x7E, 0x00, 0x01, 0x91, 0x6E]] ?_ ?_ rfl).1,
    hroom _ _ (.inl .refl), (hbuf _ _ (Nat.le_refl _)).2⟩
  · simp [Flowing]
  · simp [Flowing]

end RtuA118
