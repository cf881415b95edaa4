import Mathlib.Data.List.GetD
import RtuA118.Modbus.Crc

/-!
# RtuA118.Modbus.Receive

The receive loops of `modbus.c`: a frame is read in up to three pieces, each as
long as the bytes before it say, and each piece in as many reads as the line
takes to deliver it.

The loop is one definition over a `FrameRule` (where it starts, the two length
computations, the limit); `receive_msg` and `receive_msg_zigbee` are its
instances. `receiveLoop_eq_cut` is what the loop comes to: the frame is a prefix
of the byte stream, **however the bytes arrive**.
-/

namespace RtuA118

/-- The two-byte number with high byte `hi`. -/
def be16 (hi lo : UInt8) : Nat := 256 * hi.toNat + lo.toNat

/-! ### The loop -/

/-- `_STEP_FUNCTION`, `_STEP_META`, `_STEP_DATA`. -/
inductive Step where
  | stepFunction
  | stepMeta
  | stepData
  deriving DecidableEq, Repr

/-- What distinguishes one receive function from another. -/
structure FrameRule where
  start : Step
  firstLength : Nat
  metaLength : List UInt8 → Nat
  dataLength : List UInt8 → Nat
  maxAduLength : Nat

/-- `step`, the bytes received and `length_to_read`. -/
structure RecvState where
  step : Step
  msg : List UInt8
  lengthToRead : Nat

namespace FrameRule

/-- The `_STEP_META` case: `none` for a frame that would be too long. -/
def afterMeta (r : FrameRule) (msg : List UInt8) : Option RecvState :=
  if msg.length + r.dataLength msg > r.maxAduLength then none
  else some ⟨.stepData, msg, r.dataLength msg⟩

/-- The switch on `step` when a piece is complete. -/
def advance (r : FrameRule) : Step → List UInt8 → Option RecvState
  | .stepFunction, msg =>
    if r.metaLength msg ≠ 0 then some ⟨.stepMeta, msg, r.metaLength msg⟩ else r.afterMeta msg
  | .stepMeta, msg => r.afterMeta msg
  | .stepData, msg => some ⟨.stepData, msg, 0⟩

end FrameRule

/-- The receive loop: the frame and what is left of the stream. The read that
starts with `k` bytes received delivers at most `arrive k` of them; `none` stands
for a frame that is too long and for a stream that ends too soon. -/
def receiveLoop (r : FrameRule) (arrive : Nat → Nat) (st : RecvState) (stream : List UInt8) :
    Option (List UInt8 × List UInt8) :=
  if st.lengthToRead = 0 then some (st.msg, stream)
  else if hs : stream = [] then none
  else
    let n := max 1 (min (arrive st.msg.length) (min st.lengthToRead stream.length))
    have : (stream.drop n).length < stream.length := by
      have := List.length_pos_of_ne_nil hs
      rw [List.length_drop]
      omega
    if st.lengthToRead - n = 0 then
      match r.advance st.step (st.msg ++ stream.take n) with
      | none => none
      | some st' => receiveLoop r arrive st' (stream.drop n)
    else
      receiveLoop r arrive ⟨st.step, st.msg ++ stream.take n, st.lengthToRead - n⟩ (stream.drop n)
  termination_by stream.length

/-- One piece: exactly the bytes it asks for, in however many reads. -/
theorem receiveLoop_piece {r : FrameRule} {arrive : Nat → Nat} {step : Step} : ∀ {k : Nat}
    {msg stream : List UInt8}, 0 < k →
    receiveLoop r arrive ⟨step, msg, k⟩ stream =
      if stream.length < k then none
      else
        match r.advance step (msg ++ stream.take k) with
        | none => none
        | some st' => receiveLoop r arrive st' (stream.drop k) := by
  intro k
  induction k using Nat.strongRecOn with
  | ind k ih =>
      intro msg stream hk
      rw [receiveLoop]
      dsimp only
      rw [if_neg (by omega)]
      by_cases hs : stream = []
      · subst hs
        rw [dif_pos rfl, if_pos (by simpa using hk)]
      · rw [dif_neg hs]
        have hpos := List.length_pos_of_ne_nil hs
        obtain ⟨n, hn⟩ : ∃ n, n = max 1 (min (arrive msg.length) (min k stream.length)) :=
          ⟨_, rfl⟩
        rw [← hn]
        have hn1 : 1 ≤ n := by omega
        have hnk : n ≤ k := by omega
        have hnl : n ≤ stream.length := by omega
        by_cases hfull : k - n = 0
        · -- the read completes the piece
          have hkn : k = n := by omega
          subst hkn
          rw [if_pos hfull, if_neg (by omega)]
        · rw [if_neg hfull, ih (k - n) (by omega) (by omega), List.length_drop]
          by_cases hshort : stream.length < k
          · rw [if_pos (by omega), if_pos hshort]
          · have htake : stream.take n ++ (stream.drop n).take (k - n) = stream.take k := by
              rw [← List.take_add, show n + (k - n) = k from by omega]
            rw [if_neg (by omega), if_neg hshort, List.append_assoc, htake, List.drop_drop,
              show n + (k - n) = k from by omega]

namespace FrameRule

/-- The length of the middle piece, read after the first. -/
def middleLength (r : FrameRule) (stream : List UInt8) : Nat :=
  if r.start = .stepFunction then r.metaLength (stream.take r.firstLength) else 0

/-- The bytes before the last piece. -/
def headLength (r : FrameRule) (stream : List UInt8) : Nat := r.firstLength + r.middleLength stream

/-- The whole frame's length, as its head says. -/
def frameLength (r : FrameRule) (stream : List UInt8) : Nat :=
  r.headLength stream + r.dataLength (stream.take (r.headLength stream))

/-- The frame at the head of a stream. -/
def cut (r : FrameRule) (stream : List UInt8) : Option (List UInt8 × List UInt8) :=
  if stream.length < r.headLength stream then none
  else if r.frameLength stream > r.maxAduLength then none
  else if stream.length < r.frameLength stream then none
  else some (stream.take (r.frameLength stream), stream.drop (r.frameLength stream))

end FrameRule

/-- The last piece, which may be empty. -/
theorem receiveLoop_data {r : FrameRule} {arrive : Nat → Nat} {msg stream : List UInt8} {k : Nat} :
    receiveLoop r arrive ⟨.stepData, msg, k⟩ stream =
      if stream.length < k then none else some (msg ++ stream.take k, stream.drop k) := by
  by_cases hk : k = 0
  · subst hk
    rw [receiveLoop, if_pos rfl]
    simp
  · rw [receiveLoop_piece (by omega)]
    split
    · rfl
    · dsimp only [FrameRule.advance]
      rw [receiveLoop, if_pos rfl]

/-- From the end of the middle piece on. -/
theorem receiveLoop_afterMeta {r : FrameRule} {arrive : Nat → Nat} {stream : List UInt8} {h : Nat}
    (hlen : h ≤ stream.length) :
    (match r.afterMeta (stream.take h) with
      | none => none
      | some st' => receiveLoop r arrive st' (stream.drop h)) =
      if h + r.dataLength (stream.take h) > r.maxAduLength then none
      else if stream.length < h + r.dataLength (stream.take h) then none
      else some (stream.take (h + r.dataLength (stream.take h)),
        stream.drop (h + r.dataLength (stream.take h))) := by
  unfold FrameRule.afterMeta
  rw [List.length_take, Nat.min_eq_left hlen]
  by_cases hmax : h + r.dataLength (stream.take h) > r.maxAduLength
  · rw [if_pos hmax, if_pos hmax]
  · rw [if_neg hmax, if_neg hmax]
    dsimp only
    rw [receiveLoop_data, List.length_drop]
    by_cases hshort : stream.length < h + r.dataLength (stream.take h)
    · rw [if_pos (by omega), if_pos hshort]
    · rw [if_neg (by omega), if_neg hshort, ← List.take_add, List.drop_drop]

/-- **The loop cuts a prefix**, whatever the sizes of the reads. -/
theorem receiveLoop_eq_cut {r : FrameRule} {arrive : Nat → Nat} {stream : List UInt8}
    (hfirst : 0 < r.firstLength) (hstart : r.start ≠ .stepData) :
    receiveLoop r arrive ⟨r.start, [], r.firstLength⟩ stream = r.cut stream := by
  rw [receiveLoop_piece hfirst, List.nil_append]
  unfold FrameRule.cut FrameRule.frameLength FrameRule.headLength FrameRule.middleLength
  by_cases h1 : stream.length < r.firstLength
  · rw [if_pos h1, if_pos (by omega)]
  rw [if_neg h1]
  cases hs : r.start with
  | stepData => exact absurd hs hstart
  | stepMeta =>
      rw [if_neg (show ¬ Step.stepMeta = Step.stepFunction by decide), Nat.add_zero, if_neg h1]
      exact receiveLoop_afterMeta (by omega)
  | stepFunction =>
      rw [if_pos (show Step.stepFunction = Step.stepFunction from rfl)]
      dsimp only [FrameRule.advance]
      by_cases hm : r.metaLength (stream.take r.firstLength) = 0
      · rw [if_neg (not_not.2 hm), hm, Nat.add_zero, if_neg h1]
        exact receiveLoop_afterMeta (by omega)
      · rw [if_pos hm]
        dsimp only
        rw [receiveLoop_piece (by omega), List.length_drop, ← List.take_add, List.drop_drop]
        by_cases h2 : stream.length < r.firstLength + r.metaLength (stream.take r.firstLength)
        · rw [if_pos (by omega), if_pos h2]
        · rw [if_neg (by omega), if_neg h2]
          exact receiveLoop_afterMeta (by omega)

/-! ### `receive_msg` -/

/-- The two kinds of context in use. The UDP context has the TCP functions. -/
inductive Backend where
  | rtu
  | tcp
  deriving DecidableEq, Repr

/-- `MSG_INDICATION`, a request, and `MSG_CONFIRMATION`, a reply. -/
inductive MsgType where
  | indication
  | confirmation
  deriving DecidableEq, Repr

namespace Backend

def headerLength : Backend → Nat
  | .rtu => 1
  | .tcp => 7

def checksumLength : Backend → Nat
  | .rtu => 2
  | .tcp => 0

def maxAduLength : Backend → Nat
  | .rtu => 256
  | .tcp => 260

/-- `check_integrity`: the frame is as long as it was received, or refused. -/
def checkIntegrity (b : Backend) (msg : List UInt8) : Bool :=
  match b with
  | .rtu =>
    crc16 (msg.take (msg.length - 2)) ==
      (msg.getD (msg.length - 2) 0, msg.getD (msg.length - 1) 0)
  | .tcp => true

end Backend

/-- `compute_meta_length_after_function`. -/
def computeMetaLengthAfterFunction (function : UInt8) : MsgType → Nat
  | .indication =>
    if function ≤ 6 then 4
    else if function = 15 ∨ function = 16 then 5
    else if function = 23 then 9
    else 0
  | .confirmation =>
    if function = 5 ∨ function = 6 ∨ function = 15 ∨ function = 16 then 4 else 1

/-- `compute_data_length_after_meta`. -/
def computeDataLengthAfterMeta (b : Backend) (msg : List UInt8) (t : MsgType) : Nat :=
  let function := msg.getD b.headerLength 0
  let length : UInt8 :=
    match t with
    | .indication =>
      if function = 15 ∨ function = 16 then msg.getD (b.headerLength + 5) 0
      else if function = 23 then msg.getD (b.headerLength + 9) 0
      else 0
    | .confirmation =>
      if function ≤ 4 ∨ function = 17 ∨ function = 23 then msg.getD (b.headerLength + 1) 0 else 0
  length.toNat + b.checksumLength

/-- `receive_msg` as a rule. -/
def msgRule (b : Backend) (t : MsgType) : FrameRule where
  start := .stepFunction
  firstLength := b.headerLength + 1
  metaLength := fun msg => computeMetaLengthAfterFunction (msg.getD b.headerLength 0) t
  dataLength := fun msg => computeDataLengthAfterMeta b msg t
  maxAduLength := b.maxAduLength

/-- `receive_msg` on a byte stream: the frame, or `none` where it returns `-1`. -/
def receiveMsg (b : Backend) (t : MsgType) (arrive : Nat → Nat) (stream : List UInt8) :
    Option (List UInt8) :=
  match receiveLoop (msgRule b t) arrive ⟨.stepFunction, [], b.headerLength + 1⟩ stream with
  | none => none
  | some (msg, _) => if b.checkIntegrity msg then some msg else none

/-- `receive_msg` by the frame's own lengths. -/
theorem receiveMsg_eq {b : Backend} {t : MsgType} {arrive : Nat → Nat} {stream : List UInt8} :
    receiveMsg b t arrive stream =
      match (msgRule b t).cut stream with
      | none => none
      | some (msg, _) => if b.checkIntegrity msg then some msg else none := by
  have h : receiveLoop (msgRule b t) arrive _ stream = (msgRule b t).cut stream :=
    receiveLoop_eq_cut (Nat.succ_pos _) (show Step.stepFunction ≠ Step.stepData by decide)
  unfold receiveMsg
  rw [← h]
  rfl

/-! ### What the receiver takes of a stream -/

theorem getD_take {l : List UInt8} {n i : Nat} {d : UInt8} (hi : i < n) :
    (l.take n).getD i d = l.getD i d := by
  simp only [List.getD_eq_getElem?_getD]
  rw [List.getElem?_take_of_lt hi]

section Received

variable {b : Backend} {t : MsgType} {stream : List UInt8}

theorem headLength_msgRule : (msgRule b t).headLength stream =
    b.headerLength + 1 + computeMetaLengthAfterFunction (stream.getD b.headerLength 0) t := by
  unfold FrameRule.headLength FrameRule.middleLength msgRule
  dsimp only
  rw [if_pos rfl, getD_take (Nat.lt_succ_self _)]

/-- The count byte lies in the head of the frame, if the function has one. -/
theorem frameLength_msgRule : (msgRule b t).frameLength stream =
    b.headerLength + 1 + computeMetaLengthAfterFunction (stream.getD b.headerLength 0) t
      + computeDataLengthAfterMeta b stream t := by
  unfold FrameRule.frameLength
  rw [headLength_msgRule]
  have hdata : (msgRule b t).dataLength = fun msg => computeDataLengthAfterMeta b msg t := rfl
  rw [hdata]
  congr 1
  unfold computeDataLengthAfterMeta
  dsimp only
  rw [getD_take (by omega)]
  obtain ⟨g, hg⟩ : ∃ g, g = stream.getD b.headerLength 0 := ⟨_, rfl⟩
  rw [← hg]
  congr 2
  cases t with
  | confirmation =>
      have hmeta : 1 ≤ computeMetaLengthAfterFunction g .confirmation := by
        unfold computeMetaLengthAfterFunction
        dsimp only
        split <;> omega
      dsimp only
      rw [getD_take (by omega)]
  | indication =>
      dsimp only
      by_cases h15 : g = 15 ∨ g = 16
      · rw [if_pos h15, if_pos h15, getD_take]
        rcases h15 with rfl | rfl <;> exact Nat.lt_succ_self _
      rw [if_neg h15, if_neg h15]
      by_cases h23 : g = 23
      · subst h23
        rw [if_pos rfl, if_pos rfl, getD_take]
        exact Nat.lt_succ_self _
      · rw [if_neg h23, if_neg h23]

/-- A received frame is exactly as long as its function and count bytes say. -/
theorem receiveMsg_frame {arrive : Nat → Nat} {frame : List UInt8}
    (h : receiveMsg b t arrive stream = some frame) :
    frame = stream.take ((msgRule b t).frameLength stream) ∧
      (msgRule b t).frameLength stream ≤ stream.length ∧
      (msgRule b t).frameLength stream ≤ b.maxAduLength ∧ b.checkIntegrity frame = true := by
  have hadu : (msgRule b t).maxAduLength = b.maxAduLength := rfl
  rw [receiveMsg_eq] at h
  unfold FrameRule.cut at h
  split at h
  · cases h
  · rename_i msg rest hcut
    split at hcut
    · cases hcut
    split at hcut
    · cases hcut
    split at hcut
    · cases hcut
    · have hmsg := congrArg Prod.fst (Option.some.inj hcut)
      dsimp only at hmsg
      split at h
      · rename_i hint
        rw [← Option.some.inj h]
        exact ⟨hmsg.symm, by omega, by omega, hint⟩
      · cases h

end Received

/-! ### `receive_msg_zigbee` -/

/-- `receive_msg_zigbee` as a rule: the delimiter and a two-byte length, then the
data and its checksum. -/
def zigbeeRule : FrameRule where
  start := .stepMeta
  firstLength := 3
  metaLength := fun _ => 0
  dataLength := fun msg => be16 (msg.getD 1 0) (msg.getD 2 0) + 1
  maxAduLength := 256

/-- `_modbus_rtu_check_integrity_zigbee`. -/
def checkIntegrityZigbee (msg : List UInt8) : Bool :=
  sum8 (msg.drop 3) == 0xFF && msg.getD 0 0 == 0x7E

/-- `receive_msg_zigbee` on a byte stream. -/
def receiveMsgZigbee (arrive : Nat → Nat) (stream : List UInt8) : Option (List UInt8) :=
  match receiveLoop zigbeeRule arrive ⟨.stepMeta, [], 3⟩ stream with
  | none => none
  | some (msg, _) => if checkIntegrityZigbee msg then some msg else none

theorem receiveMsgZigbee_eq {arrive : Nat → Nat} {stream : List UInt8} :
    receiveMsgZigbee arrive stream =
      match zigbeeRule.cut stream with
      | none => none
      | some (msg, _) => if checkIntegrityZigbee msg then some msg else none := by
  have h : receiveLoop zigbeeRule arrive _ stream = zigbeeRule.cut stream :=
    receiveLoop_eq_cut (show 0 < 3 by decide) (show Step.stepMeta ≠ Step.stepData by decide)
  unfold receiveMsgZigbee
  rw [← h]
  rfl

end RtuA118
