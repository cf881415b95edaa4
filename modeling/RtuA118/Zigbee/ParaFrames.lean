import RtuA118.Words
import RtuA118.Zigbee.AtOrder
import RtuA118.Zigbee.Codec

/-!
# RtuA118.Zigbee.ParaFrames

The frames of `set_zigbee_para` in the structure their builders fill.

A builder sets the fields of an `st_zigbee_send_fram` and the check sum right behind the data,
and writes as many bytes as the length field says. The identifier and the key get there through
three exchanges: the halves of the words by `swap_register32` and `swap_register64`, and their
bytes by `swap_int64`. `setZigbeeParaIn_eq` shows that this is what `set_zigbee_para` of
`RtuA118.Zigbee.Setup` puts on the line, whatever was in the structure before.
-/

namespace RtuA118

/-! ### The builders -/

section Builders

variable (tmp : Nat → UInt8)

/-- A builder: the fields of the structure over what it held, the check sum at `sumAt`, and
the bytes written. -/
def sendFram (len framIdFlag : UInt8) (idName : UInt8 × UInt8) (data : List UInt8)
    (sumAt : Nat) : List UInt8 :=
  let buf := putBytes tmp 0 [0x7E]
  let buf := putBytes buf 1 [0x00]
  let buf := putBytes buf 2 [len]
  let buf := putBytes buf 3 [0x08]
  let buf := putBytes buf 4 [framIdFlag]
  let buf := putBytes buf 5 [idName.1, idName.2]
  let buf := putBytes buf 7 data
  let buf := putBytes buf sumAt [calcSumCheckIn buf]
  bytesOf buf (be16 (buf 1) (buf 2) + 4)

/-- `set_panid`; the check sum is in `check_sum`. -/
def setPanidIn (panid : UInt32) : List UInt8 :=
  let usePanid := panid.toUInt64
  sendFram tmp 0x0c 0x02 (0x49, 0x44) (bytesOfU64 (swapInt64 usePanid)) 15

/-- `set_sc_ch`. -/
def setScChIn (autoOrHandleFlag ch : UInt8) : Option (List UInt8) :=
  if autoOrHandleFlag = 0 then some (sendFram tmp 0x06 0x0b (0x53, 0x43) [0x7f, 0xff] 9)
  else if ch < 0x0b ∨ ch > 0x19 then none
  else
    let temp : UInt16 := 1 <<< (ch - 0x0b).toUInt16
    some (sendFram tmp 0x06 0x0b (0x53, 0x43) [hiByte temp, loByte temp] 9)

/-- `set_password_enable`. -/
def setPasswordEnableIn (flag : UInt8) : Option (List UInt8) :=
  if flag > 1 then none
  else if flag = 0 then some (sendFram tmp 0x05 0x01 (0x45, 0x45) [0x00] 8)
  else some (sendFram tmp 0x05 0x01 (0x45, 0x45) [0x01] 8)

/-- `set_xbee_key`. -/
def setXbeeKeyIn (key : UInt64) : List UInt8 :=
  sendFram tmp 0x0C 0x04 (0x4b, 0x59) (bytesOfU64 (swapInt64 key)) 15

/-- `xbee_store_parameter`. -/
def xbeeStoreParameterIn : List UInt8 := sendFram tmp 0x04 0x01 (0x57, 0x52) [] 7

/-- `xbee_net_restart`. -/
def xbeeNetRestartIn : List UInt8 := sendFram tmp 0x04 0x04 (0x4e, 0x52) [] 7

/-- `set_zigbee_para` of the nine registers under `st_zigbee_para_option`. -/
def setZigbeeParaIn (x : XbeeModule) (para : Nat → UInt16) : TtyPort :=
  let panid := swapRegister32 (u32OfWords (para 0) (para 1))
  let key := swapRegister64 (u64OfWords (para 5) (para 6) (para 7) (para 8))
  let (rc, c) := leaveCommandMode x
  if (-1 : Int) = rc.toNat then c.port
  else
    let p := apiStage x (some (setPanidIn tmp panid)) (0x49, 0x44) resendNum c.port
    let p := apiStage x (setScChIn tmp (loByte (para 2)) (loByte (para 3))) (0x53, 0x43) resendNum p
    let p := apiStage x (setPasswordEnableIn tmp (loByte (para 4))) (0x45, 0x45) resendNum p
    let p := apiStage x (some (setXbeeKeyIn tmp key)) (0x4b, 0x59) resendNum p
    let p := apiStage x (some (xbeeStoreParameterIn tmp)) (0x57, 0x52) resendNum p
    apiStage x (some (xbeeNetRestartIn tmp)) (0x4e, 0x52) resendNum p

end Builders

/-! ### The frames they write -/

/-- A frame behind its length field and before its check sum. -/
def apiBody (framIdFlag : UInt8) (idName : UInt8 × UInt8) (data : List UInt8) : List UInt8 :=
  [0x08, framIdFlag, idName.1, idName.2] ++ data

theorem apiFrame_eq (framIdFlag : UInt8) (idName : UInt8 × UInt8) (data : List UInt8) :
    apiFrame framIdFlag idName data =
      [0x7E, 0x00, UInt8.ofNat (data.length + 4)] ++ apiBody framIdFlag idName data ++
        [calcSumCheck (apiBody framIdFlag idName data)] := rfl

section Frames

variable (tmp : Nat → UInt8) (framIdFlag : UInt8) (idName : UInt8 × UInt8) {data : List UInt8}

/-- The length field counts what is between it and the check sum. -/
theorem apiFrame_field (hlen : data.length ≤ 8) :
    be16 0x00 (UInt8.ofNat (data.length + 4)) = data.length + 4 := by
  have hzero : (0x00 : UInt8).toNat = 0 := rfl
  rw [be16, UInt8.toNat_ofNat', hzero]
  omega

theorem sendFram_eq {len : UInt8} {sumAt : Nat} (hlen : data.length ≤ 8)
    (hfield : len = UInt8.ofNat (data.length + 4)) (hsum : sumAt = 7 + data.length) :
    sendFram tmp len framIdFlag idName data sumAt = apiFrame framIdFlag idName data := by
  have hbody : apiBody framIdFlag idName data ≠ [] := by simp [apiBody]
  have hcount : be16 0x00 len = (apiBody framIdFlag idName data).length := by
    rw [hfield, apiFrame_field hlen]
    simp [apiBody]
  have hfields : putBytes (putBytes (putBytes (putBytes (putBytes (putBytes (putBytes tmp 0
      [0x7E]) 1 [0x00]) 2 [len]) 3 [0x08]) 4 [framIdFlag]) 5 [idName.1, idName.2]) 7 data =
      putBytes tmp 0 ([0x7E, 0x00, len] ++ apiBody framIdFlag idName data) := by
    rw [putBytes_behind tmp (k := 1) _ rfl, putBytes_behind tmp (k := 2) _ rfl,
      putBytes_behind tmp (k := 3) _ rfl, putBytes_behind tmp (k := 4) _ rfl,
      putBytes_behind tmp (k := 5) _ rfl, putBytes_behind tmp (k := 7) _ rfl]
    rfl
  unfold sendFram
  dsimp only
  rw [hfields, calcSumCheckIn_eq tmp hbody hcount, putBytes_behind tmp _ (by simp [apiBody]; omega)]
  have h1 : putBytes tmp 0 ([0x7E, 0x00, len] ++ apiBody framIdFlag idName data ++
      [calcSumCheck (apiBody framIdFlag idName data)]) 1 = 0x00 := by simp [putBytes]
  have h2 : putBytes tmp 0 ([0x7E, 0x00, len] ++ apiBody framIdFlag idName data ++
      [calcSumCheck (apiBody framIdFlag idName data)]) 2 = len := by simp [putBytes]
  have hwhole : be16 0x00 len + 4 = ([0x7E, 0x00, len] ++ apiBody framIdFlag idName data ++
      [calcSumCheck (apiBody framIdFlag idName data)]).length := by
    rw [hcount]
    simp
  rw [h1, h2, hwhole, bytesOf_putBytes, apiFrame_eq, hfield]

/-- **What a builder writes is a valid frame.** -/
theorem apiFrame_valid (hlen : data.length ≤ 8) :
    ZigbeeFrame (apiFrame framIdFlag idName data) := by
  have hfield := apiFrame_field hlen
  rw [apiFrame_eq]
  refine ⟨rfl, ?_, ?_, ?_⟩
  · show _ = be16 0x00 (UInt8.ofNat (data.length + 4)) + 4
    rw [hfield]
    simp [apiBody]
  · simp [apiBody]
    omega
  · exact sum8_check (apiBody framIdFlag idName data)

end Frames

/-! ### The nine registers in them -/

section Registers

variable (tmp : Nat → UInt8)

/-- Registers as they go out, the upper byte first. -/
def beBytes (ws : List UInt16) : List UInt8 := ws.flatMap fun w => [hiByte w, loByte w]

theorem reverse_bytesOfWords (ws : List UInt16) :
    (bytesOfWords ws.reverse).reverse = beBytes ws := by
  induction ws with
  | nil => rfl
  | cons w ws ih => simp [bytesOfWords, beBytes] at ih ⊢; simp [ih]

theorem setPanidIn_eq (w0 w1 : UInt16) :
    setPanidIn tmp (swapRegister32 (u32OfWords w0 w1)) = setPanid [w0, w1].reverse := by
  have hdata : bytesOfU64 (swapInt64 (swapRegister32 (u32OfWords w0 w1)).toUInt64) =
      (bytesOfWords [w0, w1].reverse ++ [0, 0, 0, 0]).reverse := by
    rw [swapRegister32_u32OfWords, bytesOfU64_swapInt64, bytesOfU64_toUInt64,
      bytesOfU32_u32OfWords]
    rfl
  unfold setPanidIn
  dsimp only
  rw [hdata]
  exact sendFram_eq tmp _ _ (by simp) (by simp) (by simp)

theorem setXbeeKeyIn_eq (w0 w1 w2 w3 : UInt16) :
    setXbeeKeyIn tmp (swapRegister64 (u64OfWords w0 w1 w2 w3)) =
      setXbeeKey [w0, w1, w2, w3].reverse := by
  have hdata : bytesOfU64 (swapInt64 (swapRegister64 (u64OfWords w0 w1 w2 w3))) =
      (bytesOfWords [w0, w1, w2, w3].reverse).reverse := by
    rw [swapRegister64_u64OfWords, bytesOfU64_swapInt64, bytesOfU64_u64OfWords]
    rfl
  unfold setXbeeKeyIn
  rw [hdata]
  exact sendFram_eq tmp _ _ (by simp) (by simp) (by simp)

theorem setScChIn_eq (auto ch : UInt8) : setScChIn tmp auto ch = setScCh auto ch := by
  unfold setScChIn setScCh
  dsimp only
  rw [sendFram_eq tmp _ _ (by simp) (by simp) (by simp),
    sendFram_eq tmp _ _ (by simp) (by simp) (by simp)]

theorem setPasswordEnableIn_eq (flag : UInt8) :
    setPasswordEnableIn tmp flag = setPasswordEnable flag := by
  unfold setPasswordEnableIn setPasswordEnable
  rw [sendFram_eq tmp _ _ (by simp) (by simp) (by simp),
    sendFram_eq tmp _ _ (by simp) (by simp) (by simp)]

/-- **The structures refine the frames.** -/
theorem setZigbeeParaIn_eq (x : XbeeModule) (para : Nat → UInt16) :
    setZigbeeParaIn tmp x para = setZigbeePara x para := by
  have hstore : xbeeStoreParameterIn tmp = xbeeStoreParameter :=
    sendFram_eq tmp _ _ (by simp) (by simp) (by simp)
  have hrestart : xbeeNetRestartIn tmp = xbeeNetRestart :=
    sendFram_eq tmp _ _ (by simp) (by simp) (by simp)
  unfold setZigbeeParaIn setZigbeePara
  simp only [setPanidIn_eq, setXbeeKeyIn_eq, setScChIn_eq, setPasswordEnableIn_eq, hstore, hrestart]

end Registers

/-! ### What is on the line -/

section Line

variable {x : XbeeModule} {f : List UInt8}

theorem mem_setAtOrder {order : List UInt8} {p : TtyPort} (h : order ≠ [])
    (hf : f ∈ (setAtOrder x order p).2.port.written) : f ∈ p.written ∨ f = order := by
  obtain ⟨n, -, -, hwritten, -⟩ := setAtOrder_run x order p h
  rw [hwritten, List.mem_append] at hf
  exact hf.imp_right fun h => (List.mem_replicate.1 h).2

/-- The orders before the frames start with no delimiter. -/
theorem not_isApiFrame_leaveCommandMode (hf : f ∈ (leaveCommandMode x).2.port.written) :
    ¬ IsApiFrame f := by
  have horders : ∀ (orders : List (List UInt8)) (p : TtyPort), (∀ o ∈ orders, o ≠ []) →
      f ∈ (orders.foldl (fun p order => (setAtOrder x order p).2.port) p).written →
      f ∈ p.written ∨ f ∈ orders := by
    intro orders
    induction orders with
    | nil => exact fun p _ h => .inl h
    | cons order orders ih =>
        intro p hne h
        rcases ih _ (fun o ho => hne o (List.mem_cons_of_mem _ ho)) h with h | h
        · exact (mem_setAtOrder (hne order (by simp)) h).imp_right fun h => by simp [h]
        · exact .inr (by simp [h])
  rcases mem_setAtOrder (by decide) hf with h | rfl
  · rcases horders atOrders _ (by decide) h with h | h
    · simp at h
    · have hall : ∀ o ∈ atOrders, ¬ IsApiFrame o := by decide
      exact hall f h
  · decide

theorem of_mem_apiStage (frame : Option (List UInt8)) (idName : UInt8 × UInt8) :
    ∀ (n : Nat) {p : TtyPort}, f ∈ (apiStage x frame idName n p).written →
      f ∈ p.written ∨ frame = some f := by
  intro n
  induction n with
  | zero => exact fun h => .inl h
  | succ n ih =>
      intro p h
      have hturn : f ∈ (frame.elim p p.write).written → f ∈ p.written ∨ frame = some f := by
        cases frame with
        | none => exact .inl
        | some frame => simp [TtyPort.write, eq_comm]
      unfold apiStage at h
      dsimp only at h
      split at h
      · exact hturn h
      · exact (ih h).elim hturn .inr

theorem mem_apiStage_iff (frame : Option (List UInt8)) (idName : UInt8 × UInt8) (n : Nat)
    (p : TtyPort) :
    f ∈ (apiStage x frame idName (n + 1) p).written ↔ f ∈ p.written ∨ frame = some f := by
  constructor
  · exact of_mem_apiStage frame idName (n + 1)
  · rintro (h | rfl)
    · exact apiStage_keeps frame idName (n + 1) h
    · exact mem_apiStage f idName n p

/-- The frames of the six stages. -/
def paraFrames (para : Nat → UInt16) : List (Option (List UInt8)) :=
  [some (setPanid [para 0, para 1].reverse), setScCh (loByte (para 2)) (loByte (para 3)),
    setPasswordEnable (loByte (para 4)), some (setXbeeKey [para 5, para 6, para 7, para 8].reverse),
    some xbeeStoreParameter, some xbeeNetRestart]

theorem mem_setZigbeePara_iff (x : XbeeModule) (para : Nat → UInt16) :
    f ∈ (setZigbeePara x para).written ↔
      f ∈ (leaveCommandMode x).2.port.written ∨ some f ∈ paraFrames para := by
  have hleft : ¬ (-1 : Int) = (leaveCommandMode x).1.toNat := setAtOrder_ne _ _
  unfold setZigbeePara
  dsimp only
  rw [if_neg hleft]
  simp only [show resendNum = 9 + 1 from rfl, mem_apiStage_iff, paraFrames, List.mem_cons,
    List.not_mem_nil, or_false, or_assoc, eq_comm (a := some f)]

theorem setScCh_eq_some {auto ch : UInt8} (h : setScCh auto ch = some f) :
    ∃ data, data.length = 2 ∧ f = apiFrame 0x0b (0x53, 0x43) data := by
  unfold setScCh at h
  split at h
  · exact ⟨_, rfl, (Option.some.inj h).symm⟩
  · split at h
    · cases h
    · exact ⟨_, rfl, (Option.some.inj h).symm⟩

theorem setPasswordEnable_eq_some {flag : UInt8} (h : setPasswordEnable flag = some f) :
    ∃ data, data.length = 1 ∧ f = apiFrame 0x01 (0x45, 0x45) data := by
  unfold setPasswordEnable at h
  split at h
  · cases h
  · split at h <;> exact ⟨_, rfl, (Option.some.inj h).symm⟩

/-- Whichever stage it is of. -/
theorem exists_apiFrame {para : Nat → UInt16} (h : some f ∈ paraFrames para) :
    ∃ framIdFlag idName data, data.length ≤ 8 ∧ f = apiFrame framIdFlag idName data := by
  simp only [paraFrames, List.mem_cons, Option.some.injEq, List.not_mem_nil, or_false] at h
  rcases h with rfl | h | h | rfl | rfl | rfl
  · exact ⟨_, _, _, by simp, rfl⟩
  · obtain ⟨data, hlen, rfl⟩ := setScCh_eq_some h.symm
    exact ⟨_, _, data, by omega, rfl⟩
  · obtain ⟨data, hlen, rfl⟩ := setPasswordEnable_eq_some h.symm
    exact ⟨_, _, data, by omega, rfl⟩
  · exact ⟨_, _, _, by simp, rfl⟩
  · exact ⟨_, _, [], by simp, rfl⟩
  · exact ⟨_, _, [], by simp, rfl⟩

end Line

/-! ### What they say -/

/-- The order a frame carries. -/
def orderOf (f : List UInt8) : UInt8 × UInt8 := (f.getD 5 0, f.getD 6 0)

/-- The eight data bytes of a frame. -/
def dataOf (f : List UInt8) : List UInt8 := (f.drop 7).take 8

/-- The channel mask of a frame. -/
def maskOf (f : List UInt8) : Nat := be16 (f.getD 7 0) (f.getD 8 0)

/-- The frames of a configuration are whole, pass the receiver's check, and carry its
registers: bit `i` of the mask stands for channel `0x0b + i`. -/
structure CarriesPara (para : Nat → UInt16) (frames : List (List UInt8)) : Prop where
  whole : ∀ f ∈ frames, f.length = be16 (f.getD 1 0) (f.getD 2 0) + 4 ∧
    checkIntegrityZigbee f = true
  panid : ∀ f ∈ frames, orderOf f = (0x49, 0x44) →
    dataOf f = [0, 0, 0, 0] ++ beBytes [para 0, para 1]
  key : ∀ f ∈ frames, orderOf f = (0x4b, 0x59) →
    dataOf f = beBytes [para 5, para 6, para 7, para 8]
  channel : ∀ f ∈ frames, orderOf f = (0x53, 0x43) → para 2 ≠ 0 →
    ∀ i, (maskOf f).testBit i = true ↔ 0x0b + i = (para 3).toNat

/-- The API frames among what was written. -/
def apiFrames (p : TtyPort) : List (List UInt8) := p.written.filter fun f => decide (IsApiFrame f)

/-- The channel is automatic; or the two registers say the same as their lower bytes: a flag
that is not zero, and a channel that is the one the byte names, if the byte names one. -/
def ChannelFits (flag ch : UInt16) : Prop :=
  flag = 0 ∨ loByte flag ≠ 0 ∧ (ch.toNat < 256 ∨ loByte ch < 0x0b ∨ loByte ch > 0x19)

section Para

variable {x : XbeeModule} {f : List UInt8}

theorem mem_apiFrames_iff (para : Nat → UInt16) :
    f ∈ apiFrames (setZigbeePara x para) ↔ some f ∈ paraFrames para := by
  rw [apiFrames, List.mem_filter, decide_eq_true_iff, mem_setZigbeePara_iff]
  constructor
  · intro ⟨h, hapi⟩
    exact h.resolve_left fun h => not_isApiFrame_leaveCommandMode h hapi
  · intro h
    obtain ⟨framIdFlag, idName, data, -, rfl⟩ := exists_apiFrame h
    exact ⟨.inr h, rfl⟩

@[simp] theorem orderOf_apiFrame (framIdFlag : UInt8) (idName : UInt8 × UInt8)
    (data : List UInt8) : orderOf (apiFrame framIdFlag idName data) = idName := rfl

theorem dataOf_apiFrame (framIdFlag : UInt8) (idName : UInt8 × UInt8) {data : List UInt8}
    (h : data.length = 8) : dataOf (apiFrame framIdFlag idName data) = data := by
  rw [dataOf, apiFrame_eq, apiBody]
  exact List.take_left' h

/-- The stage whose order a frame carries. -/
theorem stage_of_order {para : Nat → UInt16} (h : some f ∈ paraFrames para) :
    (orderOf f = (0x49, 0x44) → f = setPanid [para 0, para 1].reverse) ∧
      (orderOf f = (0x4b, 0x59) → f = setXbeeKey [para 5, para 6, para 7, para 8].reverse) ∧
      (orderOf f = (0x53, 0x43) → setScCh (loByte (para 2)) (loByte (para 3)) = some f) := by
  simp only [paraFrames, List.mem_cons, Option.some.injEq, List.not_mem_nil, or_false] at h
  rcases h with rfl | h | h | rfl | rfl | rfl
  · simp [setPanid]
  · obtain ⟨data, -, rfl⟩ := setScCh_eq_some h.symm
    simp [h]
  · obtain ⟨data, -, rfl⟩ := setPasswordEnable_eq_some h.symm
    simp
  · simp [setXbeeKey]
  · simp [xbeeStoreParameter]
  · simp [xbeeNetRestart]

end Para

/-! ### The channel mask -/

section Mask

theorem maskOf_scCh (a b : UInt8) : maskOf (apiFrame 0x0b (0x53, 0x43) [a, b]) = be16 a b := rfl

/-- The mask of a channel that is one. -/
theorem toNat_channelBit {c : UInt8} (hlo : ¬ c < 0x0b) (hhi : ¬ c > 0x19) :
    ((1 : UInt16) <<< (c - 0x0b).toUInt16).toNat = 2 ^ (c.toNat - 0x0b) := by
  have hge : 0x0b ≤ c.toNat := Nat.not_lt.1 fun h => hlo (UInt8.lt_iff_toNat_lt.2 h)
  have hle : c.toNat ≤ 0x19 := Nat.not_lt.1 fun h => hhi (UInt8.lt_iff_toNat_lt.2 h)
  have hsub : (c - 0x0b).toNat = c.toNat - 0x0b :=
    UInt8.toNat_sub_of_le c 0x0b (UInt8.le_iff_toNat_le.2 hge)
  have hshift : (c - 0x0b).toUInt16.toNat % 16 = c.toNat - 0x0b := by
    rw [UInt8.toNat_toUInt16, hsub]
    omega
  have hbit : 2 ^ (c.toNat - 0x0b) < 2 ^ 16 := Nat.pow_lt_pow_right (by decide) (by omega)
  rw [UInt16.toNat_shiftLeft, hshift, show (1 : UInt16).toNat = 1 from rfl, Nat.one_shiftLeft,
    Nat.mod_eq_of_lt hbit]

/-- A frame of `set_sc_ch` has the bit of the channel register, or the registers do not say what
their lower bytes say. -/
theorem channel_iff (flag ch : UInt16) :
    (∀ f, setScCh (loByte flag) (loByte ch) = some f → flag ≠ 0 →
      ∀ i, (maskOf f).testBit i = true ↔ 0x0b + i = ch.toNat) ↔ ChannelFits flag ch := by
  unfold ChannelFits setScCh
  by_cases hflag : flag = 0
  · simp [hflag]
  rw [or_iff_right hflag]
  by_cases hauto : loByte flag = 0
  · -- the automatic frame, with all fifteen bits, although the flag is set
    rw [if_pos hauto]
    refine iff_of_false (fun h => ?_) fun h => h.1 hauto
    have h0 : 0x0b + 0 = ch.toNat := (h _ rfl hflag 0).1 (by decide)
    have h1 : 0x0b + 1 = ch.toNat := (h _ rfl hflag 1).1 (by decide)
    omega
  rw [if_neg hauto, and_iff_right hauto]
  by_cases hrange : loByte ch < 0x0b ∨ loByte ch > 0x19
  · rw [if_pos hrange]
    exact iff_of_true (fun f h => nomatch h) (.inr hrange)
  rw [if_neg hrange, or_iff_left hrange]
  have hbit := toNat_channelBit (mt .inl hrange) (mt .inr hrange)
  have hge : 0x0b ≤ (loByte ch).toNat :=
    Nat.not_lt.1 fun h => hrange (.inl (UInt8.lt_iff_toNat_lt.2 h))
  have hlo := toNat_loByte ch
  have hmask (i : Nat) : (maskOf (apiFrame 0x0b (0x53, 0x43)
      [hiByte (1 <<< (loByte ch - 0x0b).toUInt16), loByte (1 <<< (loByte ch - 0x0b).toUInt16)]
      )).testBit i = true ↔ 0x0b + i = (loByte ch).toNat := by
    rw [maskOf_scCh, be16_bytes, hbit, Nat.testBit_two_pow, decide_eq_true_iff]
    omega
  constructor
  · intro h
    have hch := (h _ rfl hflag _).1 ((hmask ((loByte ch).toNat - 0x0b)).2 (by omega))
    omega
  · intro hlt f hf _ i
    obtain rfl := Option.some.inj hf
    rw [hmask, hlo, Nat.mod_eq_of_lt hlt]

end Mask

/-- **The frames of a configuration.** -/
theorem setZigbeeParaIn_carries_iff (tmp : Nat → UInt8) (x : XbeeModule) (para : Nat → UInt16) :
    CarriesPara para (apiFrames (setZigbeeParaIn tmp x para)) ↔ ChannelFits (para 2) (para 3) := by
  rw [setZigbeeParaIn_eq, ← channel_iff]
  constructor
  · intro h f hf
    have hmem : some f ∈ paraFrames para := by simp [paraFrames, hf]
    obtain ⟨data, -, hdata⟩ := setScCh_eq_some hf
    exact h.channel f ((mem_apiFrames_iff para).2 hmem) (by rw [hdata, orderOf_apiFrame])
  · intro h
    refine ⟨fun f hf => ?_, fun f hf ho => ?_, fun f hf ho => ?_, fun f hf ho => ?_⟩
      <;> rw [mem_apiFrames_iff] at hf
    · obtain ⟨framIdFlag, idName, data, hlen, rfl⟩ := exists_apiFrame hf
      have hvalid := apiFrame_valid framIdFlag idName hlen
      exact ⟨hvalid.length, hvalid.checked⟩
    · rw [(stage_of_order hf).1 ho, setPanid, dataOf_apiFrame _ _ (by simp), List.reverse_append,
        reverse_bytesOfWords]
      rfl
    · rw [(stage_of_order hf).2.1 ho, setXbeeKey, dataOf_apiFrame _ _ (by simp),
        reverse_bytesOfWords]
    · exact h f ((stage_of_order hf).2.2 ho)

/-- With the channel register 0x010B the frame selects channel 0x0B. -/
theorem not_setZigbeeParaIn_carries :
    ¬ ∀ (tmp : Nat → UInt8) (x : XbeeModule) (para : Nat → UInt16),
      CarriesPara para (apiFrames (setZigbeeParaIn tmp x para)) := by
  intro h
  let para : Nat → UInt16 := fun i => if i = 2 then 1 else if i = 3 then 0x010B else 0
  have hc := h (fun _ => 0) silentModule para
  rw [setZigbeeParaIn_eq] at hc
  have hmem : some (apiFrame 0x0b (0x53, 0x43) [0x00, 0x01]) ∈ paraFrames para := by decide
  have hbit := hc.channel _ ((mem_apiFrames_iff para).2 hmem) rfl (by decide) 0
  exact absurd (hbit.1 (by decide)) (by decide)

end RtuA118
