import RtuA118.Serial.Frame

/-!
# RtuA118.Serial.SampledRun

A sampling run that **measures**: every read is answered in time, and the samples are
stored.

`comes_measured` is one read, `comes_samples` the loop, `comes_stored` what is done
with the samples. The missing points that a run inserts do not hide the first sample
(`insertPoints_zero`), so what the first register of the current diagram holds
afterwards depends on the reply (`FirstPoint`).
-/

namespace RtuA118

open Program Serial Rs485

/-! ### Inserted points -/

theorem backwardLoop_apply (base : Int) (n : Nat) (d : SynData) (k : Int) :
    backwardLoop base n d k = if base < k ∧ k ≤ base + n then d (k - 1) else d k := by
  induction n generalizing d with
  | zero =>
      rw [backwardLoop, if_neg]
      omega
  | succ n ih =>
      rw [backwardLoop, ih]
      simp only [Function.update_apply]
      split_ifs <;> first
        | rfl
        | omega
        | (congr 1; omega)

theorem buffBackward_of_not_mem {base : Int} {len : UInt16} {d : SynData} {k : Int}
    (hk : k ≤ base) :
    buffBackward base len d k = d k := by
  unfold buffBackward
  split
  · rfl
  · rw [backwardLoop_apply, if_neg]
    omega

/-- A point inserted behind the first leaves it. -/
theorem insertPoint_zero {m movePos : UInt16} {d : SynData} (hpos : movePos.toNat % 250 ≠ 0) :
    insertPoint m movePos d 0 = d 0 := by
  unfold insertPoint
  dsimp only
  split
  · rw [Function.update_of_ne (by omega), Function.update_of_ne (by omega),
      buffBackward_of_not_mem (by omega), buffBackward_of_not_mem (by omega)]
  · rw [Function.update_of_ne (by omega), Function.update_of_ne (by omega),
      buffBackward_of_not_mem (by omega), buffBackward_of_not_mem (by omega)]

/-- A point inserted in front is the mean of the first and of what lies before it. -/
theorem insertPoint_front {m : UInt16} {d : SynData} (hm : 2 ≤ m.toNat) :
    insertPoint m 0 d 0 = meanOf (shortAt d (-1)) (shortAt d 0) := by
  have hlen : UInt16.ofInt ((m.toNat : Int) - (0 : UInt16).toNat) = m := by
    have hlt := m.toNat_lt
    apply UInt16.toNat_inj.1
    simp [UInt16.ofInt]
    omega
  have hshift : buffBackward 0 m d 1 = d 0 := by
    unfold buffBackward
    rw [if_neg (by rw [UInt16.le_iff_toNat_le]; exact Nat.not_le.2 hm), backwardLoop_apply,
      if_pos (by omega)]
    rfl
  unfold insertPoint
  dsimp only
  rw [hlen, if_neg (by simp; omega), Function.update_of_ne (by decide)]
  simp [shortAt, buffBackward_of_not_mem, hshift]

/-- Points inserted one after the other, all behind the first. -/
theorem insertPoints_behind {m step : UInt16} : ∀ {k : Nat} {movePos : UInt16} {d : SynData},
    1 ≤ movePos.toNat → movePos.toNat + step.toNat * k < 250 + step.toNat →
    insertPoints m step k movePos d 0 = d 0 := by
  intro k
  induction k with
  | zero => intro movePos d _ _; rfl
  | succ k ih =>
      intro movePos d hpos hlt
      rw [Nat.mul_succ] at hlt
      have hnext : (movePos + step).toNat = movePos.toNat + step.toNat ∨ k = 0 := by
        rcases Nat.eq_zero_or_pos k with rfl | hk
        · exact .inr rfl
        · have hstep := Nat.le_mul_of_pos_right step.toNat hk
          rw [UInt16.toNat_add]
          omega
      rw [insertPoints]
      rcases hnext with hnext | rfl
      · rw [ih (by omega) (by omega), insertPoint_zero (by omega)]
      · rw [insertPoints, insertPoint_zero (by omega)]

/-- What the first sample `v` can have become. -/
def FirstPoint (v x : UInt16) : Prop := x = v ∨ x = meanOf (-1) v.toInt16.toInt

theorem insertPoints_zero {m step : UInt16} {k : Nat} {d : SynData} (hm : 2 ≤ m.toNat)
    (hstep : 1 ≤ step.toNat) (hfit : step.toNat * k ≤ 250) (hbefore : d (-1) = 0xFFFF) :
    FirstPoint (d 0) (insertPoints m step k (step - 1) d 0) := by
  have hfirst : (step - 1).toNat = step.toNat - 1 := by
    rw [UInt16.toNat_sub_of_le _ _ (by rw [UInt16.le_iff_toNat_le]; exact hstep)]
    rfl
  by_cases h1 : step.toNat = 1
  · obtain rfl : step = 1 := UInt16.toNat_inj.1 h1
    cases k with
    | zero => exact .inl rfl
    | succ k =>
        rw [h1] at hfit
        refine .inr ?_
        rw [insertPoints, show (1 : UInt16) - 1 = 0 by decide,
          insertPoints_behind (by decide) (by simp; omega), insertPoint_front hm]
        unfold shortAt
        rw [hbefore]
        rfl
  · refine .inl (insertPoints_behind (by omega) ?_)
    rw [hfirst]
    omega

/-- A sample of nothing, and one of 100, tell the register apart. -/
theorem FirstPoint.zero {x : UInt16} (h : FirstPoint 0 x) : x = 0 := by
  rcases h with rfl | rfl <;> decide

theorem FirstPoint.ne_zero {x : UInt16} (h : FirstPoint 100 x) : x ≠ 0 := by
  rcases h with rfl | rfl <;> decide

/-! ### A read that is answered -/

/-- The other threads leave the map alone. -/
def Alone (_ : Rs485) (_ : Act) (i : Input) : Prop := ∀ r, (i.others r).map = r.map

/-- An input that brings bytes, or has a wait end well. -/
def delivering (bytes : List UInt8) (clock : Timeval) : Input := ⟨id, true, none, bytes, clock⟩

/-- The parameters of a run are accepted, and there are points to sample. -/
def SynInfo.Accepted (p : SynInfo) : Prop :=
  1000 ≤ p.cycleTime ∧ p.cycleTime ≤ 10000 ∧ p.samplePoints ≠ 0

instance (p : SynInfo) : Decidable p.Accepted := inferInstanceAs (Decidable (_ ∧ _))

section Comes

variable {h : Host} {α β : Type}

/-- What the thread may come to while the other threads leave the map alone. -/
abbrev ComesAlone (h : Host) (post : α → Rs485 → Prop) : Serial α → Rs485 → Prop :=
  May (restrict (exec h .master) Alone) (fun _ => True) post

theorem comesAlone_op {post : β → Rs485 → Prop} {e : Act} {f : e.Out → Serial β}
    {s s' : Rs485} {r : e.Out} (bytes : List UInt8) (clock : Timeval) (hf : s.Follows e)
    (hp : perform h .master e (delivering bytes clock) s = some (r, s'))
    (hk : ComesAlone h post (f r) s') : ComesAlone h post (Prog.op e >>= f) s :=
  may_op_bind trivial ((restrict_eq fun _ => rfl).trans ((exec_eq hf).trans hp)) hk

/-- A piece that comes at once. -/
theorem comes_piece {post : Option (List UInt8) → Rs485 → Prop} {r : FrameRule} {c : Nat}
    {st st' : RecvState} {s : Rs485} (bytes : List UInt8) (hc : (s.contexts c).alive = true)
    (hlen : bytes.length = st.lengthToRead) (hne : bytes ≠ [])
    (hadv : r.advance st.step (st.msg ++ bytes) = some st')
    (hk : ComesAlone h post (receive r c st') s) : ComesAlone h post (receive r c st) s := by
  have hpos := List.length_pos_of_ne_nil hne
  rw [receive, dif_neg (by omega)]
  refine comesAlone_op (r := true) [] ⟨0, 0⟩ (follows_of rfl hc) rfl ?_
  rw [if_pos rfl]
  refine comesAlone_op (r := bytes) bytes ⟨0, 0⟩ (follows_of rfl hc)
    (congrArg (fun b => some (b, s)) (List.take_of_length_le (Nat.le_of_eq hlen))) ?_
  rw [dif_neg hne, dif_pos (by omega)]
  split
  · rename_i hnone
    rw [hadv] at hnone
    cases hnone
  · rename_i st'' hsome
    obtain rfl := Option.some.inj (hadv.symm.trans hsome)
    exact hk

/-- The module's reply: four words, the first of them the current. -/
def sampleReply (v : UInt8) : List UInt8 :=
  Backend.rtu.sendMsgPre [0, 3, 8, 0, v, 0, 0, 0, 0, 0, 0]

theorem comes_reply {c : Nat} {v : UInt8} {s : Rs485} (hc : (s.contexts c).alive = true) :
    ComesAlone h (fun o s' => o = some (sampleReply v) ∧ s' = s)
      (modbusReceiveMsg c .confirmation) s := by
  obtain ⟨hi, lo, hcrc⟩ : ∃ hi lo, sampleReply v = [0, 3, 8, 0, v, 0, 0, 0, 0, 0, 0, hi, lo] :=
    ⟨_, _, rfl⟩
  refine may_bind.2 (comes_piece [0, 3] hc rfl (by simp) rfl ?_)
  refine comes_piece [8] hc rfl (by simp) rfl ?_
  refine comes_piece [0, v, 0, 0, 0, 0, 0, 0, hi, lo] hc rfl (by simp) rfl ?_
  rw [receive, dif_pos rfl]
  refine comesAlone_op [] ⟨0, 0⟩ (follows_of rfl hc) rfl ?_
  rw [if_pos]
  · exact ⟨congrArg some hcrc.symm, rfl⟩
  · exact (congrArg _ hcrc).symm.trans (checkIntegrity_sendMsgPre .rtu _)

/-- It is taken as good. -/
theorem sampleReply_confirmed (slave : Int) (v : UInt8) :
    checkConfirmation .rtu
      (fun k => ((LineRequest.readRegisters 0x43 4).frame slave).getD k 0) (sampleReply v)
      = .success 4 := by
  obtain ⟨hi, lo, hcrc⟩ : ∃ hi lo, sampleReply v = [0, 3, 8, 0, v, 0, 0, 0, 0, 0, 0, hi, lo] :=
    ⟨_, _, rfl⟩
  obtain ⟨hi', lo', hreq⟩ : ∃ hi lo, (LineRequest.readRegisters 0x43 4).frame slave
      = [UInt8.ofInt slave, 3, 0, 0x43, 0, 4, hi, lo] := ⟨_, _, rfl⟩
  rw [hcrc, hreq]
  simp [checkConfirmation, computeResponseLengthFromRequest, preCheckConfirmation, reqNbValue,
    rspNbValue, Backend.headerLength, Backend.checksumLength, be16]

/-- One read of the module. -/
theorem comes_measured {c : Nat} {v : UInt8} {s : Rs485} (hc : (s.contexts c).alive = true) :
    ComesAlone h (fun o s' => (∃ words, o = some words ∧ words.getD 0 0 = wordOfBytes v 0) ∧
      ∃ sent, s' = { s with sent := sent }) (modbusReadRegisters c 0x43 4) s := by
  refine may_bind.2 ?_
  refine comesAlone_op [] ⟨0, 0⟩ (follows_of rfl hc) rfl ?_
  refine may_bind.2 (May.mono (comes_reply (v := v) ?_) ?_)
  · exact hc
  rintro _ _ ⟨rfl, rfl⟩
  refine comesAlone_op [] ⟨0, 0⟩ (follows_of rfl hc) rfl ?_
  rw [sampleReply_confirmed]
  exact ⟨⟨_, rfl, rfl⟩, _, rfl⟩

/-! ### The samples -/

/-- A sample that is measured at the first attempt, not late. -/
theorem comes_sampleOnce {c : Nat} {synT1 : Timeval} {v : UInt8} {s : Rs485}
    (hc : (s.contexts c).alive = true) :
    ComesAlone h (fun o s' => (∃ words, o = .measured words ∧ words.getD 0 0 = wordOfBytes v 0) ∧
      ∃ sent, s' = { s with sent := sent }) (sampleOnce c synT1 6) s := by
  refine comesAlone_op [] synT1 nofun rfl ?_
  rw [if_neg (by simp [delivering])]
  refine may_bind.2 ((comes_measured (v := v) hc).mono ?_)
  rintro _ _ ⟨⟨words, rfl, hwords⟩, hsent⟩
  exact ⟨⟨words, rfl, hwords⟩, hsent⟩

/-- The first sample is in the first place, and nothing lies before it. -/
structure Samples.Begun (v : UInt16) (st : Samples) : Prop where
  first : st.data 0 = v
  before : st.data (-1) = 0xFFFF

theorem Samples.store_before {stepTm : Nat} {words : List UInt16} {st : Samples}
    (hst : st.data (-1) = 0xFFFF) : (st.store stepTm words).data (-1) = 0xFFFF := by
  unfold Samples.store
  dsimp only
  rw [Function.update_of_ne (by omega), Function.update_of_ne (by omega), hst]

theorem Samples.store_first {stepTm : Nat} {words : List UInt16} {st : Samples} {v : UInt16}
    (hst : st.i = 0 ∨ st.data 0 = v) (hwords : words.getD 0 0 = v) :
    (st.store stepTm words).data 0 = v := by
  unfold Samples.store
  dsimp only
  rw [Function.update_of_ne (by omega), Function.update_apply]
  split
  · exact hwords
  · rename_i hne
    rcases hst with hst | hst
    · exact absurd (by simp [hst]) hne
    · exact hst

/-- All samples there are to be. -/
theorem comes_samples {c stepTm : Nat} {synT1 : Timeval} {v : UInt8} : ∀ {k : Nat} {st : Samples}
    {s : Rs485}, (s.contexts c).alive = true → st.data (-1) = 0xFFFF →
    (0 < k ∧ st.i = 0 ∨ st.data 0 = wordOfBytes v 0) →
    ComesAlone h (fun o s' => (∃ st', o = some (false, st') ∧ st'.Begun (wordOfBytes v 0)) ∧
      ∃ sent, s' = { s with sent := sent }) (sampleLoop c stepTm synT1 k st) s := by
  intro k
  induction k with
  | zero =>
      intro st s _ hbefore hfirst
      exact ⟨⟨st, rfl, by simpa using hfirst, hbefore⟩, s.sent, rfl⟩
  | succ k ih =>
      intro st s hc hbefore hfirst
      refine may_bind.2 ((comes_sampleOnce (v := v) hc).mono ?_)
      rintro _ _ ⟨⟨words, rfl, hwords⟩, sent, rfl⟩
      have hstored : (st.store stepTm words).data 0 = wordOfBytes v 0 :=
        Samples.store_first (hfirst.imp_left And.right) hwords
      refine comesAlone_op [] ⟨0, 0⟩ nofun rfl ?_
      exact (ih (s := { s with sent := sent }) hc (Samples.store_before hbefore)
        (.inr hstored)).mono fun _ _ ho => ho

/-! ### The run -/

/-- The plan of such a run has samples, and no more points than there is room for. -/
theorem comes_plan {s : Rs485} (hs : s.synAlongInfo.Accepted) :
    ComesAlone h (fun o s' => s' = s ∧ 1 ≤ o.2.n.toNat ∧ o.1.toNat ≤ 250) samplePlan s := by
  obtain ⟨hlow, hhigh, hpoints⟩ := hs
  rw [UInt16.le_iff_toNat_le] at hlow hhigh
  have hlow : 1000 ≤ s.synAlongInfo.cycleTime.toNat := hlow
  have hhigh : s.synAlongInfo.cycleTime.toNat ≤ 10000 := hhigh
  have hpoints : s.synAlongInfo.samplePoints.toNat ≠ 0 := fun h0 => hpoints (UInt16.toNat_inj.1 h0)
  obtain ⟨m, hm⟩ : ∃ m : UInt16, m =
      if s.synAlongInfo.samplePoints > 250 then 250 else s.synAlongInfo.samplePoints := ⟨_, rfl⟩
  have hm1 : 1 ≤ m.toNat ∧ m.toNat ≤ 250 := by
    rw [hm]
    split
    · decide
    · rename_i hle
      have hle := UInt16.le_iff_toNat_le.1 (UInt16.not_lt.1 hle)
      exact ⟨Nat.one_le_iff_ne_zero.2 hpoints, hle⟩
  refine comesAlone_op (r := s.synAlongInfo.samplePoints) [] ⟨0, 0⟩ nofun rfl ?_
  refine comesAlone_op (r := s.synAlongInfo.cycleTime) [] ⟨0, 0⟩ nofun rfl ?_
  rw [← hm]
  refine comesAlone_op [] ⟨0, 0⟩ nofun (if_neg (Int.natCast_ne_zero.2 (by omega))) ?_
  dsimp only
  split
  · refine comesAlone_op (r := s.synAlongInfo.cycleTime) [] ⟨0, 0⟩ nofun rfl ?_
    refine ⟨rfl, ?_, hm1.2⟩
    rw [UInt16.toNat_ofNat']
    omega
  · exact ⟨rfl, hm1⟩

/-- The missing points. -/
theorem comes_filled {n m v : UInt16} {st : Samples} {s : Rs485} (hst : st.Begun v)
    (hn : 1 ≤ n.toNat) (hm : m.toNat ≤ 250) :
    ComesAlone h (fun d s' => s' = s ∧ FirstPoint v (d 0)) (fillSamples n m st.data) s := by
  unfold fillSamples
  split
  · rename_i hlt
    have hlt := UInt16.lt_iff_toNat_lt.1 hlt
    have hdiff : ((m.toNat : Int) - n.toNat) = ((m.toNat - n.toNat : Nat) : Int) := by omega
    have hpos : 0 < m.toNat - n.toNat := by omega
    have hmul := Nat.div_mul_le_self m.toNat (m.toNat - n.toNat)
    have hdiv : 1 ≤ m.toNat / (m.toNat - n.toNat) := Nat.div_pos (Nat.sub_le _ _) hpos
    have hle : m.toNat / (m.toNat - n.toNat) ≤ m.toNat := Nat.div_le_self _ _
    refine comesAlone_op [] ⟨0, 0⟩ nofun (if_neg (by omega)) ?_
    have hstep : (UInt16.ofInt (Int.tdiv m.toNat ((m.toNat : Int) - n.toNat))).toNat
        = m.toNat / (m.toNat - n.toNat) := by
      rw [hdiff, ← Int.ofNat_tdiv]
      simp [UInt16.ofInt]
      omega
    refine ⟨rfl, ?_⟩
    rw [← hst.first]
    exact insertPoints_zero (by omega) (by omega) (by rw [hstep]; omega) hst.before
  · exact ⟨rfl, .inl hst.first⟩

/-- What a run stores into a well: the samples, and the time. -/
def storeSampled (env : Platform) (w : Nat) (d : SynData) (r : Rtu) : Rtu :=
  let r := writeWords env w elecCycleCurrentAddr d.words r
  writeWords env w elecCycleTimeAddr (timeWords env r) r

/-- The samples are stored, the first of them in the first place or as a mean. -/
def Stored (env : Platform) (w : Nat) (v : UInt16) (r r' : Rtu) : Prop :=
  ∃ d, FirstPoint v (d 0) ∧ r' = storeSampled env w d r

theorem comes_stored {w n m v : UInt16} {st : Samples} {s : Rs485} (hst : st.Begun v)
    (hn : 1 ≤ n.toNat) (hm : m.toNat ≤ 250) :
    ComesAlone h (fun _ s' => Stored h.env w.toNat v s.rtu s'.rtu) (storeSamples w n m st.data)
      s := by
  refine may_bind.2 ((comes_filled hst hn hm).mono ?_)
  rintro d _ ⟨rfl, hd⟩
  refine comesAlone_op [] ⟨0, 0⟩ nofun rfl ?_
  refine comesAlone_op [] ⟨0, 0⟩ nofun rfl ?_
  exact ⟨d, hd, rfl⟩

/-- **A run that is answered stores its samples** into the well it was given. -/
theorem comes_sampleRun {c : Nat} {w : UInt16} {synT0 : Timeval} (v : UInt8) {s : Rs485}
    (hc : (s.contexts c).alive = true) (hs : s.synAlongInfo.Accepted) :
    ComesAlone h (fun _ s' => Stored h.env w.toNat (wordOfBytes v 0) s.rtu s'.rtu)
      (sampleRun c w synT0) s := by
  refine may_bind.2 ((comes_plan hs).mono ?_)
  rintro ⟨m, plan⟩ t ⟨rfl, hn, hm⟩
  refine comesAlone_op [] ⟨0, 0⟩ nofun rfl ?_
  refine comesAlone_op [] ⟨0, 0⟩ nofun rfl ?_
  refine comesAlone_op [] ⟨0, 0⟩ (follows_of rfl hc) rfl ?_
  refine may_bind.2 ((comes_samples (v := v) hc rfl (.inl ⟨hn, rfl⟩)).mono ?_)
  rintro _ _ ⟨⟨st, rfl, hst⟩, sent, rfl⟩
  exact comes_stored (s := { t with sent := sent }) hst hn hm

theorem comes_timeHandleFun {c : Nat} (v : UInt8) {s : Rs485} (hc : (s.contexts c).alive = true)
    (hs : s.synAlongInfo.Accepted) :
    ComesAlone h (fun _ s' => Stored h.env (readWord h.env s.rtu h.stack 1 elecWellNoAddr).toNat
      (wordOfBytes v 0) s.rtu s'.rtu) (timeHandleFun c) s := by
  refine comesAlone_op [] ⟨0, 0⟩ nofun rfl ?_
  refine comesAlone_op [] ⟨0, 0⟩ (follows_of rfl hc) rfl ?_
  refine comesAlone_op [] ⟨0, 0⟩ nofun rfl ?_
  refine comesAlone_op (r := s.synAlongInfo.cycleTime) [] ⟨0, 0⟩ nofun rfl ?_
  refine comesAlone_op (r := s.synAlongInfo.synchronTime) [] ⟨0, 0⟩ nofun rfl ?_
  refine comesAlone_op (r := s.synAlongInfo.cycleTime) [] ⟨0, 0⟩ nofun rfl ?_
  rw [if_neg (UInt16.not_lt.2 hs.1)]
  refine comesAlone_op (r := s.synAlongInfo.cycleTime) [] ⟨0, 0⟩ nofun rfl ?_
  rw [if_neg (UInt16.not_lt.2 hs.2.1)]
  refine comes_sampleRun v (s := s.onContext c _) ?_ hs
  simpa [Rs485.onContext, Context.setSlave] using hc

/-- The turn that finds a request. -/
theorem comes_deal {c : Nat} (v : UInt8) {s : Rs485} (hc : (s.contexts c).alive = true)
    (hctrl : s.ctrl = .electricalSync) (hs : s.synAlongInfo.Accepted) :
    ComesAlone h (fun _ s' => Stored h.env (readWord h.env s.rtu h.stack 1 elecWellNoAddr).toNat
      (wordOfBytes v 0) s.rtu s'.rtu) (dealMaster485Packet h c) s := by
  refine comesAlone_op (r := .electricalSync) [] ⟨0, 0⟩ nofun
    (congrArg (fun v => some (v, s.beginServing)) hctrl) ?_
  refine may_bind.2 ((comes_timeHandleFun v (s := s.beginServing) hc hs).mono ?_)
  rintro _ t hstored
  refine may_bind.2 (comesAlone_op [] ⟨0, 0⟩ nofun rfl ?_)
  split
  · exact ⟨trivial, delivering [] ⟨0, 0⟩, (), _,
      (restrict_eq fun _ => rfl).trans (exec_eq nofun), hstored⟩
  · exact hstored

end Comes

end RtuA118
