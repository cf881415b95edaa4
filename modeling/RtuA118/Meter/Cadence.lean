import RtuA118.Meter.Sweep

/-!
# RtuA118.Meter.Cadence

The **requests for parameters**: on a routine packet the unit asks for a meter's
parameters when it has not asked that meter for a day.

There is a timer for every well and kind of meter. A run of packets of all of them is
`Judging`; `cadence` is what one timer is for, told from its own packets alone.
`cadence_iff` says that each well but the last one is served so. For well 8 the index
test of `judge_eq_meter_para` is off by one, and the unit never asks.
-/

namespace RtuA118

/-- `PER_DAY_SECONDS`. -/
def perDaySeconds : Int := 86400

/-- `MAX_NUM_METER_TYPE`. -/
def maxNumMeterType : Nat := 10

/-! ### One timer -/

/-- What a packet at time `t` gets: the answers so far, and the time of the last request. -/
def cadenceStep (c : List Bool × Int) (t : Int) : List Bool × Int :=
  if perDaySeconds < t - c.2 then (c.1 ++ [true], t) else (c.1 ++ [false], c.2)

/-- The answers to packets at these times, and the time of the last request: a packet
is asked when the last request is more than a day ago. -/
def cadence (times : List Int) : List Bool × Int := times.foldl cadenceStep ([], 0)

theorem cadence_append (times : List Int) (t : Int) :
    cadence (times ++ [t]) = cadenceStep (cadence times) t := by
  unfold cadence
  rw [List.foldl_append, List.foldl_cons, List.foldl_nil]

/-! ### All timers -/

/-- A packet judged: `asked` says that `judge_eq_meter_para` returned 0. -/
structure Judged where
  well : Nat
  kind : Nat
  time : Int
  asked : Bool
  deriving DecidableEq, Repr

/-- The packet of a pair that comes now. -/
def judged (w k : Nat) (s : Rtu) : Judged := ⟨w, k, s.time, (judgeEqMeterPara w k s).1 = 0⟩

/-- The packets judged since `s`, in order, and the unit after them. Between packets
the unit may do anything that leaves the timers alone, and the clock does not go back. -/
inductive Judging (s : Rtu) : List Judged → Rtu → Prop where
  | start : Judging s [] s
  | packet {js : List Judged} {t : Rtu} (w k : Nat) (h : Judging s js t) :
      Judging s (js ++ [judged w k t]) (judgeEqMeterPara w k t).2
  | elsewhere {js : List Judged} {t t' : Rtu} (h : Judging s js t)
      (htimers : t'.equMeterParaTime = t.equMeterParaTime) (htime : t.time ≤ t'.time) :
      Judging s js t'

/-- The packets of a pair. -/
def ofPair (w k : Nat) (js : List Judged) : List Judged :=
  js.filter fun j => j.well = w ∧ j.kind = k

/-- All timers are at their initial zero. -/
structure FreshTimers (s : Rtu) : Prop where
  timers : ∀ i k, s.equMeterParaTime i k = 0
  time : 0 ≤ s.time

/-! ### One call -/

section Call

variable {w k : Nat} {s : Rtu}

/-- A call for a well below the last one, on a timer that does not run ahead. -/
theorem judgeEqMeterPara_of_lt (hw : 1 ≤ w ∧ w < maxWellNum) (hk : k < maxNumMeterType)
    (htime : s.equMeterParaTime (w - 1) k ≤ s.time) :
    judgeEqMeterPara w k s =
      if perDaySeconds < s.time - s.equMeterParaTime (w - 1) k then
        (0, { s with equMeterParaTime := fun i j =>
          if i = w - 1 ∧ j = k then s.time else s.equMeterParaTime i j })
      else (-1, s) := by
  have hwell : ¬ (w ≥ maxWellNum ∨ w < 1) := by omega
  have hkind : ¬ k ≥ 10 := Nat.not_le.2 hk
  have hpast : ¬ s.time - s.equMeterParaTime (w - 1) k < 0 := by omega
  unfold judgeEqMeterPara perDaySeconds
  rw [if_neg hwell, if_neg hkind]
  by_cases hday : 86400 < s.time - s.equMeterParaTime (w - 1) k
  · simp [hday]
  · simp [hday, hpast]

/-- A call touches no timer but its own. -/
theorem judgeEqMeterPara_other {w' k' : Nat} (hw : 1 ≤ w) (h : ¬ (w' = w ∧ k' = k)) :
    (judgeEqMeterPara w' k' s).2.equMeterParaTime (w - 1) k = s.equMeterParaTime (w - 1) k := by
  unfold judgeEqMeterPara
  dsimp only
  split_ifs with hwell hkind hday
  · rfl
  · rfl
  · exact if_neg fun hpair => h ⟨by omega, hpair.2.symm⟩
  · rfl

theorem judgeEqMeterPara_last (k : Nat) (s : Rtu) :
    judgeEqMeterPara maxWellNum k s = (-1, s) := if_pos (.inl (Nat.le_refl _))

end Call

/-! ### A run -/

/-- **A timer along a run**: its pair has been answered in its cadence, and it holds
the time of the last request. -/
structure Timed (w k : Nat) (js : List Judged) (s : Rtu) : Prop where
  answers : (ofPair w k js).map Judged.asked = (cadence ((ofPair w k js).map Judged.time)).1
  timer : s.equMeterParaTime (w - 1) k = (cadence ((ofPair w k js).map Judged.time)).2
  past : s.equMeterParaTime (w - 1) k ≤ s.time

section Run

variable {w k : Nat} {js : List Judged} {s t : Rtu}

theorem Timed.packet_own (hw : 1 ≤ w ∧ w < maxWellNum) (hk : k < maxNumMeterType)
    (h : Timed w k js s) : Timed w k (js ++ [judged w k s]) (judgeEqMeterPara w k s).2 := by
  have hown : ofPair w k (js ++ [judged w k s]) = ofPair w k js ++ [judged w k s] := by
    simp [ofPair, judged]
  have hcall := judgeEqMeterPara_of_lt hw hk h.past
  have htimer := h.timer
  refine ⟨?_, ?_, ?_⟩
  · rw [hown, List.map_append, List.map_append, h.answers, List.map_singleton, List.map_singleton,
      cadence_append]
    simp only [judged, hcall, cadenceStep, ← htimer]
    split <;> rfl
  · rw [hown, List.map_append, List.map_singleton, cadence_append, hcall]
    simp only [judged, cadenceStep, ← htimer]
    split <;> simp
  · rw [hcall]
    split
    · simp
    · exact h.past

/-- **No pair is influenced by packets of another.** -/
theorem Timed.packet_other {w' k' : Nat} (hw : 1 ≤ w) (hne : ¬ (w' = w ∧ k' = k))
    (h : Timed w k js s) : Timed w k (js ++ [judged w' k' s]) (judgeEqMeterPara w' k' s).2 := by
  have hown : ofPair w k (js ++ [judged w' k' s]) = ofPair w k js := by
    simp [ofPair, judged, hne]
  have htimer := judgeEqMeterPara_other (s := s) hw hne
  have hclock : (judgeEqMeterPara w' k' s).2.time = s.time := (judgeEqMeterPara_keeps w' k' s).time
  refine ⟨?_, ?_, ?_⟩
  · rw [hown]
    exact h.answers
  · rw [hown, htimer]
    exact h.timer
  · rw [htimer, hclock]
    exact h.past

theorem Judging.timed (hw : 1 ≤ w ∧ w < maxWellNum) (hk : k < maxNumMeterType) (hs : FreshTimers s)
    (h : Judging s js t) : Timed w k js t := by
  induction h with
  | start => exact ⟨rfl, hs.timers _ _, by rw [hs.timers]; exact hs.time⟩
  | packet w' k' _ ih =>
      by_cases hpair : w' = w ∧ k' = k
      · obtain ⟨rfl, rfl⟩ := hpair
        exact ih.packet_own hw hk
      · exact ih.packet_other hw.1 hpair
  | elsewhere _ htimers htime ih =>
      refine ⟨ih.answers, ?_, ?_⟩
      · rw [htimers]
        exact ih.timer
      · rw [htimers]
        exact Int.le_trans ih.past htime

end Run

/-! ### Frames -/

/-- The timer a call of a decoder asks. -/
def MeterCall.judges : MeterCall → Option Nat
  | .answer slot _ _ => some slot
  | .answerElec => some electricalParameterNo
  | .answerLoad => some loadNo
  | _ => none

/-- The timer a packet of this kind asks. -/
def PacketKind.judges : PacketKind → Option Nat
  | .routine m => some m.slot
  | .answerOnly slot _ => some slot
  | _ => none

section Frame

variable {env : Platform} {mc : Machine} {o : Origin}

theorem zigbeeSendPacket_equMeterParaTime (mac : Nat → UInt8) (data : List UInt8) (s : Rtu) :
    (zigbeeSendPacket mac data s).equMeterParaTime = s.equMeterParaTime := by
  unfold zigbeeSendPacket
  split <;> rfl

/-- An answer does to the timers what its question does. -/
theorem answerRoutine_equMeterParaTime {slot intervalAddr : Nat} {cur : UInt16} {keep : Rtu → Rtu}
    (hkeep : ∀ s, (keep s).equMeterParaTime = s.equMeterParaTime) (s : Rtu) :
    (answerRoutine env o slot intervalAddr cur keep s).equMeterParaTime
      = (judgeEqMeterPara o.group.toNat slot s).2.equMeterParaTime := by
  unfold answerRoutine
  split
  · rename_i heq
    simp [heq, zigbeeSendPacket_equMeterParaTime, hkeep]
  · rename_i heq
    simp [heq, zigbeeSendPacket_equMeterParaTime]

theorem answerLoadRoutine_equMeterParaTime (s : Rtu) :
    (answerLoadRoutine env mc o s).equMeterParaTime
      = (judgeEqMeterPara o.group.toNat loadNo s).2.equMeterParaTime := by
  unfold answerLoadRoutine
  split
  · rename_i heq
    rw [heq, zigbeeSendPacket_equMeterParaTime]
  · rename_i heq
    rw [heq, zigbeeSendPacket_equMeterParaTime]

theorem MeterCall.run_equMeterParaTime {c : MeterCall} {s : Rtu} (h : c.From 10) :
    (c.run env mc o s).equMeterParaTime = match c.judges with
      | some slot => (judgeEqMeterPara o.group.toNat slot s).2.equMeterParaTime
      | none => s.equMeterParaTime := by
  cases c with
  | answer slot intervalAddr cur => exact answerRoutine_equMeterParaTime (fun s => rfl) s
  | answerElec =>
      have hkeep : ∀ s, (keepMac o s).equMeterParaTime = s.equMeterParaTime := fun s => rfl
      exact answerRoutine_equMeterParaTime hkeep s
  | answerLoad => exact answerLoadRoutine_equMeterParaTime s
  | sampleTime slot => rfl
  | store addr words => exact (writeWords_keeps h).2.2.2
  | saveTime addr => exact (writeWords_keeps h).2.2.2
  | ack dataType index => exact zigbeeSendPacket_equMeterParaTime _ _ s
  | loadElecSysn synchronTime cycleTime samplePoints => rfl

theorem runCalls_equMeterParaTime : ∀ {cs : List MeterCall} {s : Rtu}, (∀ c ∈ cs, c.From 10) →
    (∀ c ∈ cs, c.judges = none) →
    (runCalls env mc o cs s).equMeterParaTime = s.equMeterParaTime := by
  intro cs
  induction cs with
  | nil => intro s _ _; rfl
  | cons c cs ih =>
      intro s hfrom hnone
      rw [runCalls_cons, ih (fun d hd => hfrom d (List.mem_cons_of_mem _ hd))
        (fun d hd => hnone d (List.mem_cons_of_mem _ hd)),
        MeterCall.run_equMeterParaTime (hfrom c List.mem_cons_self), hnone c List.mem_cons_self]

/-- A packet that asks for a timer does so first, and its other calls do not. -/
theorem PacketKind.calls_judges (mc : Machine) (p : Nat → UInt8) (k : PacketKind) :
    match k.judges with
    | some slot => ∃ c cs, k.calls mc p = c :: cs ∧ c.judges = some slot ∧ ∀ d ∈ cs, d.judges = none
    | none => ∀ d ∈ k.calls mc p, d.judges = none := by
  cases k with
  | routine m =>
      cases m <;> refine ⟨_, _, rfl, rfl, ?_⟩ <;>
        simp [MeterCall.judges, saveMeterInfo, storeReadings]
  | answerOnly slot intervalAddr => exact ⟨_, _, rfl, rfl, fun d hd => absurd hd List.not_mem_nil⟩
  | para addr => simp [PacketKind.judges, PacketKind.calls, MeterCall.judges, saveParam]
  | loadFirst => simp [PacketKind.judges, PacketKind.calls, MeterCall.judges]
  | electricalFirst => simp [PacketKind.judges, PacketKind.calls, MeterCall.judges]
  | loadDiagram i =>
      by_cases hi : i = 14 <;> simp [PacketKind.judges, PacketKind.calls, MeterCall.judges, hi]
  | electricalDiagram i =>
      by_cases hi : i = 14 <;> simp [PacketKind.judges, PacketKind.calls, MeterCall.judges, hi]

/-- The packets judged in a frame. -/
def judgedOf (q : Nat → UInt8) (s : Rtu) : List Judged :=
  if q 3 = zigbeeRcvDataFramid then
    match (kindOf (packetOf q)).bind PacketKind.judges with
    | some slot => [judged (sensorGroup (packetOf q)).toNat slot s]
    | none => []
  else []

/-- **A frame is a step of a run**: it judges the packet it brings, for the group in
its header, and does nothing else to a timer. -/
theorem Judging.frame {s t : Rtu} {js : List Judged} (h : Judging s js t) (env : Platform)
    (mc : Machine) (q : Nat → UInt8) :
    Judging s (js ++ judgedOf q t) (analysisZigbeeRcvData env mc q t).2 := by
  unfold judgedOf
  split
  · rename_i hid
    have hfrom : ∀ c ∈ packetCalls mc (packetOf q), c.From 10 :=
      fun c hc => (packetCalls_from c hc).mono (by decide)
    rw [analysis_eq env mc t hid]
    cases hk : kindOf (packetOf q) with
    | none =>
        rw [packetCalls_of_none hk]
        simpa [runCalls] using h
    | some k =>
        have hcalls := k.calls_judges mc (packetOf q)
        rw [packetCalls_of_kind hk] at hfrom ⊢
        rw [Option.bind_some]
        cases hj : k.judges with
        | none =>
            rw [hj] at hcalls
            rw [List.append_nil]
            exact h.elsewhere (runCalls_equMeterParaTime hfrom hcalls)
              (Int.le_of_eq (runCalls_time hfrom).symm)
        | some slot =>
            rw [hj] at hcalls
            -- the judgement is the packet's first call, and no later one judges
            obtain ⟨c, cs, heq, hslot, hrest⟩ := hcalls
            have hclock := judgeEqMeterPara_keeps (sensorGroup (packetOf q)).toNat slot t
            rw [heq] at hfrom ⊢
            refine (h.packet (sensorGroup (packetOf q)).toNat slot).elsewhere ?_ ?_
            · rw [runCalls_cons, runCalls_equMeterParaTime
                (fun d hd => hfrom d (List.mem_cons_of_mem _ hd)) hrest,
                MeterCall.run_equMeterParaTime (hfrom c List.mem_cons_self), hslot]
              rfl
            · exact Int.le_of_eq (hclock.time.trans (runCalls_time hfrom).symm)
  · rename_i hid
    rw [analysis_other env mc t hid, List.append_nil]
    exact h

end Frame

/-! ### The cadence -/

/-- A unit that has been on for a day and a second. -/
def dayOldUnit : Rtu :=
  { Rtu.start (emptyMap 0 (fun _ => 0) fun _ => 0) with time := perDaySeconds + 1 }

theorem dayOldUnit_fresh : FreshTimers dayOldUnit := ⟨fun _ _ => rfl, by decide⟩

/-- **The cadence of the requests**: in every run of packets of all pairs, a pair is
answered as its own packets' times say, unless it belongs to the last well. -/
theorem cadence_iff (w k : Nat) (hw : 1 ≤ w ∧ w ≤ maxWellNum) (hk : k < maxNumMeterType) :
    (∀ s js t, FreshTimers s → Judging s js t →
      (ofPair w k js).map Judged.asked = (cadence ((ofPair w k js).map Judged.time)).1) ↔
      w ≠ maxWellNum := by
  constructor
  · rintro h rfl
    -- one packet on the second day, which is not asked
    have hone := h _ _ _ dayOldUnit_fresh (.packet maxWellNum k .start)
    simp [ofPair, judged, judgeEqMeterPara_last, cadence, cadenceStep, dayOldUnit,
      perDaySeconds] at hone
  · intro hne s js t hs hrun
    exact (hrun.timed ⟨hw.1, Nat.lt_of_le_of_ne hw.2 hne⟩ hk hs).answers

/-- The first well's first pressure meter, and the last well's. -/
theorem cadence_one :
    (∀ s js t, FreshTimers s → Judging s js t →
      (ofPair 1 0 js).map Judged.asked = (cadence ((ofPair 1 0 js).map Judged.time)).1) ↔
      1 ≠ maxWellNum :=
  cadence_iff 1 0 (by decide) (by decide)

theorem not_cadence_last : ¬ ∀ w k s js t, 1 ≤ w ∧ w ≤ maxWellNum → k < maxNumMeterType →
    FreshTimers s → Judging s js t →
      (ofPair w k js).map Judged.asked = (cadence ((ofPair w k js).map Judged.time)).1 := by
  intro h
  have hone := h maxWellNum 0 _ _ _ (by decide) (by decide) dayOldUnit_fresh
    (.packet maxWellNum 0 .start)
  simp [ofPair, judged, judgeEqMeterPara_last, cadence, cadenceStep, dayOldUnit,
    perDaySeconds] at hone

end RtuA118
