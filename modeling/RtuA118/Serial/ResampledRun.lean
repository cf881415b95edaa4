import RtuA118.Serial.Loop
import RtuA118.Serial.Resampling

/-!
# RtuA118.Serial.ResampledRun

What `time_handle_fun` makes of the samples it has measured.

`diagram` is the program up to the filled up array, with the samples it was given beside
it; `timeHandleFun_eq` says that `time_handle_fun` is this program and then the stores.
Whatever the reads bring and however late they are, a run that goes on to the stores with
`n` of `m` samples has filled them up as it should exactly when `FitsArray n m`.
-/

namespace RtuA118

open Program Serial Rs485 Interpolate

/-! ### The run with its samples -/

/-- The array after the samples are stored, the first of them in place `i`. -/
def storeFrom : Nat → List (List UInt16) → SynData → SynData
  | _, [], d => d
  | i, words :: rest, d =>
    storeFrom (i + 1) rest
      (Function.update (Function.update d ((i % 250 : Nat) : Int) (words.getD 0 0))
        (((i % 250 : Nat) : Int) + 250) (words.getD 3 0))

/-- The array a run fills up. -/
def Measurement.array (r : Measurement) : SynData := storeFrom 0 r.samples .filled

/-- The measured run, and the array filled up. -/
def diagram (c : Nat) : Serial (Option (Measurement × SynData)) := do
  match ← measure c with
  | none => pure none
  | some r => do
    let d ← fillSamples r.n r.m r.array
    pure (some (r, d))

/-- What a run does with it. -/
def storeDiagram : Option (Measurement × SynData) → Serial Int
  | none => pure (-1)
  | some (r, d) => do
    storeWords r.electricalWellNo.toNat elecCycleCurrentAddr d.words
    saveTime r.electricalWellNo.toNat elecCycleTimeAddr
    pure 0

/-! ### It is the same run -/

section Same

variable {c stepTm : Nat} {synT1 : Timeval}

theorem foldl_store_data {ws : List (List UInt16)} {st : Samples} :
    (ws.foldl (fun st words => st.store stepTm words) st).data = storeFrom st.i ws st.data := by
  induction ws generalizing st with
  | nil => rfl
  | cons w ws ih =>
      rw [List.foldl_cons, ih]
      rfl

theorem foldl_store_i {ws : List (List UInt16)} {st : Samples} :
    (ws.foldl (fun st words => st.store stepTm words) st).i = st.i + ws.length := by
  induction ws generalizing st with
  | nil => rfl
  | cons w ws ih =>
      rw [List.foldl_cons, ih]
      simp [Samples.store]
      omega

theorem sampleLoop_eq {k : Nat} {st : Samples} :
    sampleLoop c stepTm synT1 k st =
      measureLoop c stepTm synT1 k st.synT0 >>= fun o =>
        pure (o.map fun r => (r.1, r.2.foldl (fun st words => st.store stepTm words) st)) := by
  induction k generalizing st with
  | zero => rfl
  | succ k ih =>
      unfold sampleLoop measureLoop
      rw [Prog.bind_assoc]
      refine congrArg _ (funext fun o => ?_)
      cases o with
      | failed => rfl
      | late => rfl
      | measured words =>
          dsimp only
          rw [Prog.bind_assoc]
          refine congrArg _ (funext fun _ => ?_)
          rw [ih, Prog.bind_assoc]
          refine congrArg _ (funext fun o => ?_)
          cases o <;> rfl

/-- What a run makes of its measurement. -/
def finish : Option Measurement → Serial Int
  | none => pure (-1)
  | some r => storeSamples r.electricalWellNo r.n r.m r.array

theorem sampleRun_eq {w : UInt16} {synT0 : Timeval} :
    sampleRun c w synT0 = measureRun c w synT0 >>= finish := by
  unfold sampleRun measureRun
  simp only [Prog.bind_assoc]
  refine congrArg _ (funext fun ⟨m, plan⟩ => ?_)
  refine congrArg _ (funext fun _ => ?_)
  refine congrArg _ (funext fun cycle => ?_)
  refine congrArg _ (funext fun _ => ?_)
  rw [sampleLoop_eq, Prog.bind_assoc]
  refine congrArg _ (funext fun o => ?_)
  cases o with
  | none => rfl
  | some r =>
      obtain ⟨late, samples⟩ := r
      simp only [Prog.pure_bind, Option.map_some, foldl_store_data, foldl_store_i, Nat.zero_add]
      split <;> split <;> rfl

/-- **`time_handle_fun` measures, fills up, and stores.** -/
theorem timeHandleFun_eq : timeHandleFun c = diagram c >>= storeDiagram := by
  have hfinish : ∀ o, finish o =
      (match o with
        | none => pure none
        | some r => do
          let d ← fillSamples r.n r.m r.array
          pure (some (r, d))) >>= storeDiagram := by
    rintro (_ | r)
    · rfl
    · show storeSamples _ _ _ _ = _
      unfold storeSamples
      rw [Prog.bind_assoc]
      rfl
  -- the two programs are the same up to where the samples are there
  have hmeasure : timeHandleFun c = measure c >>= finish := by
    unfold timeHandleFun measure
    simp only [Prog.bind_assoc]
    refine congrArg _ (funext fun w => ?_)
    refine congrArg _ (funext fun _ => ?_)
    refine congrArg _ (funext fun synT0 => ?_)
    refine congrArg _ (funext fun cycle => ?_)
    refine congrArg _ (funext fun first => ?_)
    refine congrArg _ (funext fun low => ?_)
    split
    · rfl
    · rw [Prog.bind_assoc]
      refine congrArg _ (funext fun high => ?_)
      split
      · rfl
      · exact sampleRun_eq
  rw [hmeasure]
  unfold diagram
  rw [Prog.bind_assoc]
  exact congrArg _ (funext hfinish)

end Same

/-! ### The samples in the array -/

theorem half_storeFrom {base : Int} {q : Nat} (hq : base = 0 ∧ q = 0 ∨ base = 250 ∧ q = 3)
    {ws : List (List UInt16)} : ∀ {i : Nat} {d : SynData}, i + ws.length ≤ 250 →
    (storeFrom i ws d).half base (i + ws.length) = d.half base i ++ ws.map (·.getD q 0) := by
  induction ws with
  | nil => intro i d _; simp [storeFrom]
  | cons w ws ih =>
      intro i d hlen
      rw [List.length_cons] at hlen
      have hi : i % 250 = i := Nat.mod_eq_of_lt (by omega)
      unfold storeFrom
      rw [hi, List.length_cons, show i + (ws.length + 1) = i + 1 + ws.length by omega,
        ih (by omega), SynData.half_add, List.append_assoc]
      -- the places before are kept, and the word goes into this one
      refine congrArg₂ _ (SynData.half_congr fun k hk => ?_) ?_
      · rcases hq with ⟨rfl, -⟩ | ⟨rfl, -⟩ <;>
          rw [Function.update_of_ne (by omega), Function.update_of_ne (by omega)]
      · rcases hq with ⟨rfl, rfl⟩ | ⟨rfl, rfl⟩
        · have hne : (i : Int) ≠ i + 250 := by omega
          simp only [SynData.half, List.range_one, List.map_cons, List.map_nil, Int.cast_ofNat_Int,
            Int.zero_add, Int.add_zero, Function.update_of_ne hne, Function.update_self,
            List.cons_append, List.nil_append]
        · simp [SynData.half, Int.add_comm]

/-! ### Any run -/

section Runs

variable {h : Host} {c : Nat}

/-- What every run of a program ensures, whatever it is answered. -/
abbrev EnsuresAlways {α : Type} (h : Host) (post : α → Prop) (p : Serial α) (s : Rs485) : Prop :=
  Ensures (exec h .master) (fun _ _ _ => True) (fun _ _ => True) (fun a _ => post a) p s

theorem ensuresAlways_op {e : Act} {α : Type} {post : α → Prop} {f : e.Out → Serial α} {s : Rs485}
    (hf : ∀ r s', EnsuresAlways h post (f r) s') :
    EnsuresAlways h post (Prog.op e >>= f) s :=
  ⟨trivial, fun _ _ _ _ _ => hf _ _⟩

/-- The plan asks for no more points than there is room for. -/
theorem samplePlan_room {s : Rs485} :
    EnsuresAlways h (fun r => r.1.toNat ≤ 250) samplePlan s := by
  refine ensuresAlways_op fun n s => ?_
  obtain ⟨m, hm⟩ : ∃ m : UInt16, m = if n > 250 then 250 else n := ⟨_, rfl⟩
  rw [← hm]
  have hm : m.toNat ≤ 250 := by
    rw [hm]
    split
    · decide
    · rename_i hle
      exact UInt16.le_iff_toNat_le.mp (UInt16.not_lt.mp hle)
  refine ensuresAlways_op fun cycle s => ensuresAlways_op fun q s => ?_
  dsimp only
  split
  · exact ensuresAlways_op fun _ _ => hm
  · exact hm

/-- The loop measures as many samples as it is asked for, unless the deadline ends it. -/
theorem measureLoop_length {stepTm : Nat} {synT1 : Timeval} : ∀ {k : Nat} {synT0 : Timeval}
    {s : Rs485}, EnsuresAlways h (fun o => ∀ late samples, o = some (late, samples) →
      samples.length ≤ k ∧ (late = false → samples.length = k))
      (measureLoop c stepTm synT1 k synT0) s := by
  intro k
  induction k with
  | zero =>
      intro synT0 s late samples ho
      cases ho
      simp
  | succ k ih =>
      intro synT0 s
      have honce : EnsuresAlways h (fun _ => True) (sampleOnce c synT1 6) s :=
        ensures_of_steps (fun _ _ _ _ _ _ _ => trivial) trivial
      refine honce.bind fun o s _ => ?_
      cases o with
      | failed => exact nofun
      | late =>
          intro late samples ho
          cases ho
          simp
      | measured words =>
          refine ensuresAlways_op fun _ s => ih.bind fun o s ho => ?_
          intro late samples hsome
          cases o with
          | none => cases hsome
          | some r =>
              cases hsome
              obtain ⟨hle, heq⟩ := ho r.1 r.2 rfl
              exact ⟨Nat.succ_le_succ hle, fun hlate => congrArg Nat.succ (heq hlate)⟩

/-- What is known of a measurement, however the run went. -/
structure Measurement.Sound (r : Measurement) : Prop where
  room : r.m.toNat ≤ 250
  all : r.samples.length = r.n.toNat

theorem measureRun_sound {w : UInt16} {synT0 : Timeval} {s : Rs485} :
    EnsuresAlways h (fun o => ∀ r, o = some r → r.Sound) (measureRun c w synT0) s := by
  refine samplePlan_room.bind fun plan s hm => ?_
  obtain ⟨m, plan⟩ := plan
  refine ensuresAlways_op fun _ s => ensuresAlways_op fun cycle s => ensuresAlways_op fun _ s => ?_
  refine measureLoop_length.bind fun o s ho => ?_
  cases o with
  | none => exact nofun
  | some r =>
      obtain ⟨late, samples⟩ := r
      obtain ⟨hle, heq⟩ := ho late samples rfl
      have hfits : samples.length < 2 ^ 16 := Nat.lt_of_le_of_lt hle plan.n.toNat_lt
      have hall : samples.length =
          (if late = true then UInt16.ofNat samples.length else plan.n).toNat := by
        cases late with
        | true => rw [if_pos rfl, UInt16.toNat_ofNat', Nat.mod_eq_of_lt hfits]
        | false => exact heq rfl
      dsimp only
      generalize (if late = true then UInt16.ofNat samples.length else plan.n) = n at hall ⊢
      split
      · exact nofun
      · rintro r ⟨rfl⟩
        exact ⟨hm, hall⟩

theorem measure_sound {s : Rs485} :
    EnsuresAlways h (fun o => ∀ r, o = some r → r.Sound) (measure c) s := by
  refine ensuresAlways_op fun w s => ensuresAlways_op fun _ s => ensuresAlways_op fun synT0 s => ?_
  refine ensuresAlways_op fun cycle s => ensuresAlways_op fun first s => ?_
  refine ensuresAlways_op fun low s => ?_
  split
  · exact nofun
  · refine ensuresAlways_op fun high s => ?_
    split
    · exact nofun
    · exact measureRun_sound

/-- The program fills up as the traced loop does. -/
theorem fillSamples_resample {n m : UInt16} {d : SynData} {s : Rs485} :
    EnsuresAlways h (fun d' => n.toNat < m.toNat → d' = (resample n m d).data)
      (fillSamples n m d) s := by
  unfold fillSamples
  split
  · refine ⟨trivial, fun i q s' _ hs _ => ?_⟩
    have hq : (if (m.toNat : Int) - n.toNat = 0 then none
        else some (Int.tdiv m.toNat ((m.toNat : Int) - n.toNat), s.arrive i)) = some (q, s') :=
      (exec_some hs).2
    split at hq
    · cases hq
    · obtain ⟨rfl, -⟩ := Prod.mk.inj (Option.some.inj hq)
      unfold resample
      rw [insertPointsT_data]
      rfl
  · rename_i hle
    intro hlt
    exact absurd (UInt16.lt_iff_toNat_lt.mpr hlt) hle

/-- The diagram of a run is right: it is what the loop leaves, which used no index outside
and shifted no half into the other, and each half is the samples in order with means of
neighbours between them. -/
structure Measurement.Resampled (r : Measurement) (d : SynData) : Prop where
  traced : d = (resample r.n r.m r.array).data
  inside : (resample r.n r.m r.array).Inside
  apart : (resample r.n r.m r.array).Apart
  current : Filled meanWord (r.samples.map (·.getD 0 0)) (d.half 0 r.m.toNat)
  power : Filled meanWord (r.samples.map (·.getD 3 0)) (d.half 250 r.m.toNat)

theorem Measurement.resampled_iff {r : Measurement} (hr : r.Sound) (hlt : r.n.toNat < r.m.toNat) :
    r.Resampled (resample r.n r.m r.array).data ↔ FitsArray r.n r.m := by
  have hroom := hr.room
  have hlen : 0 + r.samples.length ≤ 250 := by
    rw [hr.all]
    omega
  have hcurrent : (storeFrom 0 r.samples .filled).half 0 _ = _ ++ r.samples.map (·.getD 0 0) :=
    half_storeFrom (.inl ⟨rfl, rfl⟩) hlen
  have hpower : (storeFrom 0 r.samples .filled).half 250 _ = _ ++ r.samples.map (·.getD 3 0) :=
    half_storeFrom (.inr ⟨rfl, rfl⟩) hlen
  rw [Nat.zero_add, hr.all] at hcurrent hpower
  rw [← filledUp_iff (d := r.array) hlt hroom]
  unfold Measurement.array at *
  rw [hcurrent, hpower]
  exact ⟨fun h => ⟨h.inside, h.apart, h.current, h.power⟩,
    fun h => ⟨rfl, h.inside, h.apart, h.current, h.power⟩⟩

/-- **A run's diagram is right exactly when it fits.** Every run of `time_handle_fun` that
goes on to the stores with fewer samples than points wanted. -/
theorem timeHandleFun_resampled_iff (h : Host) (c : Nat) (s : Rs485) :
    timeHandleFun c = diagram c >>= storeDiagram ∧
      EnsuresAlways h (fun o => ∀ r d, o = some (r, d) → r.n.toNat < r.m.toNat →
        (r.Resampled d ↔ FitsArray r.n r.m)) (diagram c) s := by
  refine ⟨timeHandleFun_eq, measure_sound.bind fun o s ho => ?_⟩
  cases o with
  | none => exact nofun
  | some r =>
      refine fillSamples_resample.bind fun d s hd => ?_
      rintro r' d' ⟨rfl⟩ hlt
      rw [hd hlt]
      exact r.resampled_iff (ho r rfl) hlt

end Runs

/-! ### A run that does not fit -/

section Unfit

variable {h : Host}

/-- All samples are measured in time. -/
theorem comes_measureLoop {c stepTm : Nat} {synT1 : Timeval} : ∀ {k : Nat} {synT0 : Timeval}
    {s : Rs485}, (s.contexts c).alive = true →
    ComesAlone h (fun o _ => ∃ samples, o = some (false, samples))
      (measureLoop c stepTm synT1 k synT0) s := by
  intro k
  induction k with
  | zero => exact fun _ => ⟨[], rfl⟩
  | succ k ih =>
      intro synT0 s hc
      refine may_bind.2 ((comes_sampleOnce (v := 0) hc).mono ?_)
      rintro _ _ ⟨⟨words, rfl, -⟩, sent, rfl⟩
      refine comesAlone_op [] ⟨0, 0⟩ nofun rfl (may_bind.2 ((ih ?_).mono ?_))
      · exact hc
      · rintro _ _ ⟨samples, rfl⟩
        exact ⟨words :: samples, rfl⟩

/-- A cycle of 10 s, and 250 points wanted: there is time for 100 samples. -/
def denseRun : SynInfo := ⟨0, 1000, 250⟩

theorem comes_densePlan {s : Rs485} (hs : s.synAlongInfo = denseRun) :
    ComesAlone h (fun o s' => o = (250, ⟨100, 100⟩) ∧ s' = s) samplePlan s := by
  have hsyn : ∀ k, perform h .master (.syn k) (delivering [] ⟨0, 0⟩) s =
      some (denseRun.word k, s) := fun k => by rw [← hs]; rfl
  refine comesAlone_op [] ⟨0, 0⟩ nofun (hsyn 2) ?_
  refine comesAlone_op [] ⟨0, 0⟩ nofun (hsyn 1) ?_
  refine comesAlone_op (r := 40) [] ⟨0, 0⟩ nofun rfl ?_
  rw [if_pos (by decide)]
  exact comesAlone_op [] ⟨0, 0⟩ nofun (hsyn 1) ⟨rfl, rfl⟩

/-- Such a run, with every read answered at once. -/
theorem comes_denseDiagram {c : Nat} {s : Rs485} (hc : (s.contexts c).alive = true)
    (hs : s.synAlongInfo = denseRun) :
    ComesAlone h (fun o _ => ∃ r d, o = some (r, d) ∧ r.n = 100 ∧ r.m = 250) (diagram c) s := by
  have hsyn : ∀ (t : Rs485) k, t.synAlongInfo = denseRun →
      perform h .master (.syn k) (delivering [] ⟨0, 0⟩) t = some (denseRun.word k, t) :=
    fun t k ht => by rw [← ht]; rfl
  refine may_bind.2 ?_
  refine comesAlone_op [] ⟨0, 0⟩ (follows_of_none rfl) rfl ?_
  refine comesAlone_op [] ⟨0, 0⟩ (follows_of rfl hc) rfl ?_
  refine comesAlone_op [] ⟨0, 0⟩ (follows_of_none rfl) rfl ?_
  refine comesAlone_op [] ⟨0, 0⟩ (follows_of_none rfl) (hsyn _ 1 hs) ?_
  refine comesAlone_op [] ⟨0, 0⟩ (follows_of_none rfl) (hsyn _ 0 hs) ?_
  refine comesAlone_op [] ⟨0, 0⟩ (follows_of_none rfl) (hsyn _ 1 hs) ?_
  rw [if_neg (by decide)]
  refine comesAlone_op [] ⟨0, 0⟩ (follows_of_none rfl) (hsyn _ 1 hs) ?_
  rw [if_neg (by decide)]
  have hc' : ((s.onContext c (.setSlave (readWord h.env s.rtu h.stack 1 elecWellNoAddr).toNat)
      ).contexts c).alive = true := by
    simpa [Rs485.onContext, Context.setSlave] using hc
  refine may_bind.2 ((comes_densePlan (s := s.onContext c _) hs).mono ?_)
  rintro _ _ ⟨rfl, rfl⟩
  refine comesAlone_op [] ⟨0, 0⟩ (follows_of_none rfl) rfl ?_
  refine comesAlone_op [] ⟨0, 0⟩ (follows_of_none rfl) (hsyn _ 1 hs) ?_
  refine comesAlone_op [] ⟨0, 0⟩ (follows_of rfl hc') rfl ?_
  refine may_bind.2 ((comes_measureLoop hc').mono ?_)
  rintro _ t ⟨samples, rfl⟩
  -- 150 points are inserted
  have hfill : ∀ d, ComesAlone h (fun _ _ => True) (fillSamples 100 250 d) t := fun d =>
    comesAlone_op (r := (1 : Int)) [] ⟨0, 0⟩ (follows_of_none rfl) rfl trivial
  dsimp only
  rw [if_neg (by simp)]
  refine may_bind.2 ((hfill _).mono fun d _ _ => ?_)
  exact ⟨_, d, rfl, rfl, rfl⟩

/-- A run of which every read is answered uses the place in front of the array. -/
theorem not_timeHandleFun_resampled : ¬ ∀ (h : Host) (c : Nat) (s : Rs485),
    EnsuresAlways h (fun o => ∀ r d, o = some (r, d) → r.n.toNat < r.m.toNat → r.Resampled d)
      (diagram c) s := by
  intro hall
  let s := { startedMaster with synAlongInfo := denseRun }
  have hrun : Ensures (exec (.bare (.bare fun _ => none)) .master) Alone (fun _ _ => True)
      (fun o _ => ∀ r d, o = some (r, d) → r.n.toNat < r.m.toNat → r.Resampled d)
      (diagram s.ctx) s := (hall _ s.ctx s).narrow fun _ _ _ _ => trivial
  obtain ⟨_, _, hpost, r, d, rfl, hn, hm⟩ :=
    hrun.meets (comes_denseDiagram (congrArg Context.alive startedMaster_starts.context) rfl)
  have hlt : r.n.toNat < r.m.toNat := by
    rw [hn, hm]
    decide
  refine not_inside_resample hlt ?_ ?_ (hpost r d rfl hlt).inside
  · rw [hm]
    decide
  · rw [hn, hm]
    unfold FitsArray
    decide

end Unfit

end RtuA118
