import Mathlib.Data.List.Flatten
import RtuA118.Zigbee.Codec

/-!
# RtuA118.Zigbee.Resync

The receive loop of `thread_zigbee_tty_server` on a line that starts with noise.

`receive_msg_zigbee` takes a length from the second and third byte before it has
seen that the first is no delimiter, and forgets everything between two calls. So
the noise is cut up by its own length fields, and the frames after it come
through **exactly when the last cut falls on the end of the noise** (`Aligned`).
No receive function of the program looks for a delimiter.
-/

namespace RtuA118

/-! ### One call after another -/

/-- What the calls of the thread return, until one waits for more. -/
def zigbeeReturned (buf : Nat → UInt8) (line : List (List UInt8)) : List (List UInt8) :=
  let c := receiveMsgZigbeeInto .indication buf line
  match _h : c.result with
  | .length n => bytesOf c.buf n :: zigbeeReturned c.buf c.line
  | .minusOne => zigbeeReturned c.buf c.line
  | .waiting => []
  termination_by lineSize line
  decreasing_by
    all_goals
      refine receiveCall_lt (show 0 < 3 by decide) fun hw => ?_
      exact RecvResult.noConfusion (_h.symm.trans hw)

/-- A call that returns has taken three bytes at least. -/
theorem rest_lt {stream : List UInt8}
    (h : (zigbeeRule.reception stream).result checkIntegrityZigbee ≠ .waiting) :
    (zigbeeRule.reception stream).rest.length < stream.length := by
  have hhead : zigbeeRule.headLength stream = 3 := rfl
  have hframe : 3 ≤ zigbeeRule.frameLength stream := Nat.le_add_right 3 _
  revert h
  unfold FrameRule.reception
  rw [hhead]
  split_ifs <;> simp [Reception.result] <;> omega

/-- The frames of a stream. -/
def framesOf (stream : List UInt8) : List (List UInt8) :=
  let x := zigbeeRule.reception stream
  match _h : x.result checkIntegrityZigbee with
  | .length _ => x.bytes :: framesOf x.rest
  | .minusOne => framesOf x.rest
  | .waiting => []
  termination_by stream.length
  decreasing_by
    all_goals
      refine rest_lt fun hw => ?_
      exact RecvResult.noConfusion (_h.symm.trans hw)

section Calls

variable {stream : List UInt8}

theorem framesOf_length {n : Nat}
    (h : (zigbeeRule.reception stream).result checkIntegrityZigbee = .length n) :
    framesOf stream =
      (zigbeeRule.reception stream).bytes :: framesOf (zigbeeRule.reception stream).rest := by
  rw [framesOf]
  split <;> rename_i heq
  · rfl
  · exact RecvResult.noConfusion (heq.symm.trans h)
  · exact RecvResult.noConfusion (heq.symm.trans h)

theorem framesOf_minusOne
    (h : (zigbeeRule.reception stream).result checkIntegrityZigbee = .minusOne) :
    framesOf stream = framesOf (zigbeeRule.reception stream).rest := by
  rw [framesOf]
  split <;> rename_i heq
  · exact RecvResult.noConfusion (heq.symm.trans h)
  · rfl
  · exact RecvResult.noConfusion (heq.symm.trans h)

theorem framesOf_waiting
    (h : (zigbeeRule.reception stream).result checkIntegrityZigbee = .waiting) :
    framesOf stream = [] := by
  rw [framesOf]
  split <;> rename_i heq
  · exact RecvResult.noConfusion (heq.symm.trans h)
  · exact RecvResult.noConfusion (heq.symm.trans h)
  · rfl

/-- A frame that is returned has the length returned. -/
theorem length_of_result {x : Reception} {integrity : List UInt8 → Bool} {n : Nat}
    (h : x.result integrity = .length n) : x.bytes.length = n := by
  unfold Reception.result at h
  split at h
  · split at h
    · exact RecvResult.length.inj h
    · cases h
  · cases h
  · cases h
  · cases h

/-- **The thread returns the frames of the stream**, however it arrives. -/
theorem zigbeeReturned_eq {line : List (List UInt8)} (hflow : Flowing line) (buf : Nat → UInt8) :
    zigbeeReturned buf line = framesOf line.flatten := by
  obtain ⟨n, hn⟩ : ∃ n, n = line.flatten.length := ⟨_, rfl⟩
  induction n using Nat.strongRecOn generalizing line buf with
  | ind n ih =>
      obtain ⟨later, hlater, hrest, heq⟩ := receiveCall_eq (r := zigbeeRule) checkIntegrityZigbee
        buf (show 0 < 3 by decide) (show Step.stepMeta ≠ Step.stepData by decide) hflow
      have hcall : receiveMsgZigbeeInto .indication buf line = _ := heq
      have hstep : (zigbeeRule.reception line.flatten).result checkIntegrityZigbee ≠ .waiting →
          ∀ buf, zigbeeReturned buf later = framesOf (zigbeeRule.reception line.flatten).rest := by
        intro hw buf
        rw [← hrest]
        refine ih _ ?_ hlater buf rfl
        rw [hn, hrest]
        exact rest_lt hw
      rw [zigbeeReturned]
      split <;> rename_i hres <;> rw [hcall] at hres <;> dsimp only at hres
      · rw [framesOf_length hres, hcall]
        dsimp only
        rw [hstep (by rw [hres]; exact RecvResult.noConfusion), ← length_of_result hres,
          bytesOf_putBytes]
      · rw [framesOf_minusOne hres, hcall]
        exact hstep (by rw [hres]; exact RecvResult.noConfusion) _
      · rw [framesOf_waiting hres]

/-- A valid frame is the next one returned. -/
theorem framesOf_frame {f : List UInt8} (hf : ZigbeeFrame f) (more : List UInt8) :
    framesOf (f ++ more) = f :: framesOf more := by
  have hx := hf.reception more
  rw [framesOf_length (n := f.length) (by simp [hx, Reception.result, hf.checked]), hx]

theorem framesOf_frames {frames : List (List UInt8)} (hf : ∀ f ∈ frames, ZigbeeFrame f) :
    framesOf frames.flatten = frames := by
  induction frames with
  | nil => exact framesOf_waiting rfl
  | cons f frames ih =>
      rw [List.flatten_cons, framesOf_frame (hf f (List.mem_cons_self ..)),
        ih fun g hg => hf g (List.mem_cons_of_mem _ hg)]

/-- What is returned is not more than what has arrived. -/
theorem framesOf_flatten_length (stream : List UInt8) :
    (framesOf stream).flatten.length ≤ stream.length := by
  obtain ⟨n, hn⟩ : ∃ n, n = stream.length := ⟨_, rfl⟩
  induction n using Nat.strongRecOn generalizing stream with
  | ind n ih =>
      have hlen := congrArg List.length (zigbeeRule.reception_append stream)
      rw [List.length_append] at hlen
      cases hres : (zigbeeRule.reception stream).result checkIntegrityZigbee with
      | length k =>
          have hlt := rest_lt (by rw [hres]; exact RecvResult.noConfusion)
          have hrest := ih _ (hn ▸ hlt) _ rfl
          rw [framesOf_length hres, List.flatten_cons, List.length_append]
          omega
      | minusOne =>
          have hlt := rest_lt (by rw [hres]; exact RecvResult.noConfusion)
          have hrest := ih _ (hn ▸ hlt) _ rfl
          rw [framesOf_minusOne hres]
          omega
      | waiting =>
          rw [framesOf_waiting hres]
          exact Nat.zero_le _

end Calls

/-! ### Noise -/

/-- What a call makes of three bytes and what follows them. -/
theorem reception_cons (a b c : UInt8) (tail : List UInt8) :
    zigbeeRule.reception (a :: b :: c :: tail) =
      if 256 < be16 b c + 4 then ⟨[a, b, c], .tooManyData, tail⟩
      else if tail.length < be16 b c + 1 then ⟨a :: b :: c :: tail, .waiting, []⟩
      else ⟨a :: b :: c :: tail.take (be16 b c + 1), .received, tail.drop (be16 b c + 1)⟩ := by
  have hhead : zigbeeRule.headLength (a :: b :: c :: tail) = 3 := rfl
  have hframe : zigbeeRule.frameLength (a :: b :: c :: tail) = be16 b c + 1 + 3 := by
    rw [Nat.add_comm]
    rfl
  have hmax : zigbeeRule.maxAduLength = 256 := rfl
  unfold FrameRule.reception
  rw [hhead, hframe, hmax, if_neg (by simp), List.take_succ_cons, List.drop_succ_cons]
  simp

/-- Noise that its own length fields cut into whole pieces: three bytes whose length
is too much, or a piece of the length they give, and so on. -/
inductive Aligned : List UInt8 → Prop where
  | nil : Aligned []
  | tooManyData {a b c : UInt8} {rest : List UInt8} : 256 < be16 b c + 4 → Aligned rest →
    Aligned (a :: b :: c :: rest)
  | whole {a b c : UInt8} {data rest : List UInt8} : be16 b c + 4 ≤ 256 →
    data.length = be16 b c + 1 → Aligned rest → Aligned (a :: b :: c :: (data ++ rest))

/-- What does not start with the delimiter is not returned. -/
theorem framesOf_noise {a : UInt8} (ha : a ≠ 0x7E) (b c : UInt8) (tail : List UInt8) :
    framesOf (a :: b :: c :: tail) =
      if 256 < be16 b c + 4 then framesOf tail
      else if tail.length < be16 b c + 1 then []
      else framesOf (tail.drop (be16 b c + 1)) := by
  have hx := reception_cons a b c tail
  have hbad : ∀ bytes, checkIntegrityZigbee (a :: bytes) = false := by
    intro bytes
    simp [checkIntegrityZigbee, ha]
  split at hx
  · rename_i hlong
    rw [if_pos hlong, framesOf_minusOne (by rw [hx]; rfl), hx]
  · rename_i hshort
    rw [if_neg hshort]
    split at hx
    · rename_i hwait
      rw [if_pos hwait, framesOf_waiting (by rw [hx]; rfl)]
    · rename_i hwhole
      rw [if_neg hwhole, framesOf_minusOne (by simp [hx, Reception.result, hbad]), hx]

/-- Aligned noise is gone when the frames begin. -/
theorem framesOf_aligned {garbage : List UInt8} (h : Aligned garbage) (hno : 0x7E ∉ garbage)
    (stream : List UInt8) : framesOf (garbage ++ stream) = framesOf stream := by
  induction h with
  | nil => rfl
  | @tooManyData a b c rest hlong _ ih =>
      have ha : a ≠ 0x7E := fun h => hno (h ▸ List.mem_cons_self ..)
      rw [List.cons_append, List.cons_append, List.cons_append, framesOf_noise ha, if_pos hlong]
      exact ih fun h => hno (by simp [h])
  | @whole a b c data rest hroom hlen _ ih =>
      have ha : a ≠ 0x7E := fun h => hno (h ▸ List.mem_cons_self ..)
      have hwhole : ¬ (data ++ (rest ++ stream)).length < be16 b c + 1 := by
        rw [List.length_append, hlen]
        omega
      rw [List.cons_append, List.cons_append, List.cons_append, framesOf_noise ha,
        if_neg (Nat.not_lt.2 hroom), List.append_assoc, if_neg hwhole, ← hlen, List.drop_left]
      exact ih fun h => hno (by simp [h])

/-- Any other noise takes bytes of the frames with it. -/
theorem framesOf_not_aligned {stream : List UInt8} (hstream : stream ≠ []) {garbage : List UInt8}
    (h : ¬ Aligned garbage) (hno : 0x7E ∉ garbage) :
    (framesOf (garbage ++ stream)).flatten.length < stream.length := by
  have hpos := List.length_pos_of_ne_nil hstream
  obtain ⟨n, hn⟩ : ∃ n, n = garbage.length := ⟨_, rfl⟩
  induction n using Nat.strongRecOn generalizing garbage with
  | ind n ih =>
      -- behind the noise, what is returned has arrived there
      have hinside : ∀ rest : List UInt8, rest.length < stream.length →
          (framesOf rest).flatten.length < stream.length := fun rest hlt =>
        Nat.lt_of_le_of_lt (framesOf_flatten_length rest) hlt
      rcases garbage with _ | ⟨a, g⟩
      · exact absurd .nil h
      have ha : a ≠ 0x7E := fun h => hno (h ▸ List.mem_cons_self ..)
      rw [List.cons_append]
      obtain hshort | ⟨b, c, tail, heq⟩ : (g ++ stream).length < 2 ∨
          ∃ b c tail, g ++ stream = b :: c :: tail := by
        rcases g ++ stream with _ | ⟨b, _ | ⟨c, tail⟩⟩
        · exact .inl (by simp)
        · exact .inl (by simp)
        · exact .inr ⟨b, c, tail, rfl⟩
      · -- no call returns
        have hwait :
            zigbeeRule.reception (a :: (g ++ stream)) = ⟨a :: (g ++ stream), .waiting, []⟩ :=
          if_pos (Nat.succ_lt_succ hshort)
        rw [framesOf_waiting (by rw [hwait]; rfl)]
        exact hpos
      have hlen := congrArg List.length heq
      rw [List.length_append, List.length_cons, List.length_cons] at hlen
      -- a piece that ends in the noise leaves noise that is no better
      have hcut : ∀ k, k + 2 ≤ g.length → (∀ data rest, g = b :: c :: (data ++ rest) →
          data.length = k → ¬ Aligned rest) →
          (framesOf (tail.drop k)).flatten.length < stream.length := by
        intro k hk hnot
        rcases g with _ | ⟨b', _ | ⟨c', g⟩⟩
        · simp at hk
        · simp at hk
        · obtain ⟨rfl, htail⟩ := List.cons.inj heq
          obtain ⟨rfl, rfl⟩ := List.cons.inj htail
          have hk' : k ≤ g.length := by simpa using hk
          rw [List.append_eq, List.drop_append_of_le_length hk']
          refine ih (g.drop k).length ?_ ?_ ?_ rfl
          · simp [hn]
            omega
          · exact hnot (g.take k) _ (by rw [List.take_append_drop]) (by simp [hk'])
          · exact fun hmem => hno (by simp [List.mem_of_mem_drop hmem])
      rw [heq, framesOf_noise ha]
      split
      · rename_i hlong
        by_cases hg : 2 ≤ g.length
        · exact hcut 0 (by omega) fun data rest hcons hdata hrest => h (by
            rw [hcons, List.eq_nil_of_length_eq_zero hdata]
            exact .tooManyData hlong hrest)
        · exact hinside _ (by omega)
      split
      · exact hpos
      · rename_i hroom hwhole
        by_cases hg : be16 b c + 1 + 2 ≤ g.length
        · exact hcut _ hg fun data rest hcons hdata hrest => h (by
            rw [hcons]
            exact .whole (Nat.not_lt.1 hroom) hdata hrest)
        · refine hinside _ ?_
          rw [List.length_drop]
          omega

/-! ### Frames after noise -/

/-- A valid frame is not empty. -/
theorem ZigbeeFrame.length_pos {f : List UInt8} (hf : ZigbeeFrame f) : 0 < f.length := by
  have := hf.length
  omega

/-- Frames that all come through follow aligned noise. -/
theorem aligned_of_sublist {garbage : List UInt8} {frames : List (List UInt8)}
    (hno : 0x7E ∉ garbage) (hf : ∀ f ∈ frames, ZigbeeFrame f) (hne : frames ≠ [])
    (hsub : frames.Sublist (framesOf (garbage ++ frames.flatten))) : Aligned garbage := by
  by_contra hnot
  obtain ⟨f, frames', rfl⟩ := List.exists_cons_of_ne_nil hne
  have hstream : (f :: frames').flatten ≠ [] := by
    have := (hf f (List.mem_cons_self ..)).length_pos
    rw [List.flatten_cons, ← List.length_pos_iff, List.length_append]
    omega
  exact absurd hsub.flatten.length_le (Nat.not_le.2 (framesOf_not_aligned hstream hnot hno))

/-- **The frames come through exactly when the noise is aligned**, and then nothing
else does. -/
theorem frames_after_noise_iff {garbage : List UInt8} {frames : List (List UInt8)}
    (hno : 0x7E ∉ garbage) (hf : ∀ f ∈ frames, ZigbeeFrame f) (buf : Nat → UInt8)
    {line : List (List UInt8)} (hflow : Flowing line)
    (hline : line.flatten = garbage ++ frames.flatten) :
    (frames.Sublist (zigbeeReturned buf line) ↔ frames = [] ∨ Aligned garbage) ∧
      (Aligned garbage → zigbeeReturned buf line = frames) := by
  rw [zigbeeReturned_eq hflow, hline]
  have haligned : Aligned garbage → framesOf (garbage ++ frames.flatten) = frames := by
    intro h
    rw [framesOf_aligned h hno, framesOf_frames hf]
  refine ⟨⟨fun hsub => ?_, ?_⟩, haligned⟩
  · by_cases hne : frames = []
    · exact .inl hne
    · exact .inr (aligned_of_sublist hno hf hne hsub)
  · rintro (rfl | h)
    · exact List.nil_sublist _
    · rw [haligned h]

/-- The shortest frame there is. -/
theorem zigbeeFrame_shortest : ZigbeeFrame [0x7E, 0x00, 0x00, 0xFF] :=
  ⟨rfl, rfl, by decide, rfl⟩

/-- One stray byte, and the frame behind it is lost. -/
theorem frame_lost_after_noise :
    ¬ ∀ (garbage : List UInt8) (frames : List (List UInt8)) (buf : Nat → UInt8)
      (line : List (List UInt8)), 0x7E ∉ garbage → (∀ f ∈ frames, ZigbeeFrame f) → Flowing line →
      line.flatten = garbage ++ frames.flatten → frames.Sublist (zigbeeReturned buf line) := by
  intro h
  have hf : ∀ f ∈ [[0x7E, 0x00, 0x00, 0xFF]], ZigbeeFrame f := by
    simpa using zigbeeFrame_shortest
  have hflow : Flowing [[0x00], [0x7E, 0x00, 0x00, 0xFF]] := by simp [Flowing]
  have hsub := h [0x00] _ (fun _ => 0) _ (by decide) hf hflow rfl
  rw [zigbeeReturned_eq hflow] at hsub
  have haligned : Aligned [0x00] := aligned_of_sublist (by decide) hf (by simp) hsub
  cases haligned

/-- Noise of four bytes that count themselves. -/
theorem frames_after_noise_four :
    zigbeeReturned (fun _ => 0) [[0x00, 0x00, 0x00, 0x55, 0x7E, 0x00], [0x00, 0xFF]] =
      [[0x7E, 0x00, 0x00, 0xFF]] := by
  have hf : ∀ f ∈ [[0x7E, 0x00, 0x00, 0xFF]], ZigbeeFrame f := by
    simpa using zigbeeFrame_shortest
  have hdata : [0x55].length = be16 0x00 0x00 + 1 := rfl
  have haligned : Aligned (0x00 :: 0x00 :: 0x00 :: ([0x55] ++ [])) := .whole (by decide) hdata .nil
  exact (frames_after_noise_iff (by decide) hf (fun _ => 0) (by simp [Flowing]) rfl).2 haligned

end RtuA118
