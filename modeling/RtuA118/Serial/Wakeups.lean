import RtuA118.Serial.Transaction

/-!
# RtuA118.Serial.Wakeups

A request on the serial line, and messages on the thread's queue while it comes in.

`_modbus_rtu_select` waits for either. It returns with a positive count whichever of the
two is ready, and it leaves in the descriptor set what was ready: `receive_msg` reads the
port in any case, and waits for the port again only if it was ready the last time.

The receive loop is the one of `RtuA118.Serial.Transaction`; here it is played against a
`Line`: the bytes and messages that arrive, in order, and how far they have got whenever
the thread comes to an operation. However fast or slow the thread is, the frame is received
exactly when no byte of it arrives behind a message (`modbusReceive_frame_iff`).
-/

namespace RtuA118

open Program Serial

/-! ### The line -/

/-- What arrives: bytes at the port, or a message on the queue. -/
inductive Arrival where
  | bytes (chunk : List UInt8)
  | message
  deriving DecidableEq, Repr

/-- The bytes among what arrives. -/
def arrivingBytes (coming : List Arrival) : List UInt8 :=
  coming.flatMap fun
    | .bytes chunk => chunk
    | .message => []

/-- No byte arrives behind a message. -/
def MessagesLast : List Arrival → Prop
  | [] => True
  | .bytes _ :: rest => MessagesLast rest
  | .message :: rest => arrivingBytes rest = []

/-- The port and the queue: what waits there, what is still to arrive, and whether the
port is in the set of descriptors. -/
structure Line where
  watched : Bool
  waiting : List UInt8
  queued : Nat
  coming : List Arrival

namespace Line

/-- Before `receive_msg`, which puts the port into its set. -/
def start (arrivals : List Arrival) : Line := ⟨true, [], 0, arrivals⟩

/-- One arrival. -/
def take (l : Line) (rest : List Arrival) : Arrival → Line
  | .bytes chunk => { l with waiting := l.waiting ++ chunk, coming := rest }
  | .message => { l with queued := l.queued + 1, coming := rest }

/-- So many arrivals, or all there are. -/
def pass : Nat → Line → Line
  | 0, l => l
  | n + 1, l =>
    match l.coming with
    | [] => l
    | a :: rest => pass n (l.take rest a)

/-- `select` has something to return for. -/
def ready (l : Line) : Bool := (l.watched && !l.waiting.isEmpty) || decide (0 < l.queued)

/-- The wait of `select`, for what is still to arrive; `none` if it never ends. -/
def awaitAmong : List Arrival → Line → Option Line
  | [], l => if l.ready then some l else none
  | a :: rest, l => if l.ready then some l else awaitAmong rest (l.take rest a)

/-- The wait of `select`. -/
def await (l : Line) : Option Line := awaitAmong l.coming l

/-- The rest of `_modbus_rtu_select`: the set holds what was ready, and a message, if
there is one, is taken from the queue. -/
def wake (l : Line) : Line :=
  { l with watched := l.watched && !l.waiting.isEmpty, queued := l.queued - 1 }

/-- `read` of at most `n` bytes. -/
def read (n : Nat) (l : Line) : Line := { l with waiting := l.waiting.drop n }

/-- From one wait to the read after it: `d` arrivals before the wait, `e` behind it. -/
def turn (d e : Nat) (l : Line) : Option Line := (l.pass d).await.map fun l => l.wake.pass e

end Line

/-- A receive function played on the line. At its `k`-th operation `delay k` arrivals have
come in since the one before. `none` stands for a wait that never ends; the receive
functions come to no other operations. -/
def play {α : Type} (delay : Nat → Nat) : Nat → Serial α → Line → Option α
  | _, .done a, _ => some a
  | k, .call (.select _) f, l => do
    let l ← (l.pass (delay k)).await
    play delay (k + 1) (f true) l.wake
  | k, .call (.recv _ n) f, l =>
    let l := l.pass (delay k)
    play delay (k + 1) (f (l.waiting.take n)) (l.read n)
  | k, .call (.touch _) f, l => play delay (k + 1) (f ()) l
  | _, .call _ _, _ => none

/-! ### What arrives is what was sent -/

namespace Line

/-- The bytes that have not been read. -/
def unread (l : Line) : List UInt8 := l.waiting ++ arrivingBytes l.coming

@[simp] theorem unread_start (arrivals : List Arrival) :
    (start arrivals).unread = arrivingBytes arrivals := rfl

theorem unread_take {l : Line} {rest : List Arrival} {a : Arrival} (h : l.coming = a :: rest) :
    (l.take rest a).unread = l.unread := by
  unfold unread
  rw [h]
  cases a with
  | bytes chunk => simp [take, arrivingBytes]
  | message => simp [take, arrivingBytes]

@[simp] theorem unread_pass {n : Nat} {l : Line} : (l.pass n).unread = l.unread := by
  induction n generalizing l with
  | zero => rfl
  | succ n ih =>
      unfold pass
      split
      · rfl
      · rename_i a rest h
        rw [ih, unread_take h]

theorem unread_awaitAmong {coming : List Arrival} {l l' : Line} (hl : l.coming = coming)
    (h : awaitAmong coming l = some l') : l'.unread = l.unread := by
  induction coming generalizing l with
  | nil =>
      unfold awaitAmong at h
      split at h
      · cases h
        rfl
      · cases h
  | cons a rest ih =>
      unfold awaitAmong at h
      split at h
      · cases h
        rfl
      · rw [ih (by cases a <;> rfl) h, unread_take hl]

theorem unread_turn {d e : Nat} {l l' : Line} (h : l.turn d e = some l') :
    l'.unread = l.unread := by
  unfold turn at h
  obtain ⟨l1, h1, rfl⟩ := Option.map_eq_some_iff.mp h
  rw [unread_pass, show l1.wake.unread = l1.unread from rfl, unread_awaitAmong rfl h1, unread_pass]

end Line

/-! ### Messages behind the last byte -/

theorem messagesLast_of_no_bytes {coming : List Arrival} (h : arrivingBytes coming = []) :
    MessagesLast coming := by
  induction coming with
  | nil => trivial
  | cons a rest ih =>
      cases a with
      | bytes chunk => exact ih (List.append_eq_nil_iff.1 h).2
      | message => exact h

/-- The port is watched, and behind a message, waiting or to come, there is no byte. -/
structure Line.Orderly (l : Line) : Prop where
  watched : l.watched = true
  queued : 0 < l.queued → arrivingBytes l.coming = []
  coming : MessagesLast l.coming

namespace Line

variable {l : Line}

/-- While bytes are awaited, nothing else ends the wait. -/
theorem Orderly.ready_iff (h : l.Orderly) (hun : l.unread ≠ []) :
    l.ready = true ↔ l.waiting ≠ [] := by
  by_cases hw : l.waiting = []
  · have hcoming : ¬ arrivingBytes l.coming = [] := fun hnone => hun (by simp [unread, hw, hnone])
    have hqueued : ¬ 0 < l.queued := mt h.queued hcoming
    simp [ready, hw, hqueued]
  · simp [ready, h.watched, hw]

theorem Orderly.take (h : l.Orderly) {rest : List Arrival} {a : Arrival}
    (hl : l.coming = a :: rest) : (l.take rest a).Orderly := by
  have hcoming := h.coming
  have hqueued := h.queued
  rw [hl] at hcoming hqueued
  cases a with
  | bytes chunk =>
      exact ⟨h.watched, fun hq => (List.append_eq_nil_iff.1 (hqueued hq)).2, hcoming⟩
  | message => exact ⟨h.watched, fun _ => hcoming, messagesLast_of_no_bytes hcoming⟩

/-- Arrivals only add to what waits at the port. -/
theorem Orderly.pass {n : Nat} (h : l.Orderly) :
    (l.pass n).Orderly ∧ (l.waiting ≠ [] → (l.pass n).waiting ≠ []) := by
  induction n generalizing l with
  | zero => exact ⟨h, id⟩
  | succ n ih =>
      unfold Line.pass
      split
      · exact ⟨h, id⟩
      · rename_i a rest hl
        obtain ⟨ho, hw⟩ := ih (h.take hl)
        refine ⟨ho, fun hne => hw ?_⟩
        cases a <;> simp [Line.take, hne]

/-- A wait for bytes that come ends with bytes. -/
theorem Orderly.await (h : l.Orderly) (hun : l.unread ≠ []) :
    ∃ l', l.await = some l' ∧ l'.Orderly ∧ l'.waiting ≠ [] := by
  unfold Line.await
  induction hl : l.coming generalizing l with
  | nil =>
      have hne : l.waiting ≠ [] := by simpa [unread, hl, arrivingBytes] using hun
      refine ⟨l, ?_, h, hne⟩
      unfold awaitAmong
      rw [if_pos ((h.ready_iff hun).mpr hne)]
  | cons a rest ih =>
      unfold awaitAmong
      by_cases hne : l.waiting = []
      · rw [if_neg (mt (h.ready_iff hun).mp (not_not.mpr hne))]
        exact ih (h.take hl) (by rwa [unread_take hl]) (by cases a <;> rfl)
      · rw [if_pos ((h.ready_iff hun).mpr hne)]
        exact ⟨l, rfl, h, hne⟩

theorem Orderly.turn (h : l.Orderly) (hun : l.unread ≠ []) (d e : Nat) :
    ∃ l', l.turn d e = some l' ∧ l'.Orderly ∧ l'.waiting ≠ [] := by
  obtain ⟨l1, hwait, ho, hne⟩ := (h.pass (n := d)).1.await (by rwa [unread_pass])
  have hwake : l1.wake.Orderly :=
    ⟨by simp [wake, ho.watched, hne], fun hq => ho.queued (Nat.lt_of_lt_of_le hq (Nat.sub_le _ _)),
      ho.coming⟩
  obtain ⟨ho', hne'⟩ := hwake.pass (n := e)
  exact ⟨_, by simp [Line.turn, hwait], ho', hne' hne⟩

/-! ### A message between two bytes -/

theorem awaitAmong_of_ready {coming : List Arrival} (h : l.ready = true) :
    awaitAmong coming l = some l := by
  cases coming <;> exact if_pos h

/-- A thread that waits at an empty port is woken by the message, if no byte comes before
it. -/
theorem awaitAmong_of_not_messagesLast {coming : List Arrival} (hl : l.coming = coming)
    (hwatched : l.watched = true) (hqueued : l.queued = 0) (hwaiting : l.waiting = [])
    (h : ¬ MessagesLast coming) :
    ∃ l', awaitAmong coming l = some l' ∧ (l'.waiting ≠ [] →
      l'.watched = true ∧ l'.queued = 0 ∧ ¬ MessagesLast l'.coming) := by
  have hnot : ¬ l.ready = true := by simp [ready, hqueued, hwaiting]
  induction coming generalizing l with
  | nil => exact absurd trivial h
  | cons a rest ih =>
      rw [awaitAmong, if_neg hnot]
      cases a with
      | message =>
          exact ⟨_, awaitAmong_of_ready (by simp [ready, take]), fun hne => absurd hwaiting hne⟩
      | bytes chunk =>
          by_cases hchunk : chunk = []
          · subst hchunk
            refine ih rfl hwatched hqueued (by simp [take, hwaiting]) h ?_
            simp [ready, take, hqueued, hwaiting]
          · exact ⟨_, awaitAmong_of_ready (by simp [ready, take, hwatched, hchunk]),
              fun _ => ⟨hwatched, hqueued, h⟩⟩

/-- So does one turn of a thread that looks at everything as it arrives. -/
theorem turn_of_not_messagesLast (hwatched : l.watched = true) (hqueued : l.queued = 0)
    (h : ¬ MessagesLast l.coming) {l' : Line} (hturn : l.turn 0 0 = some l')
    (hne : l'.waiting ≠ []) :
    l'.watched = true ∧ l'.queued = 0 ∧ ¬ MessagesLast l'.coming := by
  obtain ⟨l1, hwait, rfl⟩ := Option.map_eq_some_iff.1 hturn
  have hwoken : l1.watched = true ∧ l1.queued = 0 ∧ ¬ MessagesLast l1.coming := by
    by_cases hwaiting : l.waiting = []
    · obtain ⟨l2, hwait', hl2⟩ :=
        awaitAmong_of_not_messagesLast rfl hwatched hqueued hwaiting h
      obtain rfl : l2 = l1 := Option.some.inj (hwait'.symm.trans hwait)
      exact hl2 hne
    · have hready : l.ready = true := by simp [ready, hwatched, hwaiting]
      obtain rfl : l = l1 := Option.some.inj ((awaitAmong_of_ready hready).symm.trans hwait)
      exact ⟨hwatched, hqueued, h⟩
  have hne1 : l1.waiting ≠ [] := hne
  exact ⟨by simp [pass, wake, hwoken.1, hne1], by simp [pass, wake, hwoken.2.1], hwoken.2.2⟩

end Line

/-! ### The frame in its pieces -/

/-- A request frame on the serial line: as long as its own head says, no longer than a
frame can be, and with the right checksum. -/
structure ValidRequest (frame : List UInt8) : Prop where
  whole : (msgRule .rtu .indication).frameLength frame = frame.length
  short : frame.length ≤ Backend.rtu.maxAduLength
  sound : Backend.rtu.checkIntegrity frame = true

/-- Where the piece that byte `pos` belongs to ends. -/
def pieceEnd (frame : List UInt8) (pos : Nat) : Nat :=
  if pos < 2 then 2
  else if pos < (msgRule .rtu .indication).headLength frame then
    (msgRule .rtu .indication).headLength frame
  else frame.length

/-- The state of the receive loop with `pos` bytes of the frame. -/
structure ReceivedTo (frame : List UInt8) (pos : Nat) (st : RecvState) : Prop where
  msg : st.msg = frame.take pos
  length : st.lengthToRead = pieceEnd frame pos - pos
  step : st.step = if pos < 2 then .stepFunction
    else if pos < (msgRule .rtu .indication).headLength frame then .stepMeta else .stepData

section Pieces

variable {frame : List UInt8} {pos : Nat} {st : RecvState}

theorem headLength_ge (frame : List UInt8) : 2 ≤ (msgRule .rtu .indication).headLength frame :=
  Nat.le_add_right _ _

theorem ValidRequest.head_lt (h : ValidRequest frame) :
    (msgRule .rtu .indication).headLength frame + 2 ≤ frame.length := by
  have hwhole := h.whole
  rw [frameLength_msgRule] at hwhole
  rw [headLength_msgRule]
  unfold computeDataLengthAfterMeta Backend.checksumLength at hwhole
  dsimp only at hwhole
  omega

theorem pieceEnd_le (h : ValidRequest frame) (pos : Nat) : pieceEnd frame pos ≤ frame.length := by
  have hhead := h.head_lt
  have hge := headLength_ge frame
  unfold pieceEnd
  split
  · omega
  · split <;> omega

theorem lt_pieceEnd (hpos : pos < frame.length) : pos < pieceEnd frame pos := by
  unfold pieceEnd
  split
  · omega
  · split <;> omega

/-- Within a piece, the loop goes on with what is left of it. -/
theorem ReceivedTo.read (hst : ReceivedTo frame pos st) {n : Nat}
    (hn : pos + n < pieceEnd frame pos) :
    ReceivedTo frame (pos + n)
      ⟨st.step, st.msg ++ (frame.drop pos).take n, st.lengthToRead - n⟩ := by
  have hsame : pieceEnd frame (pos + n) = pieceEnd frame pos ∧
      (if pos < 2 then Step.stepFunction
        else if pos < (msgRule .rtu .indication).headLength frame then .stepMeta else .stepData) =
      (if pos + n < 2 then Step.stepFunction
        else if pos + n < (msgRule .rtu .indication).headLength frame then .stepMeta
        else .stepData) := by
    unfold pieceEnd at hn ⊢
    split at hn
    · simp [show pos < 2 by omega, show pos + n < 2 by omega]
    · split at hn
      · simp [show ¬ pos < 2 by omega, show ¬ pos + n < 2 by omega, hn,
          show pos < (msgRule .rtu .indication).headLength frame by omega]
      · simp [show ¬ pos < 2 by omega, show ¬ pos + n < 2 by omega,
          show ¬ pos < (msgRule .rtu .indication).headLength frame by omega,
          show ¬ pos + n < (msgRule .rtu .indication).headLength frame by omega]
  exact
    { msg := by rw [hst.msg, List.take_add]
      length := by rw [hsame.1, hst.length, Nat.sub_sub]
      step := hst.step.trans hsame.2 }

/-- The head of the frame gives the length of its last piece. -/
theorem afterMeta_head (h : ValidRequest frame) :
    ∃ st', (msgRule .rtu .indication).afterMeta
        (frame.take ((msgRule .rtu .indication).headLength frame)) = some st' ∧
      ReceivedTo frame ((msgRule .rtu .indication).headLength frame) st' := by
  have hhead := h.head_lt
  have hge := headLength_ge frame
  have hwhole : (msgRule .rtu .indication).headLength frame + (msgRule .rtu .indication).dataLength
      (frame.take ((msgRule .rtu .indication).headLength frame)) = frame.length := h.whole
  have hshort : frame.length ≤ (msgRule .rtu .indication).maxAduLength := h.short
  refine ⟨⟨.stepData, frame.take ((msgRule .rtu .indication).headLength frame),
    frame.length - (msgRule .rtu .indication).headLength frame⟩, ?_, ?_⟩
  · unfold FrameRule.afterMeta
    rw [List.length_take, Nat.min_eq_left (by omega), if_neg (by omega)]
    congr 2
    omega
  · constructor
    · rfl
    · unfold pieceEnd
      rw [if_neg (by omega), if_neg (Nat.lt_irrefl _)]
    · rw [if_neg (by omega), if_neg (Nat.lt_irrefl _)]

/-- At the end of a piece, the loop goes on with the next one. -/
theorem ReceivedTo.advance (h : ValidRequest frame) (hst : ReceivedTo frame pos st) :
    ∃ st', (msgRule .rtu .indication).advance st.step (frame.take (pieceEnd frame pos))
        = some st' ∧ ReceivedTo frame (pieceEnd frame pos) st' := by
  have hge := headLength_ge frame
  have hlt := h.head_lt
  rw [hst.step]
  unfold pieceEnd
  split
  · -- the function code is there: a middle piece, or the last one at once
    have hhead : (msgRule .rtu .indication).headLength frame =
        2 + (msgRule .rtu .indication).metaLength (frame.take 2) := rfl
    by_cases hmeta : (msgRule .rtu .indication).metaLength (frame.take 2) = 0
    · obtain ⟨st', hst', hto⟩ := afterMeta_head h
      rw [hhead, hmeta, Nat.add_zero] at hst' hto
      exact ⟨st', (if_neg (not_not.mpr hmeta)).trans hst', hto⟩
    · refine ⟨_, if_pos hmeta, rfl, ?_, ?_⟩
      · unfold pieceEnd
        rw [if_neg (Nat.lt_irrefl _), if_pos (by omega), hhead, Nat.add_sub_cancel_left]
      · rw [if_neg (Nat.lt_irrefl _), if_pos (by omega)]
  · split
    · exact afterMeta_head h
    · refine ⟨_, rfl, rfl, ?_, ?_⟩
      · unfold pieceEnd
        rw [if_neg (by omega), if_neg (by omega), Nat.sub_self]
      · rw [if_neg (by omega), if_neg (by omega)]

end Pieces

/-! ### The loop on the line -/

/-- The turns of the loop from byte `pos` of the frame on, when every wait ends and the read
behind it finds a byte. -/
inductive Fed (frame : List UInt8) (delay : Nat → Nat) : Nat → Nat → Line → Prop where
  | complete {k : Nat} {l : Line} : Fed frame delay k frame.length l
  | piece {k pos : Nat} {l l' : Line} :
    pos < frame.length → l.turn (delay k) (delay (k + 1)) = some l' → l'.waiting ≠ [] →
    Fed frame delay (k + 2) (pos + min (pieceEnd frame pos - pos) l'.waiting.length)
      (l'.read (pieceEnd frame pos - pos)) →
    Fed frame delay k pos l

section Loop

variable {frame : List UInt8} {delay : Nat → Nat} {c k pos : Nat} {st : RecvState} {l l' : Line}
  {α : Type} {f : Option (List UInt8) → Serial α}

/-- What the loop does with the bytes of a read. -/
def afterRead (r : FrameRule) (c : Nat) (st : RecvState) (bytes : List UInt8) :
    Serial (Option (List UInt8)) :=
  if bytes = [] then pure none
  else if st.lengthToRead - bytes.length = 0 then
    match r.advance st.step (st.msg ++ bytes) with
    | none => pure none
    | some st' => receive r c st'
  else receive r c ⟨st.step, st.msg ++ bytes, st.lengthToRead - bytes.length⟩

/-- One wait and the read behind it. -/
theorem play_receive {r : FrameRule} (hst : st.lengthToRead ≠ 0) :
    play delay k (receive r c st >>= f) l =
      (l.turn (delay k) (delay (k + 1))).bind fun l' =>
        play delay (k + 2) (afterRead r c st (l'.waiting.take st.lengthToRead) >>= f)
          (l'.read st.lengthToRead) := by
  rw [receive, dif_neg hst]
  unfold Line.turn
  cases hwait : (l.pass (delay k)).await with
  | none => simp [play, hwait]
  | some l1 =>
      simp only [Prog.op_bind, Prog.call_bind, play, hwait]
      simp
      -- the loop's own tests are those of `afterRead`
      rw [play]
      refine congrArg (fun p => play delay (k + 2) (p >>= f) _) ?_
      unfold afterRead
      refine ite_congr rfl (fun _ => rfl) fun _ => ite_congr rfl (fun _ => ?_) fun _ => rfl
      split <;> split <;> simp_all

/-- What a read leaves unread. -/
theorem unread_read {q n : Nat} (hun : l.unread = frame.drop pos)
    (hn : n = min q l.waiting.length) : (l.read q).unread = frame.drop (pos + n) := by
  have hdrop : l.waiting.drop q = l.waiting.drop n := by
    rcases Nat.le_total q l.waiting.length with hle | hle
    · rw [hn, Nat.min_eq_left hle]
    · rw [hn, Nat.min_eq_right hle, List.drop_length, List.drop_eq_nil_of_le hle]
  rw [← List.drop_drop, ← hun]
  unfold Line.unread Line.read
  rw [List.drop_append_of_le_length (by omega), ← hdrop]

/-- A read that finds bytes: the loop goes on behind them. -/
theorem play_receive_piece (h : ValidRequest frame) (hst : ReceivedTo frame pos st)
    (hun : l.unread = frame.drop pos) (hpos : pos < frame.length)
    (hturn : l.turn (delay k) (delay (k + 1)) = some l') (hne : l'.waiting ≠ []) {n : Nat}
    (hn : n = min (pieceEnd frame pos - pos) l'.waiting.length) :
    ∃ st', ReceivedTo frame (pos + n) st' ∧
      (l'.read (pieceEnd frame pos - pos)).unread = frame.drop (pos + n) ∧
      play delay k (receive (msgRule .rtu .indication) c st >>= f) l =
        play delay (k + 2) (receive (msgRule .rtu .indication) c st' >>= f)
          (l'.read (pieceEnd frame pos - pos)) := by
  have hend := lt_pieceEnd hpos
  have hlen := List.length_pos_of_ne_nil hne
  have hrest : l'.waiting ++ arrivingBytes l'.coming = frame.drop pos :=
    (Line.unread_turn hturn).trans hun
  have hbytes : l'.waiting.take (pieceEnd frame pos - pos) = (frame.drop pos).take n := by
    rw [← hrest, hn, List.take_append_of_le_length (Nat.min_le_right _ _), List.take_eq_take_min]
  have hcount : ((frame.drop pos).take n).length = n := by
    rw [← hbytes, hn, List.length_take]
  have hunread : (l'.read (pieceEnd frame pos - pos)).unread = frame.drop (pos + n) :=
    unread_read hrest hn
  rw [play_receive (by rw [hst.length]; omega), hturn, Option.bind_some, hst.length, hbytes]
  unfold afterRead
  rw [if_neg (by rw [← List.length_eq_zero_iff]; omega), hcount, hst.length]
  by_cases hdone : pieceEnd frame pos - pos - n = 0
  · obtain ⟨st', hadv, hto⟩ := hst.advance h
    have hpn : pos + n = pieceEnd frame pos := by omega
    rw [if_pos hdone, hst.msg, ← List.take_add, hpn, hadv]
    exact ⟨st', hto, hpn ▸ hunread, rfl⟩
  · rw [if_neg hdone]
    exact ⟨_, hst.length ▸ hst.read (by omega), hunread, rfl⟩

/-- On a line that is fed, the loop comes to the frame. -/
theorem play_receive_of_fed (h : ValidRequest frame) (hfed : Fed frame delay k pos l) :
    ∀ {st : RecvState}, ReceivedTo frame pos st → l.unread = frame.drop pos →
    ∃ k' l', play delay k (receive (msgRule .rtu .indication) c st >>= f) l =
      play delay k' (f (some frame)) l' := by
  induction hfed with
  | complete =>
      intro st hst _
      have hhead := h.head_lt
      have hge := headLength_ge frame
      have hzero : st.lengthToRead = 0 := by
        rw [hst.length]
        unfold pieceEnd
        rw [if_neg (by omega), if_neg (by omega), Nat.sub_self]
      have hall : st.msg = frame := by rw [hst.msg, List.take_length]
      rw [receive, dif_pos hzero, hall]
      exact ⟨_, _, rfl⟩
  | piece hpos hturn hne _ ih =>
      intro st hst hun
      obtain ⟨st', hst', hun', hplay⟩ :=
        play_receive_piece (c := c) (f := f) h hst hun hpos hturn hne rfl
      rw [hplay]
      exact ih hst' hun'

/-- On a line that is not, it fails, or waits for ever. -/
theorem play_receive_of_not_fed (h : ValidRequest frame) : ∀ {k pos : Nat} {l : Line}
    {st : RecvState}, pos ≤ frame.length → ReceivedTo frame pos st → l.unread = frame.drop pos →
    ¬ Fed frame delay k pos l →
    play delay k (receive (msgRule .rtu .indication) c st >>= f) l = none ∨
      ∃ k' l', play delay k (receive (msgRule .rtu .indication) c st >>= f) l =
        play delay k' (f none) l' := by
  intro k pos
  induction hrest : frame.length - pos using Nat.strongRecOn generalizing k pos with
  | ind rest ih =>
      intro l st hle hst hun hfed
      have hpos : pos < frame.length := by
        refine Nat.lt_of_le_of_ne hle fun heq => hfed ?_
        rw [heq]
        exact .complete
      have hend := lt_pieceEnd hpos
      have hplay : play delay k (receive (msgRule .rtu .indication) c st >>= f) l = _ :=
        play_receive (by rw [hst.length]; omega)
      cases hturn : l.turn (delay k) (delay (k + 1)) with
      | none =>
          left
          rw [hplay, hturn, Option.bind_none]
      | some l' =>
          by_cases hne : l'.waiting = []
          · -- a message alone ended the wait
            right
            rw [hplay, hturn, Option.bind_some, hne, List.take_nil]
            exact ⟨_, _, rfl⟩
          · obtain ⟨st', hst', hun', hplay'⟩ :=
              play_receive_piece (c := c) (f := f) h hst hun hpos hturn hne rfl
            have hlen := List.length_pos_of_ne_nil hne
            have hpe := pieceEnd_le h pos
            rw [hplay']
            exact ih _ (by omega) rfl (by omega) hst' hun' fun hnext =>
              hfed (.piece hpos hturn hne hnext)

/-- A line on which no byte is behind a message is fed, however the frame is cut and however
slow the thread. -/
theorem fed_of_orderly (h : ValidRequest frame) (hle : pos ≤ frame.length) (hl : l.Orderly)
    (hun : l.unread = frame.drop pos) : Fed frame delay k pos l := by
  induction hrest : frame.length - pos using Nat.strongRecOn generalizing k pos l with
  | ind rest ih =>
      rcases Nat.eq_or_lt_of_le hle with rfl | hpos
      · exact .complete
      · have hsome : l.unread ≠ [] := by
          rw [hun]
          simpa using hpos
        obtain ⟨l', hturn, hl', hne⟩ := hl.turn hsome (delay k) (delay (k + 1))
        have hlen := List.length_pos_of_ne_nil hne
        have hend := lt_pieceEnd hpos
        have hpe := pieceEnd_le h pos
        refine .piece hpos hturn hne (ih _ ?_ ?_ ⟨hl'.watched, hl'.queued, hl'.coming⟩ ?_ rfl)
        · omega
        · omega
        · exact unread_read ((Line.unread_turn hturn).trans hun) rfl

/-- A thread that looks at everything as it arrives comes to a message with nothing left at the
port, so it is fed only if no byte is behind one. -/
theorem Fed.messagesLast (hfed : Fed frame (fun _ => 0) k pos l) :
    l.watched = true → l.queued = 0 → l.unread = frame.drop pos → MessagesLast l.coming := by
  induction hfed with
  | complete =>
      intro _ _ hun
      rw [List.drop_length] at hun
      exact messagesLast_of_no_bytes (List.append_eq_nil_iff.1 hun).2
  | piece hpos hturn hne _ ih =>
      intro hwatched hqueued hun
      by_contra hlast
      obtain ⟨hwatched', hqueued', hlast'⟩ :=
        Line.turn_of_not_messagesLast hwatched hqueued hlast hturn hne
      exact hlast' (ih hwatched' hqueued'
        (unread_read ((Line.unread_turn hturn).trans hun) rfl))

end Loop

/-- `modbus_receive` on a line to which the arrivals come. -/
def modbusReceive (delay : Nat → Nat) (c : Nat) (arrivals : List Arrival) :
    Option (Option (List UInt8)) :=
  play delay 0 (modbusReceiveMsg c .indication) (.start arrivals)

section Receive

variable {frame : List UInt8} {delay : Nat → Nat} {c : Nat} {arrivals : List Arrival}

theorem receivedTo_start : ReceivedTo frame 0 ⟨.stepFunction, [], 2⟩ := ⟨rfl, rfl, rfl⟩

theorem modbusReceive_of_fed (h : ValidRequest frame) (hbytes : arrivingBytes arrivals = frame)
    (hfed : Fed frame delay 0 0 (.start arrivals)) :
    modbusReceive delay c arrivals = some (some frame) := by
  have hun : (Line.start arrivals).unread = frame.drop 0 := hbytes
  obtain ⟨k', l', hplay⟩ := play_receive_of_fed h hfed receivedTo_start hun
  refine hplay.trans ?_
  show some (if Backend.rtu.checkIntegrity frame then some frame else none) = _
  rw [if_pos h.sound]

theorem modbusReceive_of_not_fed (h : ValidRequest frame) (hbytes : arrivingBytes arrivals = frame)
    (hfed : ¬ Fed frame delay 0 0 (.start arrivals)) :
    modbusReceive delay c arrivals = none ∨ modbusReceive delay c arrivals = some none := by
  have hun : (Line.start arrivals).unread = frame.drop 0 := hbytes
  rcases play_receive_of_not_fed h (Nat.zero_le _) receivedTo_start hun hfed
    with hplay | ⟨k', l', hplay⟩
  · exact .inl hplay
  · exact .inr hplay

theorem modbusReceive_iff_fed (h : ValidRequest frame) (hbytes : arrivingBytes arrivals = frame) :
    modbusReceive delay c arrivals = some (some frame) ↔ Fed frame delay 0 0 (.start arrivals) := by
  constructor
  · intro hplay
    by_contra hfed
    rcases modbusReceive_of_not_fed (c := c) h hbytes hfed with hnone | hnone <;>
      · rw [hplay] at hnone
        simp at hnone
  · exact modbusReceive_of_fed h hbytes

/-- **The frame is received, however fast or slow the thread, exactly when no byte of it arrives
behind a message.** -/
theorem modbusReceive_frame_iff (frame : List UInt8) (c : Nat) (arrivals : List Arrival)
    (h : ValidRequest frame) (hbytes : arrivingBytes arrivals = frame) :
    (∀ delay, modbusReceive delay c arrivals = some (some frame)) ↔ MessagesLast arrivals := by
  constructor
  · intro hall
    exact ((modbusReceive_iff_fed h hbytes).1 (hall fun _ => 0)).messagesLast rfl rfl hbytes
  · intro hlast delay
    have horderly : (Line.start arrivals).Orderly :=
      ⟨rfl, fun hqueued => absurd hqueued (Nat.lt_irrefl 0), hlast⟩
    exact (modbusReceive_iff_fed h hbytes).2 (fed_of_orderly h (Nat.zero_le _) horderly hbytes)

/-- A request for one register of well 1. -/
def oneRegister : List UInt8 := [1, 3, 0, 0, 0, 1, 0x84, 0x0A]

theorem oneRegister_valid : ValidRequest oneRegister :=
  ⟨by decide +kernel, by decide, by decide +kernel⟩

/-- It comes in two parts, with two messages behind them. -/
def partsThenMessages : List Arrival :=
  [.bytes [1, 3], .bytes [0, 0, 0, 1, 0x84, 0x0A], .message, .message]

theorem partsThenMessages_received : MessagesLast partsThenMessages ∧
    ∀ delay, modbusReceive delay 0 partsThenMessages = some (some oneRegister) := by
  have hlast : MessagesLast partsThenMessages := rfl
  refine ⟨hlast, ?_⟩
  exact (modbusReceive_frame_iff oneRegister 0 partsThenMessages oneRegister_valid rfl).2 hlast

/-- A message comes between the two parts: it ends the wait for the second one, and the read
behind it fails. -/
theorem not_modbusReceive_frame : ¬ ∀ (frame : List UInt8) (delay : Nat → Nat) (c : Nat)
    (arrivals : List Arrival), ValidRequest frame → arrivingBytes arrivals = frame →
    modbusReceive delay c arrivals = some (some frame) := by
  intro hall
  have hframe := hall oneRegister (fun _ => 0) 0
    [.bytes [1, 3], .message, .bytes [0, 0, 0, 1, 0x84, 0x0A]] oneRegister_valid rfl
  exact absurd (((modbusReceive_iff_fed oneRegister_valid rfl).1 hframe).messagesLast rfl rfl rfl)
    (by simp [Line.start, MessagesLast, arrivingBytes])

end Receive

end RtuA118
