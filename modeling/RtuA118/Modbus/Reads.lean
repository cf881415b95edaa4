import Mathlib.Algebra.Ring.Nat
import Mathlib.Logic.Relation
import RtuA118.Modbus.Receive

/-!
# RtuA118.Modbus.Reads

The receive loops once more, now over the caller's buffer and one `read` at a
time. The **line** is the list of pieces in which the bytes arrive: a read takes
what it asked for of the first piece, and the rest of it is there for the next
read.

* `FrameRule.turn` is one turn of the loop and `FrameRule.readLoop` the loop.
* `FrameRule.reception` says of a whole stream what a call makes of it; it knows
  nothing of pieces, and `readLoop_eq_reception` shows that the loop computes it.
* `room_le_of_turns` bounds every read by the end of the buffer, over any line.
-/

namespace RtuA118

/-! ### The buffer -/

/-- The buffer with `bytes` written at offset `k`. -/
def putBytes (buf : Nat → UInt8) (k : Nat) (bytes : List UInt8) : Nat → UInt8 := fun i =>
  if k ≤ i ∧ i < k + bytes.length then bytes.getD (i - k) 0 else buf i

/-- The first `n` bytes of the buffer. -/
def bytesOf (buf : Nat → UInt8) (n : Nat) : List UInt8 := (List.range n).map buf

@[simp] theorem putBytes_nil (buf : Nat → UInt8) (k : Nat) : putBytes buf k [] = buf := by
  funext i
  exact if_neg (by simp)

theorem putBytes_putBytes (buf : Nat → UInt8) (msg bytes : List UInt8) :
    putBytes (putBytes buf 0 msg) msg.length bytes = putBytes buf 0 (msg ++ bytes) := by
  funext i
  simp only [putBytes, List.length_append, Nat.zero_le, true_and, Nat.zero_add, Nat.sub_zero]
  by_cases h1 : i < msg.length
  · rw [if_neg (by omega), if_pos h1, if_pos (by omega), List.getD_append _ _ _ _ h1]
  · by_cases h2 : i < msg.length + bytes.length
    · rw [if_pos (by omega), if_pos h2, List.getD_append_right _ _ _ _ (by omega)]
    · rw [if_neg (by omega), if_neg h1, if_neg h2]

@[simp] theorem bytesOf_putBytes (buf : Nat → UInt8) (msg : List UInt8) :
    bytesOf (putBytes buf 0 msg) msg.length = msg := by
  refine List.ext_getElem (by simp [bytesOf]) fun i h1 h2 => ?_
  simp [bytesOf, putBytes, h2]

/-! ### The loop -/

/-- The variables of the loop, and the pieces still to arrive. -/
structure Reading where
  step : Step
  buf : Nat → UInt8
  msgLength : Nat
  lengthToRead : Nat
  line : List (List UInt8)

/-- How the loop is left, or that it is not. -/
inductive LoopEnd where
  | received
  | tooManyData
  /-- A `read` of no bytes, `ECONNRESET`. -/
  | connReset
  /-- The line is silent, and the call still in `select`. -/
  | waiting
  deriving DecidableEq, Repr

namespace FrameRule

variable (r : FrameRule)

/-- One turn: the state after it, and how it leaves the loop if it does. -/
def turn (s : Reading) : Reading × Option LoopEnd :=
  if s.lengthToRead = 0 then (s, some .received)
  else
    match s.line with
    | [] => (s, some .waiting)
    | piece :: later =>
      let bytes := piece.take s.lengthToRead
      let left := piece.drop s.lengthToRead
      if bytes = [] then ({ s with line := later }, some .connReset)
      else
        let buf := putBytes s.buf s.msgLength bytes
        let msgLength := s.msgLength + bytes.length
        let lengthToRead := s.lengthToRead - bytes.length
        let line := if left = [] then later else left :: later
        if lengthToRead = 0 then
          match r.advance s.step (bytesOf buf msgLength) with
          | none => (⟨s.step, buf, msgLength, lengthToRead, line⟩, some .tooManyData)
          | some next => (⟨next.step, buf, msgLength, next.lengthToRead, line⟩, none)
        else (⟨s.step, buf, msgLength, lengthToRead, line⟩, none)

end FrameRule

/-- A measure of the line: its bytes and its pieces. -/
def lineSize (line : List (List UInt8)) : Nat := (line.map fun p => p.length + 1).sum

@[simp] theorem lineSize_cons (p : List UInt8) (line : List (List UInt8)) :
    lineSize (p :: line) = p.length + 1 + lineSize line := rfl

namespace FrameRule

variable {r : FrameRule}

/-- Every turn that reads takes something off the line. -/
theorem turn_lt {s : Reading} (hz : s.lengthToRead ≠ 0) (hl : s.line ≠ []) :
    lineSize (r.turn s).1.line < lineSize s.line := by
  obtain ⟨step, buf, n, k, line⟩ := s
  cases line with
  | nil => exact absurd rfl hl
  | cons piece later =>
      dsimp only at hz
      by_cases hb : piece.take k = []
      · simp [turn, hz, hb]
      · have hline : lineSize (if piece.drop k = [] then later else piece.drop k :: later)
            < lineSize (piece :: later) := by
          have hpos : 0 < piece.length := by
            refine List.length_pos_of_ne_nil fun h => hb ?_
            rw [h, List.take_nil]
          split
          · simp
          · rw [lineSize_cons, lineSize_cons, List.length_drop]
            omega
        simp only [turn, hz, hb, if_false]
        split
        · split <;> exact hline
        · exact hline

/-- A turn that goes on has read. -/
theorem reads_of_turn {s s' : Reading} (h : r.turn s = (s', none)) :
    s.lengthToRead ≠ 0 ∧ s.line ≠ [] := by
  constructor
  · intro hz
    simp [turn, hz] at h
  · intro hl
    unfold turn at h
    rw [hl] at h
    split at h <;> simp at h

/-- The loop: the state it is left in, and how. -/
def readLoop (r : FrameRule) (s : Reading) : Reading × LoopEnd :=
  match _h : r.turn s with
  | (s', some e) => (s', e)
  | (s', none) => readLoop r s'
  termination_by lineSize s.line
  decreasing_by
    have hlt := turn_lt (r := r) (reads_of_turn _h).1 (reads_of_turn _h).2
    rwa [_h] at hlt

theorem readLoop_of_some {s s' : Reading} {e : LoopEnd} (h : r.turn s = (s', some e)) :
    r.readLoop s = (s', e) := by
  rw [readLoop]
  split
  · rename_i heq
    obtain ⟨rfl, he⟩ := Prod.mk.inj (heq.symm.trans h)
    rw [Option.some.inj he]
  · rename_i heq
    cases heq.symm.trans h

theorem readLoop_of_none {s s' : Reading} (h : r.turn s = (s', none)) :
    r.readLoop s = r.readLoop s' := by
  rw [readLoop]
  split
  · rename_i heq
    cases heq.symm.trans h
  · rename_i heq
    rw [(Prod.mk.inj (heq.symm.trans h)).1]

/-- A call that returns has taken something off the line. -/
theorem readLoop_lt {s : Reading} (hz : s.lengthToRead ≠ 0)
    (hend : (r.readLoop s).2 ≠ .waiting) :
    lineSize (r.readLoop s).1.line < lineSize s.line := by
  obtain ⟨n, hn⟩ : ∃ n, n = lineSize s.line := ⟨_, rfl⟩
  induction n using Nat.strongRecOn generalizing s with
  | ind n ih =>
      have hl : s.line ≠ [] := by
        intro hl
        have hturn : r.turn s = (s, some .waiting) := by simp [turn, hz, hl]
        exact hend (by rw [readLoop_of_some hturn])
      have hturn := turn_lt (r := r) hz hl
      rcases ht : r.turn s with ⟨s', _ | e⟩
      · rw [ht] at hturn
        rw [readLoop_of_none ht] at hend ⊢
        by_cases hz' : s'.lengthToRead = 0
        · have hdone : r.turn s' = (s', some .received) := by simp [turn, hz']
          rwa [readLoop_of_some hdone]
        · exact Nat.lt_trans (ih _ (hn ▸ hturn) hz' hend rfl) hturn
      · rw [ht] at hturn
        rwa [readLoop_of_some ht]

end FrameRule

/-! ### What a call makes of a stream -/

/-- What a call has put in the buffer, how it is left, and what it has not read. -/
structure Reception where
  bytes : List UInt8
  ending : LoopEnd
  rest : List UInt8
  deriving DecidableEq

/-- A call on a whole stream. -/
def FrameRule.reception (r : FrameRule) (stream : List UInt8) : Reception :=
  if stream.length < r.headLength stream then ⟨stream, .waiting, []⟩
  else if r.frameLength stream > r.maxAduLength then
    ⟨stream.take (r.headLength stream), .tooManyData, stream.drop (r.headLength stream)⟩
  else if stream.length < r.frameLength stream then ⟨stream, .waiting, []⟩
  else ⟨stream.take (r.frameLength stream), .received, stream.drop (r.frameLength stream)⟩

/-- A frame is cut off exactly where a call receives one. -/
theorem FrameRule.cut_eq_some_iff {r : FrameRule} {stream msg rest : List UInt8} :
    r.cut stream = some (msg, rest) ↔ r.reception stream = ⟨msg, .received, rest⟩ := by
  unfold FrameRule.cut FrameRule.reception
  split_ifs <;> simp

/-- The loop with `msg` received. -/
def reading (buf : Nat → UInt8) (step : Step) (msg : List UInt8) (lengthToRead : Nat)
    (line : List (List UInt8)) : Reading :=
  ⟨step, putBytes buf 0 msg, msg.length, lengthToRead, line⟩

/-- Every piece on the line is a byte at least. -/
def Flowing (line : List (List UInt8)) : Prop := ∀ p ∈ line, p ≠ []

namespace FrameRule

variable {r : FrameRule} {buf : Nat → UInt8} {step : Step} {msg : List UInt8}

/-- A read that gets all it asked for. -/
theorem turn_full (buf : Nat → UInt8) (step : Step) (msg : List UInt8) {piece : List UInt8}
    (later : List (List UInt8)) {k : Nat} (hk : 0 < k) (hle : k ≤ piece.length) :
    r.turn (reading buf step msg k (piece :: later)) =
      let line := if piece.drop k = [] then later else piece.drop k :: later
      match r.advance step (msg ++ piece.take k) with
      | none => (reading buf step (msg ++ piece.take k) 0 line, some .tooManyData)
      | some next =>
        (reading buf next.step (msg ++ piece.take k) next.lengthToRead line, none) := by
  have hlen : (piece.take k).length = k := by
    rw [List.length_take, Nat.min_eq_left hle]
  have hne : piece.take k ≠ [] := by
    intro h
    rw [h] at hlen
    exact Nat.ne_of_lt hk hlen
  have hmsg : msg.length + k = (msg ++ piece.take k).length := by
    rw [List.length_append, hlen]
  unfold turn reading
  dsimp only
  rw [if_neg (Nat.ne_of_gt hk), if_neg hne, hlen, Nat.sub_self, if_pos rfl, putBytes_putBytes, hmsg,
    bytesOf_putBytes]

/-- A read that gets less. -/
theorem turn_short {piece : List UInt8} {later : List (List UInt8)} {k : Nat}
    (hp : piece ≠ []) (hlt : piece.length < k) :
    r.turn (reading buf step msg k (piece :: later)) =
      (reading buf step (msg ++ piece) (k - piece.length) later, none) := by
  have htake : piece.take k = piece := List.take_of_length_le (Nat.le_of_lt hlt)
  have hdrop : piece.drop k = [] := List.drop_of_length_le (Nat.le_of_lt hlt)
  unfold turn reading
  dsimp only
  rw [if_neg (by omega), htake, hdrop, if_neg hp, if_pos rfl, if_neg (by omega),
    putBytes_putBytes, List.length_append]

/-- **One piece**: exactly the bytes it asks for, in however many reads. -/
theorem readLoop_piece (buf : Nat → UInt8) (step : Step) : ∀ {line : List (List UInt8)}
    (msg : List UInt8) {k : Nat}, Flowing line → 0 < k →
    ∃ line', Flowing line' ∧ line'.flatten = line.flatten.drop k ∧
      r.readLoop (reading buf step msg k line) =
        if line.flatten.length < k then
          (reading buf step (msg ++ line.flatten) (k - line.flatten.length) [], .waiting)
        else
          match r.advance step (msg ++ line.flatten.take k) with
          | none => (reading buf step (msg ++ line.flatten.take k) 0 line', .tooManyData)
          | some next =>
            r.readLoop (reading buf next.step (msg ++ line.flatten.take k) next.lengthToRead line')
    := by
  -- by induction on the pieces: each `read` takes one, or the part of it that is wanted
  intro line
  induction line with
  | nil =>
      intro msg k _ hk
      refine ⟨[], by simp [Flowing], by simp, ?_⟩
      rw [if_pos (by simpa using hk)]
      have hturn :
          r.turn (reading buf step msg k []) = (reading buf step msg k [], some .waiting) := by
        simp [turn, reading, Nat.ne_of_gt hk]
      rw [readLoop_of_some hturn]
      simp
  | cons piece later ih =>
      intro msg k hflow hk
      have hp : piece ≠ [] := hflow piece (List.mem_cons_self ..)
      have hlater : Flowing later := fun p hmem => hflow p (List.mem_cons_of_mem _ hmem)
      rw [List.flatten_cons]
      rcases Nat.lt_or_ge piece.length k with hlt | hle
      · -- the whole piece is read, and more is wanted
        obtain ⟨line', hflow', hrest, heq⟩ := ih (msg ++ piece) hlater
          (show 0 < k - piece.length by omega)
        refine ⟨line', hflow', ?_, ?_⟩
        · rw [hrest, List.drop_append, List.drop_of_length_le (Nat.le_of_lt hlt), List.nil_append]
        · rw [readLoop_of_none (turn_short hp hlt), heq, List.length_append, List.append_assoc,
            List.append_assoc, ← Nat.sub_sub, List.take_append,
            List.take_of_length_le (Nat.le_of_lt hlt)]
          simp only [show later.flatten.length < k - piece.length ↔
            piece.length + later.flatten.length < k from by omega]
      · -- the piece reaches as far as is wanted; the rest of it stays on the line
        refine ⟨if piece.drop k = [] then later else piece.drop k :: later, ?_, ?_, ?_⟩
        · intro p hmem
          split at hmem
          · exact hlater p hmem
          · rename_i hne
            rcases List.mem_cons.1 hmem with rfl | hmem
            · exact hne
            · exact hlater p hmem
        · rw [List.drop_append_of_le_length hle]
          split
          · rename_i hnil
            rw [hnil, List.nil_append]
          · rw [List.flatten_cons]
        · rw [if_neg (by rw [List.length_append]; omega), List.take_append_of_le_length hle]
          have hturn := turn_full (r := r) buf step msg later hk hle
          cases hadv : r.advance step (msg ++ piece.take k) with
          | none =>
              rw [hadv] at hturn
              exact readLoop_of_some hturn
          | some next =>
              rw [hadv] at hturn
              exact readLoop_of_none hturn

end FrameRule

/-- A run of the loop ends as `x` says. -/
def EndsAs (buf : Nat → UInt8) (run : Reading × LoopEnd) (x : Reception) : Prop :=
  ∃ step k line, Flowing line ∧ line.flatten = x.rest ∧
    run = (reading buf step x.bytes k line, x.ending)

namespace FrameRule

variable {r : FrameRule} {buf : Nat → UInt8} {step : Step} {msg : List UInt8}
  {line : List (List UInt8)}

/-- The last piece, which may be empty. -/
theorem readLoop_data {k : Nat} (hflow : Flowing line) :
    EndsAs buf (r.readLoop (reading buf .stepData msg k line))
      (if line.flatten.length < k then ⟨msg ++ line.flatten, .waiting, []⟩
        else ⟨msg ++ line.flatten.take k, .received, line.flatten.drop k⟩) := by
  have hdone : ∀ {msg line}, r.readLoop (reading buf .stepData msg 0 line) =
      (reading buf .stepData msg 0 line, .received) := by
    intro msg line
    exact readLoop_of_some (by simp [turn, reading])
  rcases Nat.eq_zero_or_pos k with rfl | hk
  · rw [if_neg (Nat.not_lt_zero _), hdone]
    exact ⟨.stepData, 0, line, hflow, by simp, by simp⟩
  · obtain ⟨line', hflow', hrest, heq⟩ := readLoop_piece (r := r) buf .stepData msg hflow hk
    rw [heq]
    split
    · exact ⟨.stepData, k - line.flatten.length, [], by simp [Flowing], rfl, rfl⟩
    · dsimp only [advance]
      rw [hdone]
      exact ⟨.stepData, 0, line', hflow', hrest, rfl⟩

/-- From the end of the middle piece on. -/
theorem readLoop_afterMeta (hflow : Flowing line) :
    EndsAs buf
      (match r.afterMeta msg with
        | none => (reading buf step msg 0 line, .tooManyData)
        | some next => r.readLoop (reading buf next.step msg next.lengthToRead line))
      (if msg.length + r.dataLength msg > r.maxAduLength then ⟨msg, .tooManyData, line.flatten⟩
        else if line.flatten.length < r.dataLength msg then ⟨msg ++ line.flatten, .waiting, []⟩
        else ⟨msg ++ line.flatten.take (r.dataLength msg), .received,
          line.flatten.drop (r.dataLength msg)⟩) := by
  unfold afterMeta
  by_cases hmax : msg.length + r.dataLength msg > r.maxAduLength
  · rw [if_pos hmax, if_pos hmax]
    exact ⟨step, 0, line, hflow, rfl, rfl⟩
  · rw [if_neg hmax, if_neg hmax]
    exact readLoop_data hflow

/-- What `readLoop_afterMeta` says, read off the stream. -/
theorem reception_of_head {stream : List UInt8} {h : Nat} (hhead : r.headLength stream = h)
    (hlen : h ≤ stream.length) :
    r.reception stream =
      if (stream.take h).length + r.dataLength (stream.take h) > r.maxAduLength then
        ⟨stream.take h, .tooManyData, stream.drop h⟩
      else if (stream.drop h).length < r.dataLength (stream.take h) then
        ⟨stream.take h ++ stream.drop h, .waiting, []⟩
      else ⟨stream.take h ++ (stream.drop h).take (r.dataLength (stream.take h)), .received,
        (stream.drop h).drop (r.dataLength (stream.take h))⟩ := by
  unfold reception frameLength
  rw [hhead, if_neg (by omega), List.length_take, Nat.min_eq_left hlen, List.length_drop,
    List.take_append_drop, ← List.take_add, List.drop_drop]
  simp only [show stream.length < h + r.dataLength (stream.take h) ↔
    stream.length - h < r.dataLength (stream.take h) from by omega]

/-- **The loop does to the stream what `reception` says**, however it arrives. -/
theorem readLoop_eq_reception (buf : Nat → UInt8) (hfirst : 0 < r.firstLength)
    (hstart : r.start ≠ .stepData) (hflow : Flowing line) :
    EndsAs buf (r.readLoop (reading buf r.start [] r.firstLength line))
      (r.reception line.flatten) := by
  have hwait : ∀ {st : Step} {k : Nat}, line.flatten.length < r.headLength line.flatten →
      EndsAs buf (reading buf st line.flatten k [], .waiting) (r.reception line.flatten) := by
    intro st k hshort
    rw [reception, if_pos hshort]
    exact ⟨st, k, [], by simp [Flowing], rfl, rfl⟩
  -- the middle piece is complete, and `later` is what has not been read
  have hmeta : ∀ {st : Step} {later : List (List UInt8)} {h : Nat}, Flowing later →
      later.flatten = line.flatten.drop h → r.headLength line.flatten = h →
      h ≤ line.flatten.length →
      EndsAs buf
        (match r.afterMeta (line.flatten.take h) with
          | none => (reading buf st (line.flatten.take h) 0 later, .tooManyData)
          | some next =>
            r.readLoop (reading buf next.step (line.flatten.take h) next.lengthToRead later))
        (r.reception line.flatten) := by
    intro st later h hlater hrest hhead hlen
    rw [reception_of_head hhead hlen, ← hrest]
    exact readLoop_afterMeta hlater
  obtain ⟨line₁, hflow₁, hrest₁, heq₁⟩ := readLoop_piece (r := r) buf r.start [] hflow hfirst
  rw [heq₁, List.nil_append, List.nil_append]
  by_cases hshort : line.flatten.length < r.firstLength
  · rw [if_pos hshort]
    exact hwait (Nat.lt_of_lt_of_le hshort (Nat.le_add_right _ _))
  rw [if_neg hshort]
  cases hs : r.start with
  | stepData => exact absurd hs hstart
  | stepMeta =>
      have hhead : r.headLength line.flatten = r.firstLength := by
        simp [headLength, middleLength, hs]
      exact hmeta hflow₁ hrest₁ hhead (by omega)
  | stepFunction =>
      have hhead : r.headLength line.flatten =
          r.firstLength + r.metaLength (line.flatten.take r.firstLength) := by
        simp [headLength, middleLength, hs]
      dsimp only [advance]
      by_cases hm : r.metaLength (line.flatten.take r.firstLength) = 0
      · rw [if_neg (not_not.2 hm)]
        exact hmeta hflow₁ hrest₁ (by rw [hhead, hm, Nat.add_zero]) (by omega)
      · rw [if_pos hm]
        obtain ⟨line₂, hflow₂, hrest₂, heq₂⟩ := readLoop_piece (r := r) buf
          .stepMeta (line.flatten.take r.firstLength) hflow₁ (Nat.pos_of_ne_zero hm)
        dsimp only
        rw [heq₂, hrest₁, List.length_drop, List.take_append_drop, ← List.take_add]
        rw [hrest₁, List.drop_drop] at hrest₂
        by_cases h2 : line.flatten.length - r.firstLength <
            r.metaLength (line.flatten.take r.firstLength)
        · rw [if_pos h2]
          exact hwait (by omega)
        · rw [if_neg h2]
          exact hmeta hflow₂ hrest₂ hhead (by omega)

/-! ### The end of the buffer -/

/-- The turns of a call. -/
def Turns (r : FrameRule) : Reading → Reading → Prop :=
  Relation.ReflTransGen fun s s' => r.turn s = (s', none)

/-- The piece being read ends inside the buffer. -/
def RoomOk (r : FrameRule) (s : Reading) : Prop :=
  s.step ≠ .stepFunction ∧ s.msgLength + s.lengthToRead ≤ r.maxAduLength

/-- The `_STEP_META` case tests the length before it asks for more. -/
theorem advance_room {next : RecvState} (hstep : step ≠ .stepFunction)
    (hroom : msg.length ≤ r.maxAduLength) (h : r.advance step msg = some next) :
    next.step ≠ .stepFunction ∧ msg.length + next.lengthToRead ≤ r.maxAduLength := by
  cases step with
  | stepFunction => exact absurd rfl hstep
  | stepData =>
      obtain rfl := Option.some.inj h
      exact ⟨hstep, hroom⟩
  | stepMeta =>
      rw [advance, afterMeta] at h
      split at h
      · cases h
      · rename_i hmax
        obtain rfl := Option.some.inj h
        exact ⟨Step.noConfusion, by simpa using hmax⟩

theorem RoomOk.turn {s s' : Reading} (hok : r.RoomOk s) (h : r.turn s = (s', none)) :
    r.RoomOk s' := by
  obtain ⟨hz, hl⟩ := reads_of_turn h
  obtain ⟨step, buf, n, k, line⟩ := s
  obtain ⟨hstep, hroom⟩ := hok
  cases line with
  | nil => exact absurd rfl hl
  | cons piece later =>
      dsimp only at hz hstep hroom
      have hbytes : (piece.take k).length ≤ k := by
        rw [List.length_take]
        exact Nat.min_le_left _ _
      unfold FrameRule.turn at h
      dsimp only at h
      rw [if_neg hz] at h
      split at h
      · cases h
      split at h
      · -- the piece is complete
        split at h
        · cases h
        · rename_i next hadv
          obtain ⟨rfl, -⟩ := Prod.mk.inj h
          have hlen : (bytesOf (putBytes buf n (piece.take k)) (n + (piece.take k).length)).length =
              n + (piece.take k).length := by
            simp [bytesOf]
          have hnext := advance_room hstep (by omega) hadv
          rw [hlen] at hnext
          exact hnext
      · obtain ⟨rfl, -⟩ := Prod.mk.inj h
        exact ⟨hstep, by dsimp only; omega⟩

/-- What a turn writes ends inside the buffer. -/
theorem RoomOk.turn_buf {s : Reading} (hok : r.RoomOk s) {i : Nat} (hi : r.maxAduLength ≤ i) :
    (r.turn s).1.buf i = s.buf i := by
  obtain ⟨step, buf, n, k, line⟩ := s
  have hroom : n + k ≤ r.maxAduLength := hok.2
  cases line with
  | nil => by_cases hz : k = 0 <;> simp [FrameRule.turn, hz]
  | cons piece later =>
      have hput : putBytes buf n (piece.take k) i = buf i := by
        refine if_neg fun h => ?_
        have := List.length_take_le k piece
        omega
      unfold FrameRule.turn
      dsimp only
      by_cases hz : k = 0
      · rw [if_pos hz]
      by_cases hb : piece.take k = []
      · rw [if_neg hz, if_pos hb]
      rw [if_neg hz, if_neg hb]
      split
      · split <;> exact hput
      · exact hput

theorem RoomOk.readLoop_buf {s : Reading} (hok : r.RoomOk s) {i : Nat} (hi : r.maxAduLength ≤ i) :
    (r.readLoop s).1.buf i = s.buf i := by
  induction s using readLoop.induct r with
  | case1 s s' e h =>
      rw [readLoop_of_some h, ← hok.turn_buf hi, h]
  | case2 s s' h ih =>
      rw [readLoop_of_none h, ih (hok.turn h), ← hok.turn_buf hi, h]

/-- **No read passes the end of the buffer**, whatever the length field says. -/
theorem RoomOk.turns {s s' : Reading} (hok : r.RoomOk s) (h : r.Turns s s') : r.RoomOk s' := by
  induction h with
  | refl => exact hok
  | tail _ hturn ih => exact ih.turn hturn

end FrameRule

/-! ### A call -/

/-- What a receive function returns, if it returns. -/
inductive RecvResult where
  | length (n : Nat)
  | minusOne
  /-- Still in `select`. -/
  | waiting
  deriving DecidableEq, Repr

/-- What the caller can see of a call. -/
structure RecvCall where
  result : RecvResult
  consumed : Nat
  buf : Nat → UInt8
  line : List (List UInt8)

/-- The caller sees the same of both. -/
structure RecvCall.Same (c c' : RecvCall) : Prop where
  result : c.result = c'.result
  consumed : c.consumed = c'.consumed
  buf : c.buf = c'.buf

/-- A receive function: the loop, and `check_integrity` on what it has received. -/
def receiveCall (r : FrameRule) (integrity : List UInt8 → Bool) (buf : Nat → UInt8)
    (line : List (List UInt8)) : RecvCall :=
  let run := r.readLoop (reading buf r.start [] r.firstLength line)
  { result :=
      match run.2 with
      | .received =>
        if integrity (bytesOf run.1.buf run.1.msgLength) then .length run.1.msgLength else .minusOne
      | .tooManyData | .connReset => .minusOne
      | .waiting => .waiting
    consumed := line.flatten.length - run.1.line.flatten.length
    buf := run.1.buf
    line := run.1.line }

/-- What a call returns, by what it makes of the stream. -/
def Reception.result (integrity : List UInt8 → Bool) (x : Reception) : RecvResult :=
  match x.ending with
  | .received => if integrity x.bytes then .length x.bytes.length else .minusOne
  | .tooManyData | .connReset => .minusOne
  | .waiting => .waiting

/-- What a call makes of the stream is all of it: bytes in the buffer, and a rest. -/
theorem FrameRule.reception_append (r : FrameRule) (stream : List UInt8) :
    (r.reception stream).bytes ++ (r.reception stream).rest = stream := by
  unfold FrameRule.reception
  split_ifs <;> simp

section Call

variable {r : FrameRule} {integrity : List UInt8 → Bool} {buf : Nat → UInt8}
  {line : List (List UInt8)}

/-- **A call on a line is a call on its bytes.** -/
theorem receiveCall_eq (integrity : List UInt8 → Bool) (buf : Nat → UInt8)
    (hfirst : 0 < r.firstLength) (hstart : r.start ≠ .stepData) (hflow : Flowing line) :
    ∃ later, Flowing later ∧ later.flatten = (r.reception line.flatten).rest ∧
      receiveCall r integrity buf line =
        { result := (r.reception line.flatten).result integrity
          consumed := (r.reception line.flatten).bytes.length
          buf := putBytes buf 0 (r.reception line.flatten).bytes
          line := later } := by
  obtain ⟨step, k, later, hlater, hrest, hrun⟩ :=
    FrameRule.readLoop_eq_reception buf hfirst hstart hflow
  have hlen := congrArg List.length (r.reception_append line.flatten)
  rw [List.length_append] at hlen
  refine ⟨later, hlater, hrest, ?_⟩
  have hconsumed : line.flatten.length - later.flatten.length =
      (r.reception line.flatten).bytes.length := by
    rw [hrest]
    omega
  simp only [receiveCall, hrun]
  simp only [reading, bytesOf_putBytes, Reception.result, hconsumed]

/-- Two ways the same bytes arrive. -/
theorem receiveCall_split {line' : List (List UInt8)} (hfirst : 0 < r.firstLength)
    (hstart : r.start ≠ .stepData) (hflow : Flowing line) (hflow' : Flowing line')
    (hsame : line.flatten = line'.flatten) :
    (receiveCall r integrity buf line).Same (receiveCall r integrity buf line') := by
  obtain ⟨_, -, -, heq⟩ := receiveCall_eq integrity buf hfirst hstart hflow
  obtain ⟨_, -, -, heq'⟩ := receiveCall_eq integrity buf hfirst hstart hflow'
  rw [heq, heq', hsame]
  exact ⟨rfl, rfl, rfl⟩

/-- The first read of a rule that starts with its head ends inside the buffer. -/
theorem roomOk_start (hstep : r.start ≠ .stepFunction) (hle : r.firstLength ≤ r.maxAduLength) :
    r.RoomOk (reading buf r.start [] r.firstLength line) :=
  ⟨hstep, by simpa [reading] using hle⟩

/-- A call leaves what lies behind the end of its buffer. -/
theorem receiveCall_buf (hstep : r.start ≠ .stepFunction) (hle : r.firstLength ≤ r.maxAduLength)
    {i : Nat} (hi : r.maxAduLength ≤ i) : (receiveCall r integrity buf line).buf i = buf i := by
  have hok : r.RoomOk (reading buf r.start [] r.firstLength line) := roomOk_start hstep hle
  simpa [receiveCall, reading] using hok.readLoop_buf hi

/-- A call that returns has taken something off the line. -/
theorem receiveCall_lt (hfirst : 0 < r.firstLength)
    (hend : (receiveCall r integrity buf line).result ≠ .waiting) :
    lineSize (receiveCall r integrity buf line).line < lineSize line := by
  refine FrameRule.readLoop_lt (Nat.ne_of_gt hfirst) fun h => hend ?_
  simp only [receiveCall, h]

end Call

end RtuA118
