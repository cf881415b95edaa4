import RtuA118.Zigbee.Setup

/-!
# RtuA118.Zigbee.AtOrder

What `set_at_order` makes of the module's answers.

The reply buffer and its two counters are set before the first attempt only. So the first
attempt reads up to three times, every later one once, and all of them fill the one buffer:
the call succeeds when the first three bytes that ever come are `"OK\r"`, in whichever
attempts they came (`setAtLoop_run`).
-/

namespace RtuA118

/-- The answer that acknowledges an order. -/
def okReply : List UInt8 := ascii "OK\r"

section AtOrder

variable (x : XbeeModule)

/-- What the module sends while `n` reads from `r` on look for it. -/
def XbeeModule.sent (r n : Nat) : List UInt8 := (List.range' r n).flatMap x.answer

/-- One attempt: the order written, and the reads after it. -/
def AtCall.attempt (order : List UInt8) (c : AtCall) : AtCall :=
  readReply x 3 { c with port := c.port.write order }

/-- The answers to the attempts of the outer loop, each of them all that the module sent
from the order on until the next one. -/
def loopAnswers (order : List UInt8) : Nat → Nat → AtCall → List (List UInt8)
  | 0, _, _ => []
  | n + 1, resend, c =>
    let c' := c.attempt x order
    x.sent c.port.reads (c'.port.reads - c.port.reads) ::
      if resend + 1 < resendNum ∧ ¬ c'.Acked then loopAnswers order n (resend + 1) c' else []

/-- The answers to the attempts of a call. -/
def atAnswers (order : List UInt8) (p : TtyPort) : List (List UInt8) :=
  if order.length ≤ 0 then [] else loopAnswers x order resendNum 0 ⟨p, [], 0⟩

/-- The call succeeds where one of its attempts, ten at most, is answered by `"OK\r"`, and the
order is not written again after it. -/
structure AtAcknowledged (order : List UInt8) (p : TtyPort) : Prop where
  success : (setAtOrder x order p).1 = 1 ↔ okReply ∈ atAnswers x order p
  stops : ∀ k, (atAnswers x order p)[k]? = some okReply →
    (setAtOrder x order p).2.port.written = p.written ++ List.replicate (k + 1) order
  bounded : (atAnswers x order p).length ≤ resendNum

/-! ### The windows of the attempts -/

/-- How many reads from `r` on the first attempt makes. -/
def firstReads (r : Nat) : Nat :=
  if 3 ≤ (x.sent r 1).length then 1 else if 3 ≤ (x.sent r 2).length then 2 else 3

/-- The bytes that come in attempt `k` of a call whose first read is `r`. -/
def window (r : Nat) : Nat → List UInt8
  | 0 => x.sent r (firstReads x r)
  | k + 1 => x.answer (r + firstReads x r + k)

/-- The bytes of the first `k` attempts. -/
def heard (r k : Nat) : List UInt8 := (List.range k).flatMap (window x r)

/-- The first attempt of nine in which anything comes is answered by `"OK\r"`; or none is, and
neither do the first three bytes of the first nine make one up. -/
def AnswersApart (r : Nat) : Prop :=
  (∃ n < 9, (∀ k < n, window x r k = []) ∧ window x r n = okReply) ∨
    ((∀ k < 10, window x r k ≠ okReply) ∧ (heard x r 9).take 3 ≠ okReply)

end AtOrder

section Run

variable {x : XbeeModule} {order : List UInt8} {c : AtCall} {r k : Nat} {t : List UInt8}

theorem XbeeModule.sent_succ (x : XbeeModule) (r n : Nat) :
    x.sent r (n + 1) = x.sent r n ++ x.answer (r + n) := by
  simp [XbeeModule.sent, List.range'_concat]

theorem heard_succ (x : XbeeModule) (r k : Nat) :
    heard x r (k + 1) = heard x r k ++ window x r k := by
  simp [heard, List.range_succ]

/-- The buffer holds the first three bytes of what was sent. -/
theorem AtCall.read_reply (h : c.reply = t.take 3) :
    (c.read x).reply = (t ++ x.answer c.port.reads).take 3 := by
  have hlen : 3 - c.reply.length = 3 - t.length := by
    rw [h, List.length_take]
    omega
  rw [AtCall.read, hlen, h, List.take_append]

theorem acked_iff (h : c.reply.length ≤ 3) : c.Acked ↔ c.reply = okReply := by
  obtain ⟨port, reply, readCnt⟩ := c
  match reply, h with
  | [], _ => simp [AtCall.Acked, okReply, ascii]
  | [a], _ => simp [AtCall.Acked, okReply, ascii]
  | [a, b], _ => simp [AtCall.Acked, okReply, ascii]
  | [a, b, d], _ => simp [AtCall.Acked, okReply, ascii, and_assoc]

/-- The first read of attempt `k`. -/
def firstRead (x : XbeeModule) (r : Nat) : Nat → Nat
  | 0 => r
  | k + 1 => r + firstReads x r + k

theorem window_eq (x : XbeeModule) (r k : Nat) :
    window x r k = x.sent (firstRead x r k) (firstRead x r (k + 1) - firstRead x r k) := by
  cases k with
  | zero => simp [window, firstRead]
  | succ k =>
      have hone : r + firstReads x r + (k + 1) - (r + firstReads x r + k) = 1 := by omega
      simp [window, firstRead, hone, XbeeModule.sent]

/-- The variables after `k` attempts: from the first one on the inner loop has nothing to wait
for, and none of its two counters goes back. -/
structure AfterAttempts (x : XbeeModule) (r k : Nat) (c : AtCall) : Prop where
  reads : c.port.reads = firstRead x r k
  reply : c.reply = (heard x r k).take 3
  fresh : k = 0 → c.readCnt = 0
  spent : k ≠ 0 → ¬ (c.reply.length < 3 ∧ c.readCnt < 3)

theorem AfterAttempts.reply_length (h : AfterAttempts x r k c) : c.reply.length ≤ 3 := by
  rw [h.reply]
  exact List.length_take_le 3 _

theorem AfterAttempts.acked_iff (h : AfterAttempts x r k c) :
    c.Acked ↔ (heard x r k).take 3 = okReply := by
  rw [RtuA118.acked_iff h.reply_length, h.reply]

theorem readReply_succ (x : XbeeModule) (n : Nat) (c : AtCall) :
    readReply x (n + 1) c =
      if (c.read x).reply.length < 3 ∧ (c.read x).readCnt < 3 then readReply x n (c.read x)
      else c.read x := rfl

/-- What `n` reads of the first attempt leave. -/
structure AfterReads (x : XbeeModule) (r n : Nat) (c : AtCall) : Prop where
  reads : c.port.reads = r + n
  reply : c.reply = (x.sent r n).take 3
  readCnt : c.readCnt = n

theorem AfterReads.read {n : Nat} (h : AfterReads x r n c) : AfterReads x r (n + 1) (c.read x) where
  reads := by simp [AtCall.read, h.reads, Nat.add_assoc]
  reply := by rw [AtCall.read_reply h.reply, h.reads, XbeeModule.sent_succ]
  readCnt := by simp [AtCall.read, h.readCnt]

theorem AfterReads.full_iff {n : Nat} (h : AfterReads x r n c) :
    (c.reply.length < 3 ∧ c.readCnt < 3) ↔ (x.sent r n).length < 3 ∧ n < 3 := by
  rw [h.reply, h.readCnt, List.length_take]
  omega

/-- The inner loop of the first attempt reads once, twice or three times. -/
theorem AfterReads.readReply (h : AfterReads x r 0 c) :
    AfterReads x r (firstReads x r) (readReply x 3 c) := by
  have h₁ : AfterReads x r 1 (c.read x) := h.read
  have h₂ : AfterReads x r 2 ((c.read x).read x) := h₁.read
  have h₃ : AfterReads x r 3 (((c.read x).read x).read x) := h₂.read
  by_cases one : 3 ≤ (x.sent r 1).length
  · have hfirst : firstReads x r = 1 := if_pos one
    rw [hfirst, readReply_succ, if_neg (by rw [h₁.full_iff]; omega)]
    exact h₁
  · rw [readReply_succ, if_pos (by rw [h₁.full_iff]; omega), readReply_succ]
    by_cases two : 3 ≤ (x.sent r 2).length
    · have hfirst : firstReads x r = 2 := (if_neg one).trans (if_pos two)
      rw [hfirst, if_neg (by rw [h₂.full_iff]; omega)]
      exact h₂
    · have hfirst : firstReads x r = 3 := (if_neg one).trans (if_neg two)
      rw [hfirst, if_pos (by rw [h₂.full_iff]; omega), readReply_succ,
        if_neg (by rw [h₃.full_iff]; omega)]
      exact h₃

theorem length_sent_firstReads (x : XbeeModule) (r : Nat) :
    ¬ ((x.sent r (firstReads x r)).length < 3 ∧ firstReads x r < 3) := by
  rw [firstReads]
  split
  · omega
  · split <;> omega

/-- A later attempt reads once: it finds the buffer full, or the reads used up. -/
theorem readReply_spent (h : ¬ (c.reply.length < 3 ∧ c.readCnt < 3)) :
    readReply x 3 c = c.read x := by
  have hlen : c.reply.length ≤ (c.read x).reply.length := by simp [AtCall.read]
  have hcnt : (c.read x).readCnt = c.readCnt + 1 := rfl
  rw [readReply_succ, if_neg (by omega)]

/-- **One attempt.** -/
theorem AfterAttempts.attempt (h : AfterAttempts x r k c) (order : List UInt8) :
    AfterAttempts x r (k + 1) (c.attempt x order) := by
  -- the first attempt fills the buffer, each later one reads once behind what is in it
  cases k with
  | zero =>
      have hnil : c.reply = [] := by simp [h.reply, heard]
      have hstart : AfterReads x r 0 { c with port := c.port.write order } :=
        ⟨h.reads, by simp [hnil, XbeeModule.sent], h.fresh rfl⟩
      have hread := hstart.readReply
      have hheard : heard x r 1 = x.sent r (firstReads x r) := by
        simp [heard, window]
      refine ⟨hread.reads, ?_, by simp, fun _ => ?_⟩
      · rw [hheard]
        exact hread.reply
      · exact (not_congr hread.full_iff).2 (length_sent_firstReads x r)
  | succ k =>
      have hspent := h.spent (by simp)
      have hread : c.attempt x order = AtCall.read x { c with port := c.port.write order } :=
        readReply_spent hspent
      have hwindow : window x r (k + 1) = x.answer c.port.reads := by
        rw [h.reads]
        rfl
      refine ⟨?_, ?_, by simp, fun _ => ?_⟩
      · rw [hread, AtCall.read]
        simp only [TtyPort.write, h.reads, firstRead]
        omega
      · have hbuffer : ({ c with port := c.port.write order } : AtCall).reply =
            (heard x r (k + 1)).take 3 := h.reply
        rw [hread, AtCall.read_reply hbuffer, heard_succ x r (k + 1), hwindow]
        rfl
      · rw [hread, AtCall.read]
        simp only [List.length_append]
        omega

theorem readReply_written (x : XbeeModule) :
    ∀ (n : Nat) (c : AtCall), (readReply x n c).port.written = c.port.written := by
  intro n
  induction n with
  | zero => exact fun c => rfl
  | succ n ih =>
      intro c
      rw [readReply_succ]
      split
      · exact ih _
      · rfl

theorem AtCall.attempt_written (x : XbeeModule) (order : List UInt8) (c : AtCall) :
    (c.attempt x order).port.written = c.port.written ++ [order] :=
  readReply_written x 3 _

theorem afterAttempts_start (x : XbeeModule) (p : TtyPort) : AfterAttempts x p.reads 0 ⟨p, [], 0⟩ :=
  ⟨rfl, by simp [heard], fun _ => rfl, by simp⟩

/-! ### The run of the outer loop -/

/-- The outer loop makes `n` attempts: the first `n`, ten at most, after which the buffer holds
`"OK\r"`. -/
structure Attempts (x : XbeeModule) (r n : Nat) : Prop where
  bounded : n ≤ resendNum
  before : ∀ k, 0 < k → k < n → (heard x r k).take 3 ≠ okReply
  acked : n < resendNum → (heard x r n).take 3 = okReply

/-- **The outer loop**, from its `k`-th attempt on. -/
theorem setAtLoop_run (order : List UInt8) :
    ∀ (m k : Nat) (c : AtCall), k + (m + 1) = resendNum → AfterAttempts x r k c →
      (∀ j, 0 < j → j ≤ k → (heard x r j).take 3 ≠ okReply) →
      ∃ n c', k < n ∧ Attempts x r n ∧ setAtLoop x order (m + 1) k c = (n, c') ∧
        AfterAttempts x r n c' ∧
        c'.port.written = c.port.written ++ List.replicate (n - k) order ∧
        loopAnswers x order (m + 1) k c = (List.range' k (n - k)).map (window x r) := by
  intro m
  induction m with
  | zero =>
      intro k c hk h hbefore
      have hnext := h.attempt order
      have hlast : ¬ (k + 1 < resendNum ∧ ¬ (c.attempt x order).Acked) := by omega
      refine ⟨k + 1, c.attempt x order, by omega, ⟨by omega, ?_, by omega⟩, ?_, hnext, ?_, ?_⟩
      · exact fun j hj hjk => hbefore j hj (by omega)
      · exact if_neg hlast
      · simp [AtCall.attempt_written]
      · have hsent : x.sent c.port.reads ((c.attempt x order).port.reads - c.port.reads) =
            window x r k := by
          rw [window_eq, h.reads, hnext.reads]
        simp only [loopAnswers, if_neg hlast, hsent]
        simp
  | succ m ih =>
      intro k c hk h hbefore
      have hnext := h.attempt order
      have hsent : x.sent c.port.reads ((c.attempt x order).port.reads - c.port.reads) =
          window x r k := by
        rw [window_eq, h.reads, hnext.reads]
      have hmore : k + 1 < resendNum := by omega
      rw [loopAnswers, setAtLoop]
      -- the loop ends at the first acknowledged attempt
      by_cases hacked : (c.attempt x order).Acked
      · have hlast : ¬ (k + 1 < resendNum ∧ ¬ (c.attempt x order).Acked) := fun h => h.2 hacked
        refine ⟨k + 1, c.attempt x order, by omega, ⟨by omega, ?_, ?_⟩, if_neg hlast, hnext, ?_, ?_⟩
        · exact fun j hj hjk => hbefore j hj (by omega)
        · exact fun _ => hnext.acked_iff.1 hacked
        · simp [AtCall.attempt_written]
        · simp only [if_neg hlast, hsent]
          simp
      · have hgoes : k + 1 < resendNum ∧ ¬ (c.attempt x order).Acked := ⟨hmore, hacked⟩
        obtain ⟨n, c', hkn, hn, hrun, hafter, hwritten, hanswers⟩ := ih (k + 1) _ (by omega) hnext
          fun j hj hjk => by
            rcases Nat.lt_or_ge k j with hlt | hge
            · obtain rfl : j = k + 1 := by omega
              exact mt hnext.acked_iff.2 hacked
            · exact hbefore j hj hge
        have hcount : n - k = n - (k + 1) + 1 := by omega
        refine ⟨n, c', by omega, hn, (if_pos hgoes).trans hrun, hafter, ?_, ?_⟩
        · rw [hwritten, AtCall.attempt_written, hcount, List.replicate_succ, List.append_assoc]
          rfl
        · simp only [if_pos hgoes, hsent, hanswers]
          rw [hcount, List.range'_succ, List.map_cons]

theorem setAtOrder_run (x : XbeeModule) (order : List UInt8) (p : TtyPort) (h : order ≠ []) :
    ∃ n, Attempts x p.reads n ∧
      ((setAtOrder x order p).1 = 1 ↔ n < resendNum) ∧
      (setAtOrder x order p).2.port.written = p.written ++ List.replicate n order ∧
      atAnswers x order p = (List.range n).map (window x p.reads) := by
  have hlen : ¬ order.length ≤ 0 := by
    have := List.length_pos_iff.2 h
    omega
  obtain ⟨n, c, -, hn, hrun, hafter, hwritten, hanswers⟩ := setAtLoop_run order 9 0 ⟨p, [], 0⟩ rfl
    (afterAttempts_start x p) fun j hj hjk => absurd hj (by omega)
  have hc : (setAtOrder x order p).2 = c := by
    rw [setAtOrder, if_neg hlen, show resendNum = 9 + 1 from rfl, hrun]
    dsimp only
    split <;> rfl
  refine ⟨n, hn, ?_, hc ▸ hwritten, ?_⟩
  · have hrc : (setAtOrder x order p).1 =
        if n ≥ resendNum ∨ ¬ c.Acked then UInt8.ofInt (-1) else 1 := by
      rw [setAtOrder, if_neg hlen, show resendNum = 9 + 1 from rfl, hrun]
      dsimp only
      split <;> rfl
    rw [hrc]
    constructor
    · intro h
      by_contra hend
      rw [if_pos (.inl (Nat.not_lt.1 hend))] at h
      exact absurd h (by decide)
    · intro hend
      have hacked := hafter.acked_iff.2 (hn.acked hend)
      exact if_neg (not_or.2 ⟨Nat.not_le.2 hend, not_not.2 hacked⟩)
  · rw [atAnswers, if_neg hlen, show resendNum = 9 + 1 from rfl, hanswers, List.range_eq_range']
    rfl

/-! ### The answers -/

theorem heard_eq_nil {n : Nat} : heard x r n = [] ↔ ∀ k < n, window x r k = [] := by
  simp [heard]

theorem heard_add (x : XbeeModule) (r n m : Nat) : ∃ t, heard x r (n + m) = heard x r n ++ t := by
  induction m with
  | zero => exact ⟨[], by simp⟩
  | succ m ih =>
      obtain ⟨t, ht⟩ := ih
      exact ⟨t ++ window x r (n + m), by rw [← Nat.add_assoc, heard_succ, ht, List.append_assoc]⟩

/-- What the buffer holds once `"OK\r"` is in it stays. -/
theorem heard_take_of_le {n m : Nat} (hle : n ≤ m) (h : (heard x r n).take 3 = okReply) :
    (heard x r m).take 3 = okReply := by
  obtain ⟨t, ht⟩ := heard_add x r n (m - n)
  have hlen : 3 ≤ (heard x r n).length := by
    have := congrArg List.length h
    simp only [List.length_take, okReply, ascii, List.length_map] at this
    have htwo : ("OK\r".toList).length = 3 := rfl
    omega
  rw [show m = n + (m - n) by omega, ht, List.take_append_of_le_length hlen]
  exact h

/-- `"OK\r"` behind something else shows only where this something is `"OK\r"` itself. -/
theorem take_append_okReply {t : List UInt8} (h : (t ++ okReply).take 3 = okReply) :
    t = [] ∨ t.take 3 = okReply := by
  match t with
  | [] => exact .inl rfl
  | [a] => exact absurd h (by simp [okReply, ascii])
  | [a, b] => exact absurd h (by simp [okReply, ascii])
  | a :: b :: d :: t => exact .inr (by simpa using h)

theorem nil_take_ne : ([] : List UInt8).take 3 ≠ okReply := by decide

theorem setAtOrder_nil (x : XbeeModule) (p : TtyPort) : AtAcknowledged x [] p where
  success := ⟨fun h => absurd (show UInt8.ofInt (-1) = 1 from h) (by decide), by simp [atAnswers]⟩
  stops k h := absurd h (by simp [atAnswers])
  bounded := by simp [atAnswers]

/-- With the number of attempts known, the call is judged by the answers to them. -/
theorem atAcknowledged_iff_of_attempts {p : TtyPort} {n : Nat}
    (hrc : (setAtOrder x order p).1 = 1 ↔ n < resendNum)
    (hwritten : (setAtOrder x order p).2.port.written = p.written ++ List.replicate n order)
    (hanswers : atAnswers x order p = (List.range n).map (window x p.reads))
    (hn : n ≤ resendNum) :
    AtAcknowledged x order p ↔
      (n < resendNum ↔ ∃ k < n, window x p.reads k = okReply) ∧
        ∀ k < n, window x p.reads k = okReply → k + 1 = n := by
  have hmem : okReply ∈ atAnswers x order p ↔ ∃ k < n, window x p.reads k = okReply := by
    simp [hanswers]
  have hget (k : Nat) : (atAnswers x order p)[k]? = some okReply ↔
      k < n ∧ window x p.reads k = okReply := by
    simp [hanswers, List.getElem?_eq_some_iff]
  have hstop (k : Nat) : p.written ++ List.replicate n order =
      p.written ++ List.replicate (k + 1) order ↔ k + 1 = n := by
    rw [List.append_cancel_left_eq]
    exact ⟨fun h => by simpa using (congrArg List.length h).symm, fun h => by rw [h]⟩
  constructor
  · intro ⟨success, stops, _⟩
    refine ⟨(hrc.symm.trans success).trans hmem, fun k hk hok => ?_⟩
    rw [← hstop k, ← hwritten]
    exact stops k ((hget k).2 ⟨hk, hok⟩)
  · intro ⟨success, stops⟩
    refine ⟨(hrc.trans success).trans hmem.symm, fun k hk => ?_, by simp [hanswers, hn]⟩
    obtain ⟨hkn, hok⟩ := (hget k).1 hk
    rw [hwritten, hstop k]
    exact stops k hkn hok

/-- Where nothing came before it, an answer `"OK\r"` ends the call. -/
theorem Attempts.of_first {n m : Nat} (h : Attempts x r n) (hm : m < 9)
    (hnil : ∀ k < m, window x r k = []) (hok : window x r m = okReply) : n = m + 1 := by
  have hheard : heard x r (m + 1) = okReply := by
    rw [heard_succ, heard_eq_nil.2 hnil, hok, List.nil_append]
  have hle : n ≤ m + 1 := by
    by_contra hlt
    refine h.before (m + 1) (by omega) (by omega) ?_
    rw [hheard]
    decide
  have hge : m < n := by
    by_contra hlt
    have hnone : heard x r n = [] := heard_eq_nil.2 fun k hk => hnil k (by omega)
    have hacked := h.acked (Nat.lt_of_le_of_lt hle (by unfold resendNum; omega))
    rw [hnone] at hacked
    exact nil_take_ne hacked
  omega

/-- The attempt at which the call stops is the first in which anything came, if it is the one
answered by `"OK\r"`. -/
theorem Attempts.nil_before {k : Nat} (h : Attempts x r (k + 1)) (hlt : k + 1 < resendNum)
    (hok : window x r k = okReply) : ∀ j < k, window x r j = [] := by
  have hacked := h.acked hlt
  rw [heard_succ, hok] at hacked
  rcases take_append_okReply hacked with hnil | hbefore
  · exact heard_eq_nil.1 hnil
  · rcases Nat.eq_zero_or_pos k with rfl | hpos
    · exact fun j hj => absurd hj (by omega)
    · exact absurd hbefore (h.before k hpos (by omega))

end Run

/-- **The acknowledgement of an order.** The bytes of an attempt that was not acknowledged stay
in the buffer, in front of the answers to all later ones; and an acknowledgement of the tenth
attempt comes too late. -/
theorem setAtOrder_acknowledged_iff (x : XbeeModule) (order : List UInt8) (p : TtyPort) :
    AtAcknowledged x order p ↔ order = [] ∨ AnswersApart x p.reads := by
  by_cases horder : order = []
  · subst horder
    exact iff_of_true (setAtOrder_nil x p) (.inl rfl)
  obtain ⟨n, hn, hrc, hwritten, hanswers⟩ := setAtOrder_run x order p horder
  rw [atAcknowledged_iff_of_attempts hrc hwritten hanswers hn.bounded, or_iff_right horder]
  have hten : resendNum = 10 := rfl
  constructor
  · intro ⟨success, stops⟩
    by_cases hlt : n < resendNum
    · obtain ⟨k, hkn, hok⟩ := success.1 hlt
      obtain rfl := stops k hkn hok
      exact .inl ⟨k, by omega, hn.nil_before hlt hok, hok⟩
    · obtain rfl : n = 10 := by
        have := hn.bounded
        omega
      exact .inr ⟨fun k hk hok => hlt (success.2 ⟨k, hk, hok⟩), hn.before 9 (by omega) (by omega)⟩
  · rintro (⟨m, hm, hnil, hok⟩ | ⟨hnone, hnine⟩)
    · obtain rfl := hn.of_first hm hnil hok
      refine ⟨iff_of_true (by omega) ⟨m, by omega, hok⟩, fun k hk hkok => ?_⟩
      rcases Nat.lt_or_ge k m with hlt | hge
      · exact absurd (hnil k hlt ▸ hkok) (by decide)
      · omega
    · have hlate : ¬ n < resendNum := by
        intro hlt
        exact hnine (heard_take_of_le (by omega) (hn.acked hlt))
      have hle := hn.bounded
      exact ⟨iff_of_false hlate fun ⟨k, hk, hok⟩ => hnone k (by omega) hok,
        fun k hk hok => absurd hok (hnone k (by omega))⟩

/-- A module that answers the first attempt with an error, the second as it should. -/
def lateModule : XbeeModule where
  answer n := if n = 0 then ascii "ERR" else if n = 1 then okReply else []
  reply _ := none

/-- It gets its order ten times, and the call fails. -/
theorem not_atAcknowledged :
    ¬ ∀ (x : XbeeModule) (order : List UInt8) (p : TtyPort), AtAcknowledged x order p := by
  intro h
  have hok : okReply ∈ atAnswers lateModule (ascii "ATCE 1\r") ⟨[], 0, 0⟩ := by decide
  have hrc : (setAtOrder lateModule (ascii "ATCE 1\r") ⟨[], 0, 0⟩).1 ≠ 1 := by decide
  exact hrc ((h _ _ _).success.2 hok)

end RtuA118
