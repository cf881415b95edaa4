import Mathlib.Algebra.Ring.Nat
import Mathlib.Data.List.GetD
import RtuA118.Common

/-!
# RtuA118.Log

`log_printf`: **the ring of log messages** in a mapped file of 1 MiB.

The length that is copied is the sum of what `sprintf` and `vsnprintf` return. `vsnprintf` returns
the length that the whole message would have, also when it has cut it, so a long message makes
`memcpy` read past the end of `log_t.buf`, and a very long one write past the end of the file.
-/

namespace RtuA118

/-- `RTU_LOG_MAX_BUF_SIZE` and `RTU_LOG_MAX_FILE_SIZE`. -/
def rtuLogMaxBufSize : Nat := 1024
def rtuLogMaxFileSize : Nat := 1024 * 1024

/-- The sum of two `int`s. -/
def intAdd (x y : Int) : Int := (x + y).bmod (2 ^ 32)

theorem intAdd_of_lt {x y : Int} (hlo : -2147483648 ≤ x + y) (hhi : x + y < 2147483648) :
    intAdd x y = x + y :=
  Int.bmod_eq_of_le (by omega) (by omega)

theorem intAdd_of_le {x y : Int} (hlo : 2147483648 ≤ x + y) (hhi : x + y < 4294967296) :
    intAdd x y = x + y - 4294967296 :=
  calc
    (x + y).bmod (2 ^ 32) = (x + y - (2 ^ 32 : Nat)).bmod (2 ^ 32) := (Int.sub_bmod_right _ _).symm
    _ = x + y - 4294967296 := Int.bmod_eq_of_le (by omega) (by omega)

/-- `log_t`: what memory holds from `buf` on, and the mapping, if there is one. -/
structure LogT where
  buf : Nat → UInt8
  flash : Option (Int → UInt8)
  flen : Int

/-- A call of `log_printf`: the text of `ctime`, and the message that the format and its arguments
make. A longer one than an `int` can count makes `vsnprintf` fail. -/
structure LogCall where
  ctime : List UInt8
  message : List UInt8
  ctime_length : ctime.length = 25
  message_length : message.length < 2147483648

/-- A `memcpy` out of `log_t.buf`: its place in the mapping, and its length. -/
structure LogCopy where
  dst : Int
  len : Nat

/-- A text is written into memory, and a zero after it. -/
def putText (text : List UInt8) (p : Nat) (mem : Nat → UInt8) : Nat → UInt8 :=
  fun a => if p ≤ a ∧ a ≤ p + text.length then text.getD (a - p) 0 else mem a

/-- `vsnprintf(mem + p, n, ..)`, which writes at most `n - 1` characters. -/
def vsnprintf (text : List UInt8) (p n : Nat) (mem : Nat → UInt8) : Nat → UInt8 :=
  putText (text.take (n - 1)) p mem

/-- `memcpy(flash + dst, buf, len)`. -/
def LogCopy.apply (copy : LogCopy) (buf : Nat → UInt8) (flash : Int → UInt8) : Int → UInt8 :=
  fun a => if copy.dst ≤ a ∧ a < copy.dst + copy.len then buf (a - copy.dst).toNat else flash a

/-- What `"@%s "` makes of the time. -/
def LogCall.stamp (call : LogCall) : List UInt8 := 64 :: call.ctime ++ [32]

/-- `rc`: the sum of both lengths, as an `int`. -/
def LogCall.rc (call : LogCall) : Int := intAdd call.stamp.length call.message.length

/-- `log_t.buf` when both texts are in it. -/
def LogCall.fill (call : LogCall) (buf : Nat → UInt8) : Nat → UInt8 :=
  vsnprintf call.message call.stamp.length (rtuLogMaxBufSize - call.stamp.length - 1)
    (putText call.stamp 0 buf)

/-- `log_t.flen` where the message goes: the ring starts again when it does not fit in the rest. -/
def LogT.place (log : LogT) (rc : Int) : Int :=
  if rtuLogMaxFileSize ≤ intAdd log.flen rc then 0 else log.flen

/-- `log_printf`: the ring after it, and what it has copied. -/
def logPrintf (call : LogCall) (log : LogT) : LogT × Option LogCopy :=
  match log.flash with
  | none => (log, none)
  | some flash =>
      let buf := call.fill log.buf
      let rc := call.rc
      if 0 < rc then
        let flen := log.place rc
        let copy := LogCopy.mk flen rc.toNat
        (⟨buf, some (copy.apply buf flash), intAdd flen rc⟩, some copy)
      else
        ({ log with buf }, none)

/-! ### In bounds -/

/-- Every byte is read inside `log_t.buf` and written inside the mapping. -/
def LogCopy.InBounds (copy : LogCopy) : Prop :=
  ∀ i < copy.len, i < rtuLogMaxBufSize ∧ 0 ≤ copy.dst + i ∧ copy.dst + i < rtuLogMaxFileSize

/-- `flen` is in the file. -/
def LogT.InFile (log : LogT) : Prop := 0 ≤ log.flen ∧ log.flen < rtuLogMaxFileSize

/-- A run of calls: each copies in bounds, and leaves `flen` in the file. -/
def StaysInBounds : List LogCall → LogT → Prop
  | [], _ => True
  | call :: calls, log =>
      (∀ copy ∈ (logPrintf call log).2, copy.InBounds) ∧ (logPrintf call log).1.InFile ∧
        StaysInBounds calls (logPrintf call log).1

/-- A call fits when both texts fit in `log_t.buf`, or when their lengths overflow: then the sum
is negative, and nothing is copied. -/
def LogCall.Fits (call : LogCall) : Prop :=
  call.message.length ≤ 997 ∨ 2147483648 ≤ call.message.length + 27

instance (call : LogCall) : Decidable call.Fits :=
  inferInstanceAs (Decidable (_ ∨ _))

section Call

variable {call : LogCall} {log : LogT} {flash : Int → UInt8}

@[simp] theorem LogCall.stamp_length (call : LogCall) : call.stamp.length = 27 := by
  simp [stamp, call.ctime_length]

theorem LogCall.rc_of_lt (h : call.message.length + 27 < 2147483648) :
    call.rc = call.message.length + 27 := by
  rw [rc, stamp_length, intAdd_of_lt (by omega) (by omega)]
  omega

/-- Where the lengths overflow the sum is negative. -/
theorem LogCall.rc_of_le (h : 2147483648 ≤ call.message.length + 27) : call.rc < 0 := by
  have hlt := call.message_length
  rw [rc, stamp_length, intAdd_of_le (by omega) (by omega)]
  omega

theorem logPrintf_unmapped (h : log.flash = none) : logPrintf call log = (log, none) := by
  rw [logPrintf, h]

theorem logPrintf_of_pos (h : log.flash = some flash) (hrc : 0 < call.rc) :
    logPrintf call log =
      (⟨call.fill log.buf, some ((LogCopy.mk (log.place call.rc) call.rc.toNat).apply
          (call.fill log.buf) flash), intAdd (log.place call.rc) call.rc⟩,
        some ⟨log.place call.rc, call.rc.toNat⟩) := by
  simp [logPrintf, h, hrc]

theorem logPrintf_of_neg (h : log.flash = some flash) (hrc : call.rc < 0) :
    logPrintf call log = ({ log with buf := call.fill log.buf }, none) := by
  simp [logPrintf, h, Int.not_lt.2 (Int.le_of_lt hrc)]

/-- A mapped file stays mapped. -/
theorem logPrintf_mapped (h : log.flash.isSome) : (logPrintf call log).1.flash.isSome := by
  obtain ⟨flash, hflash⟩ := Option.isSome_iff_exists.1 h
  simp only [logPrintf, hflash]
  split <;> rfl

/-- A message that fits in the buffer goes to the end of the ring, or to its start where it would
reach the end of the file. -/
theorem LogT.place_of_le (rc : Int) (hlog : log.InFile) (h0 : 0 ≤ rc) (hrc : rc ≤ 1024) :
    log.place rc = if rtuLogMaxFileSize ≤ log.flen + rc then 0 else log.flen := by
  obtain ⟨hlo, hhi⟩ := hlog
  simp only [rtuLogMaxFileSize] at hhi
  rw [place, intAdd_of_lt (by omega) (by omega)]

/-- The place of a copy that fits, and of the next one. -/
theorem LogT.place_bounds (rc : Int) (hlog : log.InFile) (h0 : 0 ≤ rc) (hrc : rc ≤ 1024) :
    0 ≤ log.place rc ∧ log.place rc + rc < rtuLogMaxFileSize := by
  obtain ⟨hlo, hhi⟩ := id hlog
  rw [place_of_le rc hlog h0 hrc]
  rw [rtuLogMaxFileSize] at hhi ⊢
  split <;> omega

/-- **One call** from a place in the file copies in bounds just when it fits. -/
theorem logPrintf_copy_inBounds_iff (hmap : log.flash = some flash) (hlog : log.InFile) :
    (∀ copy ∈ (logPrintf call log).2, copy.InBounds) ↔ call.Fits := by
  by_cases hover : 2147483648 ≤ call.message.length + 27
  · rw [logPrintf_of_neg hmap (LogCall.rc_of_le hover)]
    exact ⟨fun _ => .inr hover, fun _ copy hcopy => absurd hcopy (by simp)⟩
  · have hrc := LogCall.rc_of_lt (Nat.not_le.1 hover)
    rw [logPrintf_of_pos hmap (by omega)]
    constructor
    · intro h
      -- the last byte that is read lies in the buffer
      have hin : LogCopy.InBounds ⟨log.place call.rc, call.rc.toNat⟩ := h _ rfl
      have hlast : call.rc.toNat - 1 < 1024 := (hin _ (by dsimp only; omega)).1
      exact .inl (by omega)
    · intro hfits copy hcopy i hi
      obtain rfl := Option.some.inj hcopy
      have hplace := LogT.place_bounds call.rc hlog (by omega)
        (by rcases hfits with hfits | hfits <;> omega)
      unfold rtuLogMaxBufSize
      rcases hfits with hfits | hfits <;> dsimp only at hi ⊢ <;> omega

/-- **One call** that fits leaves `flen` in the file. -/
theorem logPrintf_inFile (hlog : log.InFile) (hfits : call.Fits) :
    (logPrintf call log).1.InFile := by
  cases hmap : log.flash with
  | none => rwa [logPrintf_unmapped hmap]
  | some flash =>
      by_cases hover : 2147483648 ≤ call.message.length + 27
      · rw [logPrintf_of_neg hmap (LogCall.rc_of_le hover)]
        exact hlog
      · have hrc := LogCall.rc_of_lt (Nat.not_le.1 hover)
        have hlen : call.message.length ≤ 997 := hfits.resolve_right hover
        have hplace := LogT.place_bounds call.rc hlog (by omega) (by omega)
        rw [logPrintf_of_pos hmap (by omega)]
        simp only [LogT.InFile, rtuLogMaxFileSize] at hplace ⊢
        rw [intAdd_of_lt (by omega) (by omega)]
        omega

end Call

/-- **The ring stays in bounds** just when every message fits, or nothing is mapped. -/
theorem staysInBounds_iff {calls : List LogCall} {log : LogT} (hlog : log.InFile) :
    StaysInBounds calls log ↔ log.flash = none ∨ ∀ call ∈ calls, call.Fits := by
  cases hmap : log.flash with
  | none =>
      refine iff_of_true ?_ (.inl rfl)
      induction calls with
      | nil => trivial
      | cons call calls ih =>
          rw [StaysInBounds, logPrintf_unmapped hmap]
          exact ⟨fun copy hcopy => absurd hcopy (by simp), hlog, ih⟩
  | some flash =>
      simp only [reduceCtorEq, false_or]
      induction calls generalizing log flash with
      | nil => simp [StaysInBounds]
      | cons call calls ih =>
          have hmapped : (logPrintf call log).1.flash.isSome :=
            logPrintf_mapped (Option.isSome_iff_exists.2 ⟨flash, hmap⟩)
          obtain ⟨flash', hmap'⟩ := Option.isSome_iff_exists.1 hmapped
          rw [StaysInBounds, List.forall_mem_cons, logPrintf_copy_inBounds_iff hmap hlog]
          refine and_congr_right fun hfits => ?_
          have hnext := logPrintf_inFile hlog hfits
          rw [ih hnext flash' hmap', and_iff_right hnext]

/-! ### What is written -/

section Written

variable {call : LogCall}

/-- Both texts are in the buffer, one after the other. -/
theorem LogCall.fill_apply (hlen : call.message.length ≤ 995) (buf : Nat → UInt8) {k : Nat}
    (hk : k < (call.stamp ++ call.message).length) :
    call.fill buf k = (call.stamp ++ call.message).getD k 0 := by
  have hstamp := call.stamp_length
  have htake : call.message.take 995 = call.message := List.take_of_length_le hlen
  rw [List.length_append, hstamp] at hk
  simp only [fill, vsnprintf, putText, rtuLogMaxBufSize, hstamp, Nat.reduceSub, htake]
  by_cases hmsg : 27 ≤ k
  · rw [if_pos ⟨hmsg, by omega⟩, List.getD_append_right _ _ _ _ (by omega), hstamp]
  · rw [if_neg (by omega), if_pos (by omega), List.getD_append _ _ _ _ (by omega), Nat.sub_zero]

/-- A message that is not cut is in the file after the call, at the place of its copy, and nothing
else of the file changes. -/
theorem logPrintf_text {log : LogT} {flash : Int → UInt8} (hmap : log.flash = some flash)
    (hlen : call.message.length ≤ 995) :
    (logPrintf call log).1.flash = some fun a =>
      let text := call.stamp ++ call.message
      if log.place call.rc ≤ a ∧ a < log.place call.rc + text.length
      then text.getD (a - log.place call.rc).toNat 0 else flash a := by
  have hrc : call.rc = call.message.length + 27 := LogCall.rc_of_lt (by omega)
  have htext : (call.stamp ++ call.message).length = call.rc.toNat := by
    rw [List.length_append, call.stamp_length]
    omega
  rw [logPrintf_of_pos hmap (by omega)]
  refine congrArg some (funext fun a => ?_)
  dsimp only [LogCopy.apply]
  by_cases ha : log.place call.rc ≤ a ∧ a < log.place call.rc + call.rc.toNat
  · rw [if_pos ha, if_pos (by rwa [htext])]
    exact LogCall.fill_apply hlen log.buf (by omega)
  · rw [if_neg ha, if_neg (by rwa [htext])]

end Written

/-! ### A long message -/

/-- A message of `n` letters on the first day of 1970. -/
def letterCall (n : Nat) (h : n < 2147483648) : LogCall where
  ctime := "Thu Jan  1 00:00:00 1970\n".toList.map fun c => UInt8.ofNat c.toNat
  message := List.replicate n 97
  ctime_length := by decide
  message_length := by simpa using h

theorem letterCall_length (n : Nat) (h : n < 2147483648) : (letterCall n h).message.length = n :=
  List.length_replicate

/-- The ring as `log_init` leaves it, in zeroed memory. -/
def emptyLog : LogT := ⟨fun _ => 0, some fun _ => 70, 0⟩

/-- 998 letters make `memcpy` read one byte past the buffer. -/
theorem not_staysInBounds : ¬ ∀ calls : List LogCall, StaysInBounds calls emptyLog := by
  intro h
  have hmap : emptyLog.flash = some fun _ => 70 := rfl
  have hcopy := (h [letterCall 998 (by decide)]).1
  rw [logPrintf_copy_inBounds_iff hmap ⟨by decide, by decide⟩, LogCall.Fits,
    letterCall_length] at hcopy
  omega

/-- 997 letters, twice, stay in it. -/
theorem letters_stay_in_bounds :
    StaysInBounds [letterCall 997 (by decide), letterCall 997 (by decide)] emptyLog := by
  have hfits : (letterCall 997 (by decide)).Fits :=
    .inl (Nat.le_of_eq (letterCall_length 997 _))
  exact (staysInBounds_iff ⟨by decide, by decide⟩).2 (.inr (by simp [hfits]))

end RtuA118
