import RtuA118.Lib.Ring
import RtuA118.Log

/-!
# RtuA118.LogTail

**What the log file tells** of what was logged.

`log_printf` starts the file again when a message does not fit in what is left of it, and says
nowhere in the file where that was. But whoever knows where the next message will go, and where the
last one before the start ended (`lastLap`), reads the end of the whole log from there: everything
since the start of the program, or all but a message's length of a mebibyte (`log_recent`).
-/

namespace RtuA118

/-- The file and `flen` as a ring. -/
def LogT.ring (log : LogT) (flash : Int → UInt8) : Ring UInt8 := ⟨fun i => flash i, log.flen.toNat⟩

/-- What a call has to write: the time, and the message. -/
def LogCall.record (call : LogCall) : List UInt8 := call.stamp ++ call.message

/-- Calls of any threads; the mutex lets in one at a time. -/
def logAll (calls : List LogCall) (log : LogT) : LogT :=
  calls.foldl (fun log call => (logPrintf call log).1) log

/-- Where `flen` stood when a call last went back to the start of the file, if one has. -/
def lastLap : List LogCall → LogT → Nat → Nat
  | [], _, lap => lap
  | call :: calls, log, lap =>
    lastLap calls (logPrintf call log).1
      (if log.place call.rc < log.flen then log.flen.toNat else lap)

/-- The longest message that `vsnprintf` leaves as it is, and its record. -/
def logMaxWhole : Nat := 995
def logMaxRecord : Nat := 1022

section Call

variable {call : LogCall} {log : LogT} {flash : Int → UInt8}

theorem LogCall.length_record (call : LogCall) : call.record.length = call.message.length + 27 := by
  rw [record, List.length_append, call.stamp_length, Nat.add_comm]

theorem LogCall.rc_eq (hlen : call.message.length ≤ logMaxWhole) :
    call.rc = call.record.length := by
  unfold logMaxWhole at hlen
  rw [rc_of_lt (by omega), length_record]
  rfl

/-- The next message goes where the ring puts it. -/
theorem LogT.place_ring (flash : Int → UInt8) (hlog : log.InFile)
    (hlen : call.message.length ≤ logMaxWhole) :
    log.place call.rc = if rtuLogMaxFileSize ≤ (log.ring flash).len + call.record.length then 0
      else ((log.ring flash).len : Int) := by
  have hrecord := call.length_record
  have hrc := LogCall.rc_eq hlen
  obtain ⟨hlo, -⟩ := id hlog
  unfold logMaxWhole at hlen
  rw [LogT.place_of_le _ hlog (by omega) (by omega), ring]
  dsimp only
  split_ifs <;> omega

/-- It goes back to the start where the ring's next lap starts. -/
theorem LogT.lapAfter_ring (flash : Int → UInt8) (hlog : log.InFile)
    (hlen : call.message.length ≤ logMaxWhole) (lap : Nat) :
    (if log.place call.rc < log.flen then log.flen.toNat else lap) =
      (log.ring flash).lapAfter rtuLogMaxFileSize lap call.record := by
  have hplace := LogT.place_ring flash hlog hlen
  have hrecord := call.length_record
  have hpos : log.flen = (log.ring flash).len := (Int.toNat_of_nonneg hlog.1).symm
  unfold logMaxWhole at hlen
  unfold Ring.lapAfter
  rw [hplace]
  -- no record is as long as the file, so a lap that ends has begun
  by_cases hfull : rtuLogMaxFileSize ≤ (log.ring flash).len + call.record.length
  · rw [if_pos hfull, if_pos hfull, if_pos (by rw [rtuLogMaxFileSize] at hfull; omega)]
    rfl
  · rw [if_neg hfull, if_neg hfull, if_neg (by omega)]

/-- A record in the file is one in the cells. -/
theorem putCells_file (flash : Int → UInt8) (a : Nat) (record : List UInt8) :
    (fun i : Nat => if (a : Int) ≤ i ∧ (i : Int) < a + record.length
      then record.getD ((i : Int) - a).toNat 0 else flash i) =
      putCells (fun i => flash i) a record := by
  funext i
  by_cases hlo : a ≤ i
  · by_cases hhi : i < a + record.length
    · have hat : ((i : Int) - a).toNat = i - a := by omega
      rw [if_pos (by omega), putCells, if_pos hlo, hat, List.getD_eq_getElem _ _ (by omega),
        List.getD_eq_getElem _ _ (by omega)]
    · rw [if_neg (by omega), putCells_of_ge (by omega)]
  · rw [if_neg (by omega), putCells_of_lt (by omega)]

/-- **A call writes its record into the ring.** -/
theorem logPrintf_ring (hmap : log.flash = some flash) (hlog : log.InFile)
    (hlen : call.message.length ≤ logMaxWhole) :
    ∃ flash', (logPrintf call log).1.flash = some flash' ∧ (logPrintf call log).1.InFile ∧
      (logPrintf call log).1.ring flash' =
        (log.ring flash).write rtuLogMaxFileSize call.record := by
  have hlen' : call.message.length ≤ 995 := hlen
  have hrc := LogCall.rc_eq hlen
  have hrecord := call.length_record
  have hbounds := LogT.place_bounds call.rc hlog (by omega) (by omega)
  refine ⟨_, logPrintf_text hmap hlen', logPrintf_inFile hlog (.inl (by omega)), ?_⟩
  have hflen : (logPrintf call log).1.flen = log.place call.rc + call.record.length := by
    rw [rtuLogMaxFileSize] at hbounds
    rw [logPrintf_of_pos hmap (by omega)]
    dsimp only
    rw [intAdd_of_lt (by omega) (by omega), hrc]
  have hput : ∀ a : Nat, log.place call.rc = a →
      (logPrintf call log).1.ring (fun i =>
        if log.place call.rc ≤ i ∧ i < log.place call.rc + call.record.length
        then call.record.getD (i - log.place call.rc).toNat 0 else flash i) =
      ⟨putCells (log.ring flash).cells a call.record, a + call.record.length⟩ := by
    intro a ha
    have hsum : (logPrintf call log).1.flen.toNat = a + call.record.length := by omega
    rw [LogT.ring, hsum, ha, putCells_file]
    rfl
  have hplace := LogT.place_ring flash hlog hlen
  unfold Ring.write
  split
  · rename_i hfull
    rw [if_pos hfull] at hplace
    exact (hput 0 hplace).trans (by rw [Nat.zero_add])
  · rename_i hfull
    rw [if_neg hfull] at hplace
    exact hput _ hplace

end Call

/-- Any number of calls write their records. -/
theorem logAll_ring {calls : List LogCall} {log : LogT} {flash : Int → UInt8} {lap : Nat}
    (hmap : log.flash = some flash) (hlog : log.InFile)
    (hcalls : ∀ call ∈ calls, call.message.length ≤ logMaxWhole) :
    lastLap calls log lap =
        (log.ring flash).lastLap rtuLogMaxFileSize lap (calls.map (·.record)) ∧
      ∃ flash', (logAll calls log).flash = some flash' ∧ (logAll calls log).ring flash' =
        (calls.map (·.record)).foldl (Ring.write rtuLogMaxFileSize) (log.ring flash) := by
  induction calls generalizing log flash lap with
  | nil => exact ⟨rfl, flash, hmap, rfl⟩
  | cons call calls ih =>
      have hlen := hcalls call List.mem_cons_self
      obtain ⟨flash₁, hmap₁, hlog₁, hring₁⟩ := logPrintf_ring hmap hlog hlen
      obtain ⟨hlap, flash', hmap', hring'⟩ :=
        ih hmap₁ hlog₁ fun call hmem => hcalls call (List.mem_cons_of_mem _ hmem)
      rw [hring₁] at hlap hring'
      refine ⟨?_, flash', hmap', hring'⟩
      rw [lastLap, hlap, LogT.lapAfter_ring flash hlog hlen]
      rfl

section Log

variable {calls : List LogCall} {log : LogT} {flash : Int → UInt8}

theorem LogT.inFile_of_start (hstart : log.flen = 0) : log.InFile := by
  rw [LogT.InFile, hstart]
  exact ⟨Int.le_refl _, by decide⟩

theorem length_record_le (hcalls : ∀ call ∈ calls, call.message.length ≤ logMaxWhole) :
    ∀ record ∈ calls.map (·.record), record.length ≤ logMaxRecord := by
  intro record hmem
  obtain ⟨call, hcall, rfl⟩ := List.mem_map.1 hmem
  have := hcalls call hcall
  rw [call.length_record]
  exact Nat.add_le_add_right this 27

/-- **The file has the end of the log**: what is read from `flen` up to where the last lap ended,
and then from the start up to `flen`, is the end of all that was logged, no more than the file
holds, and all of it or nearly as much as that. -/
theorem log_recent (hmap : log.flash = some flash) (hstart : log.flen = 0)
    (hcalls : ∀ call ∈ calls, call.message.length ≤ logMaxWhole) :
    ∃ flash', (logAll calls log).flash = some flash' ∧
      let recent := ((logAll calls log).ring flash').recent (lastLap calls log 0)
      recent <:+ calls.flatMap (·.record) ∧ recent.length ≤ rtuLogMaxFileSize ∧
        (recent = calls.flatMap (·.record) ∨
          rtuLogMaxFileSize ≤ recent.length + logMaxRecord) := by
  obtain ⟨hlap, flash', hmap', hring⟩ :=
    logAll_ring hmap (LogT.inFile_of_start hstart) hcalls
  have hempty : log.ring flash = ⟨fun i => flash i, 0⟩ := by
    rw [LogT.ring, hstart]
    rfl
  have hsize := length_record_le hcalls
  have hholds := (Ring.holds_start rtuLogMaxFileSize logMaxRecord fun i : Nat =>
    flash i).writeAll hsize
  have hfits : ∀ record ∈ calls.map (·.record), record.length ≤ rtuLogMaxFileSize :=
    fun record hmem => Nat.le_trans (hsize record hmem) (by decide)
  have hle := Ring.recent_le (r := ⟨fun i : Nat => flash i, 0⟩) hfits
    (Nat.zero_le rtuLogMaxFileSize) (Nat.zero_le rtuLogMaxFileSize)
  rw [← hempty, ← hlap, ← hring] at hle
  rw [← hempty, ← hlap, ← hring, List.nil_append, ← List.flatMap_def] at hholds
  refine ⟨flash', hmap', hholds.suffix, hle, hholds.enough.imp And.right fun hfull => ?_⟩
  rw [Ring.length_recent]
  omega

end Log

/-- As many messages of 995 letters as go round the file once. -/
def manyLetters : List LogCall := .replicate 1030 (letterCall 995 (by decide))

/-- The file has the last of them, and nearly as many as it holds. -/
theorem letters_recent : ∃ flash', (logAll manyLetters emptyLog).flash = some flash' ∧
    let recent := ((logAll manyLetters emptyLog).ring flash').recent
      (lastLap manyLetters emptyLog 0)
    recent <:+ manyLetters.flatMap (·.record) ∧ recent ≠ manyLetters.flatMap (·.record) ∧
      rtuLogMaxFileSize ≤ recent.length + logMaxRecord := by
  have hmap : emptyLog.flash = some fun _ => 70 := rfl
  have hlength : ∀ call ∈ manyLetters, call.message.length = 995 := by
    intro call hmem
    obtain rfl : call = letterCall 995 (by decide) := List.eq_of_mem_replicate hmem
    exact letterCall_length 995 _
  have htext : (manyLetters.flatMap (·.record)).length = 1030 * 1022 := by
    rw [manyLetters, List.length_flatMap, List.map_replicate, LogCall.length_record,
      letterCall_length, List.sum_replicate_nat]
  obtain ⟨flash', hmap', hsuffix, hle, hrecent⟩ :=
    log_recent hmap rfl fun call hmem => Nat.le_of_eq (hlength call hmem)
  have hnot : ((logAll manyLetters emptyLog).ring flash').recent (lastLap manyLetters emptyLog 0) ≠
      manyLetters.flatMap (·.record) := by
    intro heq
    rw [heq, htext] at hle
    exact absurd hle (by decide)
  exact ⟨flash', hmap', hsuffix, hnot, hrecent.resolve_left hnot⟩

end RtuA118
