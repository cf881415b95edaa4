import RtuA118.Data.Retrieval

/-!
# RtuA118.Data.RowCount

The **row counter** of the history. The data thread counts the rows once, when it
starts, and then keeps `h_data_len` beside the table: it is what a tick of the storage
timer looks at to decide whether old rows are deleted.

`sqlite_data_store_bin_data` returns 0 whether or not its statement succeeds, and the
thread counts on it either way. `ticks_counted_iff` says that the counter is exact along
a run, and deletion in time, exactly when no insert of the run fails.
-/

namespace RtuA118

/-! ### A tick with failures -/

/-- How a tick goes: the time of its insert, whether there is memory for the compressed
snapshot, and whether the statements succeed that insert a row, delete old rows and
read the first row's time. -/
structure Tick where
  stamp : Stamp
  malloc : Bool
  insert : Bool
  delete : Bool
  first : Bool

/-- `sqlite_data_store_bin_data`: the return code and the table. -/
def sqliteDataStoreBinData (ok : Bool) (row : DataRow) (rows : List DataRow) : Int × List DataRow :=
  (0, if ok then rows ++ [row] else rows)

section Tick

variable (z : Zlib) (t : Tick) (d : DataThread)

/-- The tick gets to its insert. -/
def Tick.Inserts : Prop :=
  t.malloc = true ∧ (z.compress (snapshotBytes d.rtu.map)).length ≤ z.compressBound d.tlen

instance : Decidable (t.Inserts z d) := inferInstanceAs (Decidable (_ ∧ _))

/-- The table the tick finds once it has inserted. -/
def rowsFound : List DataRow :=
  if t.Inserts z d then
    (sqliteDataStoreBinData t.insert (Filing.row z ⟨t.stamp, d.rtu.map⟩) d.rows).2
  else d.rows

/-- The loop of the data thread when the time to store has come. -/
def storeTick : DataThread :=
  let d' := { d with buf := Store.put 0 (snapshotBytes d.rtu.map) d.buf }
  if t.Inserts z d then
    let rows := rowsFound z t d
    if d.hDataLen + 1 > maxHDataItemLen ∧ t.delete then
      { d' with
        rows := rows.drop maxHDataDelItemLen
        hDataLen := d.hDataLen + 1 - maxHDataDelItemLen
        firstDataTime := scanTime
          (if t.first then firstTime (rows.drop maxHDataDelItemLen) else firstTime [])
          d.firstDataTime }
    else { d' with rows := rows, hDataLen := d.hDataLen + 1 }
  else d'

/-- What the counter is for: after the tick it is the number of rows, and only a tick
that finds more than 8000 rows has deleted any, at most so many that 6000 remain. -/
structure TickCounted : Prop where
  counter : (storeTick z t d).hDataLen = (storeTick z t d).rows.length
  deleted : (storeTick z t d).rows ≠ rowsFound z t d →
    8000 < (rowsFound z t d).length ∧ 6000 ≤ (storeTick z t d).rows.length

end Tick

/-- Without failures a tick stores a snapshot. -/
theorem storeTick_eq_storeSnapshot (z : Zlib) (stamp : Stamp) (d : DataThread) :
    storeTick z ⟨stamp, true, true, true, true⟩ d = storeSnapshot z stamp d := by
  by_cases hfit : (z.compress (snapshotBytes d.rtu.map)).length ≤ z.compressBound d.tlen
  · have hins : Tick.Inserts z ⟨stamp, true, true, true, true⟩ d := ⟨rfl, hfit⟩
    have hfound : rowsFound z ⟨stamp, true, true, true, true⟩ d
        = d.rows ++ [Filing.row z ⟨stamp, d.rtu.map⟩] := if_pos hins
    unfold storeTick storeSnapshot
    dsimp only
    rw [if_pos hins, hfound]
    refine Eq.trans ?_ (if_pos hfit).symm
    by_cases hfull : d.Full
    · exact (if_pos ⟨hfull, rfl⟩).trans (if_pos hfull).symm
    · exact (if_neg fun h => hfull h.1).trans (if_neg hfull).symm
  · have hins : ¬ Tick.Inserts z ⟨stamp, true, true, true, true⟩ d := fun h => hfit h.2
    unfold storeTick storeSnapshot
    dsimp only
    rw [if_neg hins]
    exact (if_neg hfit).symm

/-! ### One tick -/

section Tick

variable {z : Zlib} {t : Tick} {d : DataThread}

/-- A tick that does not get to its insert touches neither table nor counter. -/
theorem storeTick_of_not_inserts (h : ¬ t.Inserts z d) :
    (storeTick z t d).hDataLen = d.hDataLen ∧ (storeTick z t d).rows = d.rows ∧
      rowsFound z t d = d.rows := by
  simp [storeTick, rowsFound, h]

/-- A tick that does counts on, and deletes what the counter says is too much. -/
theorem storeTick_of_inserts (h : t.Inserts z d) :
    (d.hDataLen + 1 > maxHDataItemLen ∧
        (storeTick z t d).hDataLen = d.hDataLen + 1 - maxHDataDelItemLen ∧
        (storeTick z t d).rows = (rowsFound z t d).drop maxHDataDelItemLen) ∨
      (storeTick z t d).hDataLen = d.hDataLen + 1 ∧ (storeTick z t d).rows = rowsFound z t d := by
  unfold storeTick
  rw [if_pos h]
  by_cases hdel : d.hDataLen + 1 > maxHDataItemLen ∧ t.delete = true
  · dsimp only
    rw [if_pos hdel]
    exact .inl ⟨hdel.1, rfl, rfl⟩
  · dsimp only
    rw [if_neg hdel]
    exact .inr ⟨rfl, rfl⟩

theorem rowsFound_length (h : t.Inserts z d) :
    (rowsFound z t d).length = d.rows.length + if t.insert then 1 else 0 := by
  unfold rowsFound sqliteDataStoreBinData
  rw [if_pos h]
  cases t.insert <;> simp

/-- **One tick** of an exact counter: it is exact again when the insert succeeds. -/
theorem tickCounted_of_insert (hd : d.hDataLen = d.rows.length)
    (hok : t.Inserts z d → t.insert = true) : TickCounted z t d := by
  by_cases hins : t.Inserts z d
  · have hlen := rowsFound_length hins
    rw [if_pos (hok hins)] at hlen
    rcases storeTick_of_inserts hins with ⟨hfull, hcount, hrows⟩ | ⟨hcount, hrows⟩
    · simp only [maxHDataItemLen, maxHDataDelItemLen] at hfull hcount hrows
      refine ⟨?_, fun _ => ⟨?_, ?_⟩⟩
      · rw [hcount, hrows, List.length_drop]
        omega
      · omega
      · rw [hrows, List.length_drop]
        omega
    · refine ⟨?_, fun hne => absurd hrows hne⟩
      rw [hcount, hrows]
      omega
  · obtain ⟨hcount, hrows, hfound⟩ := storeTick_of_not_inserts hins
    exact ⟨by rw [hcount, hrows, hd], fun hne => absurd (hrows.trans hfound.symm) hne⟩

/-- It is one too high when the insert fails. -/
theorem not_tickCounted_of_failed (hd : d.hDataLen = d.rows.length) (hins : t.Inserts z d)
    (hfail : ¬ t.insert = true) : ¬ TickCounted z t d := by
  intro h
  have hcounter := h.counter
  have hlen := rowsFound_length hins
  rw [if_neg hfail] at hlen
  rcases storeTick_of_inserts hins with ⟨hfull, hcount, hrows⟩ | ⟨hcount, hrows⟩
  · simp only [maxHDataItemLen, maxHDataDelItemLen] at hfull hcount hrows
    rw [hcount, hrows, List.length_drop] at hcounter
    omega
  · rw [hcount, hrows] at hcounter
    omega

end Tick

/-! ### Runs -/

/-- What happens to the data thread: a tick, a request for a well's history with what
the handler's arrays and the heap hold, or anything the rest of the unit does. -/
inductive StoreEvent where
  | tick (t : Tick)
  | request (stack : Nat → UInt16) (junk : Nat → UInt8) (well : Nat)
  | elsewhere (rtu : Rtu)

section Runs

variable (z : Zlib) (env : Platform)

def StoreEvent.run (d : DataThread) : StoreEvent → DataThread
  | .tick t => storeTick z t d
  | .request stack junk well => (msgHandler z env stack junk well d).thread
  | .elsewhere rtu => { d with rtu := rtu }

/-- The tick an event is. -/
def StoreEvent.tick? : StoreEvent → Option Tick
  | .tick t => some t
  | _ => none

/-- The ticks of a run, each with the thread it finds. -/
def ticksOf : DataThread → List StoreEvent → List (Tick × DataThread)
  | _, [] => []
  | d, e :: es => (e.tick?.toList.map fun t => (t, d)) ++ ticksOf (e.run z env d) es

theorem msgHandler_hDataLen {stack : Nat → UInt16} {junk : Nat → UInt8} {well : Nat}
    {d : DataThread} : (msgHandler z env stack junk well d).thread.hDataLen = d.hDataLen := by
  unfold msgHandler
  dsimp only
  split <;> rfl

/-- **The row counter is exact** along a run exactly when no insert of the run fails. -/
theorem ticks_counted_iff (es : List StoreEvent) (d : DataThread)
    (hd : d.hDataLen = d.rows.length) :
    (∀ p ∈ ticksOf z env d es, TickCounted z p.1 p.2) ↔
      ∀ p ∈ ticksOf z env d es, p.1.Inserts z p.2 → p.1.insert = true := by
  induction es generalizing d with
  | nil => simp [ticksOf]
  | cons e es ih =>
      cases e with
      | tick t =>
          simp only [ticksOf, StoreEvent.tick?, StoreEvent.run, Option.toList_some, List.map_cons,
            List.map_nil, List.singleton_append, List.forall_mem_cons]
          constructor
          · rintro ⟨hfirst, hrest⟩
            have hok : t.Inserts z d → t.insert = true := fun hins => by
              by_contra hfail
              exact not_tickCounted_of_failed hd hins hfail hfirst
            exact ⟨hok, (ih _ hfirst.counter).1 hrest⟩
          · rintro ⟨hok, hrest⟩
            have hfirst := tickCounted_of_insert hd hok
            exact ⟨hfirst, (ih _ hfirst.counter).2 hrest⟩
      | request stack junk well =>
          refine ih _ ?_
          rw [StoreEvent.run, msgHandler_hDataLen, msgHandler_rows]
          exact hd
      | elsewhere rtu => exact ih _ hd

end Runs

/-- A tick at noon whose insert fails. -/
def failedTick : Tick where
  stamp := noon
  malloc := true
  insert := false
  delete := true
  first := true

theorem failedTick_inserts :
    failedTick.Inserts sampleZlib (newArchive fun _ => 0).thread := by
  refine ⟨rfl, ?_⟩
  rw [newArchive_tlen]
  exact sampleZlib_inverts.bound _ recordingUnit_length

/-- The run of this tick alone, on an empty table. -/
theorem failedTick_counted_iff :
    (∀ p ∈ ticksOf sampleZlib (.bare fun _ => none) (newArchive fun _ => 0).thread
        [.tick failedTick], TickCounted sampleZlib p.1 p.2) ↔
      ∀ p ∈ ticksOf sampleZlib (.bare fun _ => none) (newArchive fun _ => 0).thread
        [.tick failedTick], p.1.Inserts sampleZlib p.2 → p.1.insert = true :=
  ticks_counted_iff sampleZlib (.bare fun _ => none) [.tick failedTick]
    (newArchive fun _ => 0).thread rfl

/-- It counts a row the table does not have. -/
theorem not_ticks_counted : ¬ ∀ (z : Zlib) (env : Platform) (es : List StoreEvent)
    (d : DataThread), d.hDataLen = d.rows.length →
    ∀ p ∈ ticksOf z env d es, TickCounted z p.1 p.2 := by
  intro h
  have hbad := h sampleZlib (.bare fun _ => none) [.tick failedTick] (newArchive fun _ => 0).thread
    rfl (failedTick, (newArchive fun _ => 0).thread) (List.mem_singleton.2 rfl)
  exact not_tickCounted_of_failed rfl failedTick_inserts (by decide) hbad

end RtuA118
