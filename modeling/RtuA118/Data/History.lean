import RtuA118.Map.Life

/-!
# RtuA118.Data.History

The request handler of the data thread: from the parameter registers to a query, from
the row found to the registers of the answer.

The database is a list of rows in the order of their ids, and zlib is a parameter
(`Zlib`). Beside what the handler does to the unit stands what it puts into its own
buffers (`BufferUse`): four of them are filled through helpers, and only one of the
helpers is told the size.

`msgHandler_inBounds_iff` says when all four are large enough. The word count of the
date is given in bytes, so a request for one of the eight wells never is in bounds; the
other three depend on the row, and `DataRow.Fits` says how.
-/

namespace RtuA118

/-! ### zlib -/

/-- What the data thread uses of zlib: the bound on the compressed length, the bytes
`compress` yields, and `uncompress` into a buffer of some capacity, whether it returns
`Z_OK` and what it has put there. -/
structure Zlib where
  compressBound : Nat → Nat
  compress : List UInt8 → List UInt8
  uncompress : Nat → List UInt8 → Bool × List UInt8

/-! ### Rows and queries -/

/-- A row of table `data`; a NULL column is `none`. -/
structure DataRow where
  time : Option (List Char)
  data : Option (List UInt8)
  deriving DecidableEq, Repr

/-- What the handler prints into its statement: the time to look behind, and how many
rows to pass over. -/
structure HistoryQuery where
  after : List Char
  offset : Int
  deriving DecidableEq, Repr

/-- `%04hd-%02hd-%02hd %02hd:%02hd:00`. -/
def printMinute (year month day hour minute : UInt16) : List Char :=
  printHd 4 year ++ '-' :: (printHd 2 month ++ '-' :: (printHd 2 day ++ ' ' ::
    (printHd 2 hour ++ ':' :: (printHd 2 minute ++ [':', '0', '0']))))

/-- The statement for the words of `r_date_time`. -/
def historyQuery (r : Nat → UInt16) : HistoryQuery where
  after := printMinute (bcdToInt16 (r 0)) (bcdToInt16 (r 1)) (bcdToInt16 (r 2))
    (bcdToInt16 (r 3)) (bcdToInt16 (r 4))
  offset := hdValue (r 5)

/-- The first row the statement yields: of the rows with a later time, in the order of
their ids, the one behind the offset. A negative offset counts as none. -/
def HistoryQuery.select (q : HistoryQuery) (rows : List DataRow) : Option DataRow :=
  ((rows.filter fun row => row.time.any fun t => decide (q.after < t)).drop q.offset.toNat).head?

/-- `sqlite_data_read_bin_data`: the text copied to `s_tm` and the bytes copied to
`data`. It returns `-1` unless it copies both; an empty blob reads as NULL. -/
def sqliteDataReadBinData : Option DataRow → Option (List Char) × Option (List UInt8)
  | none => (none, none)
  | some row =>
    match row.time with
    | none => (none, none)
    | some t => (some t, row.data.filter fun blob => !blob.isEmpty)

theorem sqliteDataReadBinData_blob {text : List Char} {blob : List UInt8} (h : blob ≠ []) :
    sqliteDataReadBinData (some ⟨some text, some blob⟩) = (some text, some blob) := by
  unfold sqliteDataReadBinData
  simp [Option.filter, h]

/-! ### The time of a row -/

/-- `%hd` fields with one character between each two. A blank matches any white space. -/
def scanFields : List Char → List Char → List UInt16
  | seps, cs =>
    match scanHd (cs.dropWhile isSpace) with
    | none => []
    | some (v, rest) =>
      match seps with
      | [] => [v]
      | sep :: seps =>
        match if isSpace sep then some (rest.dropWhile isSpace) else scanLit sep rest with
        | none => [v]
        | some rest => v :: scanFields seps rest

/-- `sscanf(text, "%hd-%hd-%hd %hd:%hd:%hd", …)` and `int16_to_bcd` of each word; a field
that was not scanned keeps its word. -/
def scanTime (text : List Char) (old : Nat → UInt16) (k : Nat) : UInt16 :=
  int16ToBcd ((scanFields ['-', '-', ' ', ':', ':'] text).getD k (old k))

/-! ### The data thread -/

/-- The data thread over the unit. `buf` is the buffer of a snapshot, byte by byte. -/
structure DataThread where
  rtu : Rtu
  rows : List DataRow
  firstDataTime : Nat → UInt16
  hDataLen : Int
  buf : Nat → UInt8

namespace DataThread

/-- `tlen`: the bytes of a snapshot. -/
def tlen (d : DataThread) : Nat := 2 * (d.rtu.map.xMax * maxWellNum)

end DataThread

/-- The words of a buffer of bytes. -/
def wordsOf (buf : Nat → UInt8) (k : Nat) : UInt16 := wordOfBytes (buf (2 * k)) (buf (2 * k + 1))

/-- What one request puts into the handler's buffers: words of `r_date_time`, bytes of
the others. -/
structure BufferUse where
  rDateTime : Nat
  timeS : Nat
  compressBuf : Nat
  buf : Nat
  deriving DecidableEq, Repr

/-- The sizes of the four buffers, `buf` being of `tlen` bytes. -/
structure BufferUse.InBounds (u : BufferUse) (z : Zlib) (tlen : Nat) : Prop where
  rDateTime : u.rDateTime ≤ 6
  timeS : u.timeS ≤ 64
  compressBuf : u.compressBuf ≤ z.compressBound tlen
  buf : u.buf ≤ tlen

/-- What a request leaves. -/
structure Handled where
  use : BufferUse
  thread : DataThread

section Handler

variable (z : Zlib) (env : Platform) (stack : Nat → UInt16) (junk : Nat → UInt8) (well : Nat)
  (d : DataThread)

/-- The words read into `r_date_time`. The count is given as the array's size in bytes. -/
def parameterWords : List UInt16 :=
  (mapModbusReadRegisters env (mapModbusWriteRegisters env d.firstDataTime 5 well historyFirst false
    d.rtu).2 12 well 6999 false).getD []

/-- The row the request is answered from. `stack` is what the handler's arrays hold
before it runs. -/
def selectedRow : Option DataRow :=
  (historyQuery fun k => (parameterWords env well d).getD k (stack k)).select d.rows

/-- What `uncompress` is given: as many bytes of `compress_buf` as a snapshot has, the
blob and what lies behind it in the heap. -/
def compressBufBytes (tlen : Nat) (blob : List UInt8) : List UInt8 :=
  (blob ++ (List.range tlen).map junk).take tlen

/-- `msg_handler` of the data thread, on a request for a well's history. -/
def msgHandler : Handled :=
  let words := (parameterWords env well d).length
  match sqliteDataReadBinData (selectedRow env stack well d) with
  | (some text, some blob) =>
    let (ok, out) := z.uncompress (z.compressBound d.tlen) (compressBufBytes junk d.tlen blob)
    let buf := Store.put 0 out d.buf
    let found :=
      if ok then some (scanTime text fun k => stack (6 + k), wordsOf buf) else none
    { use := ⟨words, text.length + 1, blob.length, out.length⟩
      thread := { d with
        rtu := historyAnswer env well ⟨d.firstDataTime, found⟩ d.rtu
        buf := buf } }
  | (text, _) =>
    { use := ⟨words, text.elim 0 fun t => t.length + 1, 0, 0⟩
      thread := { d with rtu := historyAnswer env well ⟨d.firstDataTime, none⟩ d.rtu } }

end Handler

/-! ### The handler's buffers -/

/-- The row fits the buffers of a handler whose snapshots have `tlen` bytes: its time, its
blob and what the blob unpacks to. -/
def DataRow.Fits (z : Zlib) (junk : Nat → UInt8) (tlen : Nat) (row : DataRow) : Prop :=
  ∀ text, row.time = some text → text.length + 1 ≤ 64 ∧
    ∀ blob, row.data = some blob → blob ≠ [] → blob.length ≤ z.compressBound tlen ∧
      (z.uncompress (z.compressBound tlen) (compressBufBytes junk tlen blob)).2.length ≤ tlen

section Bounds

variable {z : Zlib} {env : Platform} {stack : Nat → UInt16} {junk : Nat → UInt8} {well : Nat}
  {d : DataThread}

/-- A read of a well fills twelve words, of no well none. -/
theorem parameterWords_length :
    (parameterWords env well d).length = if 1 ≤ well ∧ well ≤ maxWellNum then 12 else 0 := by
  unfold parameterWords mapModbusReadRegisters
  by_cases hw : 1 ≤ well ∧ well ≤ maxWellNum
  · have hw8 : well ≤ 8 := hw.2
    rw [if_pos hw, if_pos (registerArgsOk_iff.2 (by omega))]
    exact modbusReadLoop_length
  · have hno : ¬ registerArgsOk 12 (well : Int) 6999 = true := by
      intro hok
      obtain ⟨h8, h1, -⟩ := registerArgsOk_iff.1 hok
      exact hw ⟨by omega, Int.ofNat_le.1 h8⟩
    rw [if_neg hw, if_neg hno]
    rfl

theorem msgHandler_rDateTime : (msgHandler z env stack junk well d).use.rDateTime =
    (parameterWords env well d).length := by
  unfold msgHandler
  dsimp only
  split <;> rfl

/-- The other three buffers hold what they are given exactly when the row fits. -/
theorem msgHandler_row_iff :
    ((msgHandler z env stack junk well d).use.timeS ≤ 64 ∧
        (msgHandler z env stack junk well d).use.compressBuf ≤ z.compressBound d.tlen ∧
        (msgHandler z env stack junk well d).use.buf ≤ d.tlen) ↔
      ∀ row, selectedRow env stack well d = some row → row.Fits z junk d.tlen := by
  unfold msgHandler
  cases hrow : selectedRow env stack well d with
  | none => simp [sqliteDataReadBinData]
  | some row =>
      obtain ⟨time, data⟩ := row
      simp only [Option.some.injEq, forall_eq', DataRow.Fits]
      cases time with
      | none => simp [sqliteDataReadBinData]
      | some text =>
          cases data with
          | none => simp [sqliteDataReadBinData]
          | some blob =>
              by_cases hblob : blob = []
              · simp [sqliteDataReadBinData, hblob]
              · rw [sqliteDataReadBinData_blob hblob]
                simp [hblob]

/-- **The handler's buffers.** A request stays inside all four exactly when it is for
none of the eight wells and the row it finds fits. -/
theorem msgHandler_inBounds_iff (z : Zlib) (env : Platform) (stack : Nat → UInt16)
    (junk : Nat → UInt8) (well : Nat) (d : DataThread) :
    (msgHandler z env stack junk well d).use.InBounds z d.tlen ↔
      (well < 1 ∨ maxWellNum < well) ∧
        ∀ row, selectedRow env stack well d = some row → row.Fits z junk d.tlen := by
  rw [← msgHandler_row_iff]
  have hwords : (msgHandler z env stack junk well d).use.rDateTime ≤ 6 ↔
      well < 1 ∨ maxWellNum < well := by
    rw [msgHandler_rDateTime, parameterWords_length]
    split
    · omega
    · omega
  constructor
  · intro h
    exact ⟨hwords.1 h.rDateTime, h.timeS, h.compressBuf, h.buf⟩
  · rintro ⟨hw, htime, hcomp, hbuf⟩
    exact ⟨hwords.2 hw, htime, hcomp, hbuf⟩

end Bounds

/-- A data thread over an empty map and an empty table. -/
def idleThread : DataThread where
  rtu := .start (emptyMap 300 (fun _ => 0) fun _ => 0)
  rows := []
  firstDataTime := fun _ => 0
  hDataLen := 0
  buf := fun _ => 0

/-- A request for well 1 reads twelve words into an array of six. -/
theorem not_msgHandler_inBounds : ¬ ∀ (z : Zlib) (env : Platform) (stack : Nat → UInt16)
    (junk : Nat → UInt8) (well : Nat) (d : DataThread),
    (msgHandler z env stack junk well d).use.InBounds z d.tlen := by
  intro h
  have hwords := (h ⟨id, id, fun _ src => (true, src)⟩ (.bare fun _ => none) (fun _ => 0)
    (fun _ => 0) 1 idleThread).rDateTime
  rw [msgHandler_rDateTime, parameterWords_length] at hwords
  exact absurd hwords (by decide)

end RtuA118
