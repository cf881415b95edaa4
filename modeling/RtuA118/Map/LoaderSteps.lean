import RtuA118.Lib.Machine
import RtuA118.Map.RangeRows
import RtuA118.Map.RemapScope

/-!
# RtuA118.Map.LoaderSteps

The loader of a mapping file, one turn of its loops at a time.

`loaderStep` is the source's control flow: words are read one by one, and a range row has a loop
of its own with 16-bit counters, tested before every turn. `loader_returns_iff` says that the
return values of `ramMapFlash1ValueInit` are those of these steps, its `none` being a run that
does not end.

The loop over a range ends after at most 65536 turns unless the range ends at the last index, where
`i <= x1` holds of every 16-bit `i`. So the loader returns exactly when it comes to no such row
(`loader_terminates_iff`); the scan that sizes the blocks does not help, for it does not read the
common file, and in a type file its own maximum wraps to 0 there.
-/

namespace RtuA118

open Machine

/-! ### The steps -/

/-- Where the loader is. -/
inductive LoaderState where
  /-- Before `fopen`. -/
  | opening (m : MapT)
  /-- Before `fscanf`, with the words to come. -/
  | reading (ws : List (List Char)) (m : MapT)
  /-- Before the test of the loop over a range, with the loop's counters and the turns it has
  taken. -/
  | looping (x1 dV : UInt16) (flags : RowFlags) (i j : UInt16) (turns : Nat)
      (ws : List (List Char)) (m : MapT)

/-- The turns taken of a loop over a range. -/
def LoaderState.turns : LoaderState → Nat
  | .looping _ _ _ _ _ n _ _ => n
  | _ => 0

section Loader

variable (env : Platform) (xb yb : Nat) (b1 b2 : Bool) (path : List Char) (isFlash1 : Bool)

/-- One step of `ram_map_flash1_value_init`. -/
def loaderStep : LoaderState → LoaderState ⊕ (Int × MapT)
  | .opening m =>
    match env.readFile path with
    | none => .inr (-1, m)
    | some text => .inl (.reading (scanWords text) m)
  -- the copies are made at the end of the file only
  | .reading [] m => .inr (0, loadedWords b2 isFlash1 m)
  | .reading (w :: ws) m =>
    match parseRow w with
    | none => .inr (-1, m)
    | some (.single x0 y0 dV flags) =>
      .inl (.reading ws
        (loadCell xb yb b1 b2 m ⟨x0, UInt16.ofNat (registerOfNumber y0), dV, flags⟩))
    | some (.range x0 x1 y0 y1 dV flags) =>
      -- a range of one index or one register is passed over
      if registerOfNumber y1 ≤ registerOfNumber y0 ∨ x1 ≤ x0 then .inl (.reading ws m)
      else .inl (.looping x1 dV flags x0 (UInt16.ofNat (registerOfNumber y0)) 0 ws m)
  | .looping x1 dV flags i j n ws m =>
    -- the counters are 16 bits wide, and so is the bound of the test
    if i ≤ x1 then
      .inl (.looping x1 dV flags (i + 1) (j + 1) (n + 1) ws
        (loadCell xb yb b1 b2 m ⟨i, j, dV, flags⟩))
    else .inl (.reading ws m)

/-- The load returns, and no loop over a range takes more than 65536 turns. -/
def LoaderTerminates (m : MapT) : Prop :=
  (∃ r, Returns (loaderStep env xb yb b1 b2 path isFlash1) (.opening m) r) ∧
    ∀ n s, RunsTo (loaderStep env xb yb b1 b2 path isFlash1) n (.opening m) s → s.turns ≤ 65536

end Loader

/-- The loader comes to a range that ends at the last index. -/
def ReachesEndless (ws : List (List Char)) : Prop :=
  ∃ us w vs row, ws = us ++ w :: vs ∧ (∀ u ∈ us, RowScans u) ∧ parseRow w = some row ∧
    row.endless = true

/-! ### The loop over a range -/

section Steps

variable {env : Platform} {xb yb : Nat} {b1 b2 : Bool} {path : List Char} {isFlash1 : Bool}

theorem UInt16.succ_toNat {i x1 : UInt16} (h : i ≤ x1) (hlast : x1 ≠ 65535) :
    (i + 1).toNat = i.toNat + 1 := by
  have hi : i.toNat ≤ x1.toNat := UInt16.le_iff_toNat_le.1 h
  have hx1 : x1.toNat ≠ 65535 := fun h' => hlast (UInt16.toNat_inj.1 h')
  have hlt := x1.toNat_lt
  rw [UInt16.toNat_add]
  exact Nat.mod_eq_of_lt (by simp; omega)

/-- The loop over a range that does not end at the last index. -/
theorem looping_runs {x1 dV : UInt16} {flags : RowFlags} {ws : List (List Char)}
    (hlast : x1 ≠ 65535) : ∀ (k : Nat) {i j : UInt16} {n : Nat} {m : MapT},
    x1.toNat + 1 = i.toNat + k →
    RunsTo (loaderStep env xb yb b1 b2 path isFlash1) (k + 1)
      (.looping x1 dV flags i j n ws m)
      (.reading ws ((rangeCells dV flags i j k).foldl (loadCell xb yb b1 b2) m)) := by
  intro k
  induction k with
  | zero =>
      intro i j n m hk
      have hgt : ¬ i ≤ x1 := by
        rw [UInt16.le_iff_toNat_le]
        omega
      exact .one (if_neg hgt)
  | succ k ih =>
      intro i j n m hk
      have hle : i ≤ x1 := by
        rw [UInt16.le_iff_toNat_le]
        omega
      have hi := UInt16.succ_toNat hle hlast
      exact .succ (if_pos hle) (ih (by omega))

/-- A row that scans is gone through. -/
theorem reading_runs {w : List Char} {ws : List (List Char)} {row : Row} {m : MapT}
    (hrow : parseRow w = some row) (hend : row.endless = false) :
    ∃ n, RunsTo (loaderStep env xb yb b1 b2 path isFlash1) n (.reading (w :: ws) m)
      (.reading ws (row.cells.foldl (loadCell xb yb b1 b2) m)) := by
  cases row with
  | single x0 y0 dV flags =>
      refine ⟨1, .one ?_⟩
      simp [loaderStep, hrow, Row.cells_single]
  | range x0 x1 y0 y1 dV flags =>
      by_cases hskip : registerOfNumber y1 ≤ registerOfNumber y0 ∨ x1 ≤ x0
      · refine ⟨1, .one ?_⟩
        simp [loaderStep, hrow, hskip, Row.cells_of_skipped hskip]
      · have hlast := Row.ne_of_not_endless hskip hend
        have hlt : x0.toNat < x1.toNat :=
          UInt16.lt_iff_toNat_lt.1 (UInt16.not_le.1 (not_or.1 hskip).2)
        rw [Row.cells_of_ne hskip hlast]
        refine ⟨_, .succ ?_ (looping_runs hlast (x1.toNat - x0.toNat + 1) (i := x0) (n := 0)
          (by omega))⟩
        simp [loaderStep, hrow, hskip]

/-- The loop over a range that ends at the last index goes on for ever. -/
theorem not_returns_looping {dV : UInt16} {flags : RowFlags} {i j : UInt16} {n : Nat}
    {ws : List (List Char)} {m : MapT} {r : Int × MapT} :
    ¬ Returns (loaderStep env xb yb b1 b2 path isFlash1)
      (.looping 65535 dV flags i j n ws m) r := by
  -- the state stays before the same test, whatever the counters are
  refine not_returns_of_invariant
    (P := fun s => ∃ i j n m, s = .looping 65535 dV flags i j n ws m) ?_ ⟨i, j, n, m, rfl⟩ r
  rintro _ ⟨i, j, n, m, rfl⟩
  have hi : i ≤ 65535 := UInt16.le_iff_toNat_le.2 (Nat.le_of_lt_succ i.toNat_lt)
  exact ⟨_, if_pos hi, _, _, _, _, rfl⟩

/-- An endless row is one whose loop is entered and ends at the last index. -/
theorem not_returns_endless {w : List Char} {ws : List (List Char)} {row : Row} {m : MapT}
    {r : Int × MapT} (hrow : parseRow w = some row) (hend : row.endless = true) :
    ¬ Returns (loaderStep env xb yb b1 b2 path isFlash1) (.reading (w :: ws) m) r := by
  cases row with
  | single x0 y0 dV flags => simp [Row.endless] at hend
  | range x0 x1 y0 y1 dV flags =>
      obtain ⟨⟨rfl, hx⟩, hy⟩ : (x1 = 65535 ∧ x0 < x1) ∧
          registerOfNumber y0 < registerOfNumber y1 := by
        simpa only [Row.endless, Bool.and_eq_true, beq_iff_eq, decide_eq_true_eq] using hend
      have hskip : ¬ (registerOfNumber y1 ≤ registerOfNumber y0 ∨ (65535 : UInt16) ≤ x0) :=
        not_or.2 ⟨Nat.not_le.2 hy, UInt16.not_le.2 hx⟩
      have hstep : loaderStep env xb yb b1 b2 path isFlash1 (.reading (w :: ws) m) =
          .inl (.looping 65535 dV flags x0 (UInt16.ofNat (registerOfNumber y0)) 0 ws m) := by
        simp only [loaderStep, hrow, if_neg hskip]
      rw [returns_iff_of_inl hstep]
      exact not_returns_looping

/-! ### The loader -/

/-- What the steps make of a file's words is what `loadWords` makes of them. -/
theorem returns_reading_iff {ws : List (List Char)} {m : MapT} {r : Int × MapT} :
    Returns (loaderStep env xb yb b1 b2 path isFlash1) (.reading ws m) r ↔
      (loadWords xb yb b1 b2 ws m).1 = some r.1 ∧
        r.2 = if r.1 = 0 then loadedWords b2 isFlash1 (loadWords xb yb b1 b2 ws m).2
          else (loadWords xb yb b1 b2 ws m).2 := by
  induction ws generalizing m with
  | nil =>
      have hstep : loaderStep env xb yb b1 b2 path isFlash1 (.reading [] m) =
          .inr (0, loadedWords b2 isFlash1 m) := rfl
      rw [returns_inr_iff hstep, loadWords]
      constructor
      · rintro rfl
        exact ⟨rfl, (if_pos rfl).symm⟩
      · rintro ⟨h0, hm⟩
        rw [← Option.some.inj h0, if_pos rfl] at hm
        exact Prod.ext (Option.some.inj h0).symm hm
  | cons w ws ih =>
      unfold loadWords
      cases hrow : parseRow w with
      -- a row that does not parse ends the loader with -1
      | none =>
          have hstep : loaderStep env xb yb b1 b2 path isFlash1 (.reading (w :: ws) m) =
              .inr (-1, m) := by
            simp only [loaderStep, hrow]
          rw [returns_inr_iff hstep]
          constructor
          · rintro rfl
            exact ⟨rfl, (if_neg (show ¬ (-1 : Int) = 0 by decide)).symm⟩
          · rintro ⟨h1, hm⟩
            rw [← Option.some.inj h1, if_neg (show ¬ (-1 : Int) = 0 by decide)] at hm
            exact Prod.ext (Option.some.inj h1).symm hm
      | some row =>
          dsimp only
          cases hend : row.endless with
          -- an endless range never comes back
          | true => simp [not_returns_endless hrow hend]
          | false =>
              obtain ⟨n, hrun⟩ : ∃ n, RunsTo (loaderStep env xb yb b1 b2 path isFlash1) n
                  (.reading (w :: ws) m) _ := reading_runs hrow hend
              rw [hrun.returns_iff, ih, if_neg Bool.false_ne_true]

/-- **What the steps return is what the model returns.** -/
theorem loader_returns_iff {m : MapT} {r : Int × MapT} :
    Returns (loaderStep env xb yb b1 b2 path isFlash1) (.opening m) r ↔
      ramMapFlash1ValueInit env xb yb b1 b2 path isFlash1 m = (some r.1, r.2) := by
  cases hread : env.readFile path with
  | none =>
      have hstep : loaderStep env xb yb b1 b2 path isFlash1 (.opening m) = .inr (-1, m) := by
        simp only [loaderStep, hread]
      rw [returns_inr_iff hstep]
      simp [ramMapFlash1ValueInit, hread, Prod.ext_iff, eq_comm]
  | some text =>
      have hstep : loaderStep env xb yb b1 b2 path isFlash1 (.opening m) =
          .inl (.reading (scanWords text) m) := by
        simp only [loaderStep, hread]
      rw [returns_iff_of_inl hstep, returns_reading_iff, ramMapFlash1ValueInit_of_readFile hread,
        Prod.ext_iff]
      refine and_congr_right fun hrc => ?_
      simp only [hrc, Option.some.injEq]
      exact eq_comm

/-! ### When it terminates -/

theorem ReachesEndless.cons {w : List Char} {ws : List (List Char)} (hw : RowScans w) :
    ReachesEndless (w :: ws) ↔ ReachesEndless ws := by
  constructor
  · rintro ⟨us, u, vs, row, heq, hus, hrow, hend⟩
    cases us with
    | nil =>
        obtain ⟨rfl, rfl⟩ := List.cons.inj heq
        obtain ⟨row', hrow', hend'⟩ := hw
        obtain rfl := Option.some.inj (hrow.symm.trans hrow')
        simp [hend] at hend'
    | cons v us =>
        obtain ⟨rfl, rfl⟩ := List.cons.inj heq
        exact ⟨us, u, vs, row, rfl, fun x hx => hus x (List.mem_cons_of_mem _ hx), hrow, hend⟩
  · rintro ⟨us, u, vs, row, rfl, hus, hrow, hend⟩
    exact ⟨w :: us, u, vs, row, rfl, List.forall_mem_cons.2 ⟨hw, hus⟩, hrow, hend⟩

theorem not_reachesEndless_of_none {w : List Char} {ws : List (List Char)}
    (hw : parseRow w = none) : ¬ ReachesEndless (w :: ws) := by
  rintro ⟨us, u, vs, row, heq, hus, hrow, -⟩
  cases us with
  | nil =>
      obtain ⟨rfl, rfl⟩ := List.cons.inj heq
      simp [hw] at hrow
  | cons v us =>
      obtain ⟨rfl, rfl⟩ := List.cons.inj heq
      obtain ⟨row', hrow', -⟩ := hus w List.mem_cons_self
      simp [hw] at hrow'

/-- The model's `none` is an endless range. -/
theorem loadWords_eq_none_iff {ws : List (List Char)} {m : MapT} :
    (loadWords xb yb b1 b2 ws m).1 = none ↔ ReachesEndless ws := by
  induction ws generalizing m with
  | nil => simp [loadWords, ReachesEndless]
  | cons w ws ih =>
      unfold loadWords
      cases hrow : parseRow w with
      | none => simp [not_reachesEndless_of_none hrow]
      | some row =>
          dsimp only
          cases hend : row.endless with
          | true => simpa using ⟨[], w, ws, row, rfl, nofun, hrow, hend⟩
          | false =>
              rw [if_neg Bool.false_ne_true, ih, ReachesEndless.cons ⟨row, hrow, hend⟩]

theorem ramMapFlash1ValueInit_eq_none_iff {m : MapT} :
    (ramMapFlash1ValueInit env xb yb b1 b2 path isFlash1 m).1 = none ↔
      ∃ text, env.readFile path = some text ∧ ReachesEndless (scanWords text) := by
  cases hread : env.readFile path with
  | none => simp [ramMapFlash1ValueInit, hread]
  | some text => simp [ramMapFlash1ValueInit_of_readFile hread, loadWords_eq_none_iff]

/-- A load returns unless it comes to an endless range. -/
theorem loader_returns_of_not_endless {m : MapT}
    (h : ¬ ∃ text, env.readFile path = some text ∧ ReachesEndless (scanWords text)) :
    ∃ r, Returns (loaderStep env xb yb b1 b2 path isFlash1) (.opening m) r := by
  cases hrc : (ramMapFlash1ValueInit env xb yb b1 b2 path isFlash1 m).1 with
  | none => exact absurd (ramMapFlash1ValueInit_eq_none_iff.1 hrc) h
  | some rc => exact ⟨(rc, _), loader_returns_iff.2 (Prod.ext hrc rfl)⟩

/-- The counters of a loop have taken no more turns than their distance from 0, which a loop
that ends leaves below 65536. -/
def LoopBounded : LoaderState → Prop
  | .opening _ => True
  | .reading ws _ => ¬ ReachesEndless ws
  | .looping x1 _ _ i _ n ws _ => x1 ≠ 65535 ∧ n ≤ i.toNat ∧ ¬ ReachesEndless ws

/-- No step leaves the bound, where the file has no endless range to come to. -/
theorem LoopBounded.step
    (hfile : ¬ ∃ text, env.readFile path = some text ∧ ReachesEndless (scanWords text))
    {s t : LoaderState} (hs : LoopBounded s)
    (hst : loaderStep env xb yb b1 b2 path isFlash1 s = .inl t) : LoopBounded t := by
  cases s with
  | opening m =>
      cases hread : env.readFile path with
      | none => simp [loaderStep, hread] at hst
      | some text =>
          simp only [loaderStep, hread, Sum.inl.injEq] at hst
          subst hst
          exact fun h => hfile ⟨text, hread, h⟩
  | reading ws m =>
      cases ws with
      | nil => cases hst
      | cons w ws =>
          cases hrow : parseRow w with
          | none => simp [loaderStep, hrow] at hst
          | some row =>
              have hend : row.endless = false := by
                cases h : row.endless with
                | false => rfl
                | true => exact absurd ⟨[], w, ws, row, rfl, nofun, hrow, h⟩ hs
              have hws : ¬ ReachesEndless ws := fun h =>
                hs ((ReachesEndless.cons ⟨row, hrow, hend⟩).2 h)
              cases row with
              | single x0 y0 dV flags =>
                  simp only [loaderStep, hrow, Sum.inl.injEq] at hst
                  subst hst
                  exact hws
              | range x0 x1 y0 y1 dV flags =>
                  -- the loop starts with no turn taken
                  simp only [loaderStep, hrow] at hst
                  split at hst
                  · obtain rfl := Sum.inl.inj hst
                    exact hws
                  · rename_i hskip
                    obtain rfl := Sum.inl.inj hst
                    exact ⟨Row.ne_of_not_endless hskip hend, Nat.zero_le _, hws⟩
  | looping x1 dV flags i j n ws m =>
      -- one more turn, and the counter one further from 0: it does not wrap
      obtain ⟨hlast, hn, hws⟩ := hs
      simp only [loaderStep] at hst
      split at hst
      · rename_i hle
        obtain rfl := Sum.inl.inj hst
        exact ⟨hlast, by rw [UInt16.succ_toNat hle hlast]; omega, hws⟩
      · obtain rfl := Sum.inl.inj hst
        exact hws

theorem LoopBounded.turns_le {s : LoaderState} (h : LoopBounded s) : s.turns ≤ 65536 := by
  cases s with
  | opening m => exact Nat.zero_le _
  | reading ws m => exact Nat.zero_le _
  | looping x1 dV flags i j n ws m => exact Nat.le_trans h.2.1 (Nat.le_of_lt i.toNat_lt)

end Steps

/-- **The loader terminates exactly when it comes to no range that ends at the last index.** -/
theorem loader_terminates_iff (env : Platform) (xb yb : Nat) (b1 b2 : Bool) (path : List Char)
    (isFlash1 : Bool) (m : MapT) :
    LoaderTerminates env xb yb b1 b2 path isFlash1 m ↔
      ∀ text, env.readFile path = some text → ¬ ReachesEndless (scanWords text) := by
  constructor
  · rintro ⟨⟨r, hr⟩, -⟩ text hread hend
    have hnone : (ramMapFlash1ValueInit env xb yb b1 b2 path isFlash1 m).1 = none :=
      ramMapFlash1ValueInit_eq_none_iff.2 ⟨text, hread, hend⟩
    rw [loader_returns_iff.1 hr] at hnone
    cases hnone
  · intro h
    have hfile : ¬ ∃ text, env.readFile path = some text ∧ ReachesEndless (scanWords text) :=
      fun ⟨text, hread, hend⟩ => h text hread hend
    exact ⟨loader_returns_of_not_endless hfile, fun n s hrun =>
      (hrun.invariant (fun _ _ => LoopBounded.step hfile) (P := LoopBounded) trivial).turns_le⟩

/-- One listed type of one row, and a common file with a range over all indexes. -/
def endlessUnit : Platform := .bare fun path =>
  if path = pathMap0 then some "1,/a".toList
  else if path = "/a".toList then some "10,40301,0,RW".toList
  else if path = pathMap1 then some "0~65535,40001~40002,0".toList
  else none

/-- The scan accepts the files, and the loader does not return. -/
theorem not_loader_terminates : ¬ ∀ (env : Platform) (xMax : UInt16),
    getXYZMaxLen env = some xMax → ∀ (xb yb : Nat) (b1 b2 : Bool) (path : List Char)
    (isFlash1 : Bool) (m : MapT), LoaderTerminates env xb yb b1 b2 path isFlash1 m := by
  intro h
  obtain ⟨⟨r, hr⟩, -⟩ := h endlessUnit 11 (by decide) 0 0 true true pathMap1 true
    (emptyMap 11 (fun _ => 0) fun _ => 0)
  have hend : ReachesEndless (scanWords "0~65535,40001~40002,0".toList) :=
    ⟨[], "0~65535,40001~40002,0".toList, [], .range 0 65535 40001 40002 0 ⟨.null, .null, .ro⟩,
      by decide, nofun, by decide, by decide⟩
  have hnone : (ramMapFlash1ValueInit endlessUnit 0 0 true true pathMap1 true
      (emptyMap 11 (fun _ => 0) fun _ => 0)).1 = none :=
    ramMapFlash1ValueInit_eq_none_iff.2 ⟨_, by decide, hend⟩
  rw [loader_returns_iff.1 hr] at hnone
  cases hnone

end RtuA118
