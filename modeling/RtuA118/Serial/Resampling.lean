import RtuA118.Lib.Interpolate
import RtuA118.Serial.SampledRun

/-!
# RtuA118.Serial.Resampling

The loop of `time_handle_fun` that fills a diagram up: `n` points were measured, `m`
are wanted, and every `m / (m - n)`-th place gets the mean of its neighbours, after both
halves of the array have been shifted there.

The loop is written a second time with what it uses (`Traced`): every index, and every
shift with the array before and after it. `insertPointsT_data` says that it is the same
loop. `insertPointsT_rule` is its invariant rule, for the runs that stay inside
(`PointAt`); `used_of_step_one` and `used_of_full` are the ones that do not.
-/

namespace RtuA118

open Program Serial Interpolate

/-! ### The loop with what it uses -/

/-- A call of `buff_backward`: where it starts, and the array before and after. -/
structure Shift where
  base : Int
  before : SynData
  after : SynData

/-- The half the call did not start in is the same as before. -/
def Shift.KeepsOtherHalf (s : Shift) : Prop :=
  ∀ k : Int, 0 ≤ k ∧ k < 500 → (s.base < 250 ↔ 250 ≤ k) → s.after k = s.before k

/-- The array, with the indices used on it and the shifts done to it. -/
structure Traced where
  data : SynData
  used : List Int
  shifts : List Shift

namespace Traced

/-- `syn_data[dst] = syn_data[src]`. -/
def move (dst src : Int) (t : Traced) : Traced :=
  { t with data := Function.update t.data dst (t.data src), used := t.used ++ [src, dst] }

/-- `syn_data[dst] = (syn_data[a] + syn_data[b]) / 2`. -/
def mean (dst a b : Int) (t : Traced) : Traced :=
  { t with
    data := Function.update t.data dst (meanOf (shortAt t.data a) (shortAt t.data b))
    used := t.used ++ [a, b, dst] }

end Traced

/-- The loop of `buff_backward`. -/
def backwardLoopT (base : Int) : Nat → Traced → Traced
  | 0, t => t
  | i + 1, t => backwardLoopT base i (t.move (base + i + 1) (base + i))

/-- `buff_backward`. -/
def buffBackwardT (base : Int) (len : UInt16) (t : Traced) : Traced :=
  let t' := if len ≤ 1 then t else backwardLoopT base len.toNat t
  { t' with shifts := t.shifts ++ [⟨base, t.data, t'.data⟩] }

/-- One turn of the loop that inserts points. -/
def insertPointT (m movePos : UInt16) (t : Traced) : Traced :=
  let p : Int := movePos.toNat % 250
  let len := UInt16.ofInt ((m.toNat : Int) - movePos.toNat)
  let t := buffBackwardT (p + 250) len (buffBackwardT p len t)
  if (movePos.toNat : Int) = m.toNat - 1 then
    (t.mean p (p - 1) 0).mean (p + 250) (p + 250 - 1) 250
  else (t.mean p (p - 1) (p + 1)).mean (p + 250) (p + 250 - 1) (p + 250 + 1)

/-- The loop. -/
def insertPointsT (m insertStep : UInt16) : Nat → UInt16 → Traced → Traced
  | 0, _, t => t
  | k + 1, movePos, t =>
    insertPointsT m insertStep k (movePos + insertStep) (insertPointT m movePos t)

/-- The distance of the inserted points. -/
def insertStep (n m : UInt16) : UInt16 := .ofInt (Int.tdiv m.toNat ((m.toNat : Int) - n.toNat))

/-- All of it, on an array nothing has been done to. -/
def resample (n m : UInt16) (d : SynData) : Traced :=
  insertPointsT m (insertStep n m) (m.toNat - n.toNat) (insertStep n m - 1) ⟨d, [], []⟩

/-! ### It is the same loop -/

theorem backwardLoopT_data {base : Int} {n : Nat} {t : Traced} :
    (backwardLoopT base n t).data = backwardLoop base n t.data := by
  induction n generalizing t with
  | zero => rfl
  | succ n ih =>
      rw [backwardLoopT, ih]
      rfl

theorem buffBackwardT_data {base : Int} {len : UInt16} {t : Traced} :
    (buffBackwardT base len t).data = buffBackward base len t.data := by
  unfold buffBackwardT buffBackward
  dsimp only
  split
  · rfl
  · exact backwardLoopT_data

theorem insertPointT_data {m movePos : UInt16} {t : Traced} :
    (insertPointT m movePos t).data = insertPoint m movePos t.data := by
  unfold insertPointT insertPoint
  dsimp only
  split <;> simp [Traced.mean, buffBackwardT_data]

theorem insertPointsT_data {m step : UInt16} {k : Nat} {movePos : UInt16} {t : Traced} :
    (insertPointsT m step k movePos t).data = insertPoints m step k movePos t.data := by
  induction k generalizing movePos t with
  | zero => rfl
  | succ k ih => rw [insertPointsT, insertPoints, ih, insertPointT_data]

/-! ### What one turn uses -/

section Used

variable {base k : Int} {m movePos step : UInt16} {t : Traced}

theorem mem_used_backwardLoopT {n : Nat} :
    k ∈ (backwardLoopT base n t).used ↔ k ∈ t.used ∨ 0 < n ∧ base ≤ k ∧ k ≤ base + n := by
  induction n generalizing t with
  | zero => simp [backwardLoopT]
  | succ n ih =>
      rw [backwardLoopT, ih]
      simp only [Traced.move, List.mem_append, List.mem_cons, List.not_mem_nil, or_false]
      rw [or_assoc]
      refine or_congr_right ?_
      omega

theorem mem_used_buffBackwardT {len : UInt16} :
    k ∈ (buffBackwardT base len t).used ↔
      k ∈ t.used ∨ 1 < len.toNat ∧ base ≤ k ∧ k ≤ base + len.toNat := by
  unfold buffBackwardT
  dsimp only
  split
  · rename_i hle
    have hle : len.toNat ≤ 1 := UInt16.le_iff_toNat_le.mp hle
    simp [Nat.not_lt.mpr hle]
  · rename_i hlt
    have hlt : 1 < len.toNat := Nat.not_le.mp fun h => hlt (UInt16.le_iff_toNat_le.mpr h)
    rw [mem_used_backwardLoopT]
    simp [hlt, Nat.zero_lt_of_lt hlt]

/-- The length that is shifted. -/
theorem shiftLength (h : movePos.toNat < m.toNat) :
    (UInt16.ofInt ((m.toNat : Int) - movePos.toNat)).toNat = m.toNat - movePos.toNat := by
  have hlt := m.toNat_lt
  simp [UInt16.ofInt]
  omega

/-- The right neighbour of an inserted point in a half. -/
def rightOf (base : Int) (m p : Nat) : Int := if p + 1 = m then base else base + p + 1

theorem mem_used_insertPointT (h : movePos.toNat < m.toNat) (hm : m.toNat ≤ 250) :
    k ∈ (insertPointT m movePos t).used ↔ k ∈ t.used ∨
      (movePos.toNat + 1 < m.toNat ∧ (movePos.toNat ≤ k ∧ k ≤ m.toNat ∨
        movePos.toNat + 250 ≤ k ∧ k ≤ m.toNat + 250)) ∨
      k = movePos.toNat - 1 ∨ k = movePos.toNat ∨ k = rightOf 0 m.toNat movePos.toNat ∨
      k = movePos.toNat + 249 ∨ k = movePos.toNat + 250 ∨
      k = rightOf 250 m.toNat movePos.toNat := by
  have hp : (movePos.toNat : Int) % 250 = movePos.toNat := by omega
  unfold insertPointT rightOf
  dsimp only
  rw [hp]
  by_cases ht : k ∈ t.used
  · split <;> simp [Traced.mean, mem_used_buffBackwardT, ht]
  · split <;>
      · simp only [Traced.mean, List.mem_append, List.mem_cons, List.not_mem_nil, or_false,
          mem_used_buffBackwardT, shiftLength h, ht, false_or]
        split <;> omega

/-- What has been used stays on the list. -/
theorem used_insertPointsT {j : Nat} (h : k ∈ t.used) :
    k ∈ (insertPointsT m step j movePos t).used := by
  induction j generalizing movePos t with
  | zero => exact h
  | succ j ih =>
      rw [insertPointsT]
      refine ih ?_
      unfold insertPointT
      dsimp only
      split <;> simp [Traced.mean, mem_used_buffBackwardT, h]

end Used

/-! ### A turn that stays inside -/

/-- Where a point goes when `l` points are there: behind the first, and in front of the
last unless it is the last place of all. There is room for the shift. -/
structure PointAt (m l p : Nat) : Prop where
  behind : 1 ≤ p
  within : p < l ∨ p = l ∧ l + 1 = m
  last : l < m
  room : m < 250 ∨ m = 250 ∧ p = 249

section Turn

variable {m movePos : UInt16} {l : Nat} {d : SynData} {t : Traced}

theorem PointAt.lt {m l p : Nat} (h : PointAt m l p) : p < m := by
  have := h.within
  have := h.last
  omega

/-- Every index is inside the array. -/
def Traced.Inside (t : Traced) : Prop := ∀ k ∈ t.used, 0 ≤ k ∧ k < 500

/-- No shift has reached the other half. -/
def Traced.Apart (t : Traced) : Prop := ∀ s ∈ t.shifts, s.KeepsOtherHalf

theorem inside_insertPointT (h : PointAt m.toNat l movePos.toNat) (ht : t.Inside) :
    (insertPointT m movePos t).Inside := by
  have hlt := h.lt
  obtain ⟨hbehind, -, -, hroom⟩ := h
  intro k hk
  rw [mem_used_insertPointT hlt (by omega)] at hk
  unfold rightOf at hk
  rcases hk with hk | hk
  · exact ht k hk
  · split at hk <;> omega

theorem buffBackward_apply {base k : Int} {len : UInt16} :
    buffBackward base len d k =
      if 1 < len.toNat ∧ base < k ∧ k ≤ base + len.toNat then d (k - 1) else d k := by
  unfold buffBackward
  split
  · rename_i hle
    have hle : len.toNat ≤ 1 := UInt16.le_iff_toNat_le.mp hle
    rw [if_neg (by omega)]
  · rename_i hlt
    have hlt : 1 < len.toNat := Nat.not_le.mp fun h => hlt (UInt16.le_iff_toNat_le.mpr h)
    rw [backwardLoop_apply]
    simp [hlt]

theorem shifts_buffBackwardT {base : Int} {len : UInt16} :
    (buffBackwardT base len t).shifts =
      t.shifts ++ [⟨base, t.data, buffBackward base len t.data⟩] := by
  rw [← buffBackwardT_data]
  rfl

/-- The two shifts of a turn. -/
theorem shifts_insertPointT :
    (insertPointT m movePos t).shifts = t.shifts ++
      let p : Int := movePos.toNat % 250
      let len := UInt16.ofInt ((m.toNat : Int) - movePos.toNat)
      [⟨p, t.data, buffBackward p len t.data⟩,
        ⟨p + 250, buffBackward p len t.data,
          buffBackward (p + 250) len (buffBackward p len t.data)⟩] := by
  unfold insertPointT
  dsimp only
  split <;> simp [Traced.mean, shifts_buffBackwardT, buffBackwardT_data]

theorem apart_insertPointT (h : PointAt m.toNat l movePos.toNat) (ht : t.Apart) :
    (insertPointT m movePos t).Apart := by
  have hlt := h.lt
  obtain ⟨hbehind, -, -, hroom⟩ := h
  have hp : (movePos.toNat : Int) % 250 = movePos.toNat := by omega
  intro s hs
  rw [shifts_insertPointT, List.mem_append] at hs
  rcases hs with hs | hs
  · exact ht s hs
  · dsimp only at hs
    rw [hp] at hs
    simp only [List.mem_cons, List.not_mem_nil, or_false] at hs
    rcases hs with rfl | rfl
    · intro k hk hside
      dsimp only at hside ⊢
      rw [buffBackward_apply, shiftLength hlt, if_neg (by omega)]
    · intro k hk hside
      dsimp only at hside ⊢
      rw [buffBackward_apply, shiftLength hlt, if_neg (by omega)]

/-- The two halves of the array. -/
def HalfBase (base : Int) : Prop := base = 0 ∨ base = 250

/-- Both shifts together, on the words that are kept of a half. -/
theorem shifted_apply {base : Int} {k : Nat} (hbase : HalfBase base)
    (h : PointAt m.toNat l movePos.toNat) (hk : k < m.toNat) {len : UInt16}
    (hlen : len.toNat = m.toNat - movePos.toNat) :
    buffBackward (movePos.toNat + 250) len (buffBackward movePos.toNat len d) (base + k) =
      if movePos.toNat < k then d (base + k - 1) else d (base + k) := by
  have hlt := h.lt
  obtain ⟨hbehind, -, -, hroom⟩ := h
  simp only [buffBackward_apply, hlen]
  rcases hbase with rfl | rfl
  · -- the second shift is behind this half
    rw [if_neg (by omega)]
    by_cases hpk : movePos.toNat < k
    · rw [if_pos (by omega), if_pos hpk]
    · rw [if_neg (by omega), if_neg hpk]
  · -- the first one ends in front of it
    by_cases hpk : movePos.toNat < k
    · rw [if_pos (by omega), if_neg (by omega), if_pos hpk]
    · rw [if_neg (by omega), if_neg (by omega), if_neg hpk]

/-- The mean that goes between two words of a half. -/
def between (s : SynData) (base : Int) (m p : Nat) : UInt16 :=
  meanOf (shortAt s (base + p - 1)) (shortAt s (rightOf base m p))

/-- A turn: both shifts, then both means. -/
theorem insertPoint_eq (h : PointAt m.toNat l movePos.toNat) {s : SynData}
    (hs : s = buffBackward (movePos.toNat + 250)
      (UInt16.ofInt ((m.toNat : Int) - movePos.toNat))
      (buffBackward movePos.toNat (UInt16.ofInt ((m.toNat : Int) - movePos.toNat)) d)) :
    insertPoint m movePos d =
      Function.update (Function.update s movePos.toNat (between s 0 m.toNat movePos.toNat))
        (movePos.toNat + 250) (between s 250 m.toNat movePos.toNat) := by
  have hlt := h.lt
  obtain ⟨hbehind, -, -, hroom⟩ := h
  have hp : (movePos.toNat : Int) % 250 = movePos.toNat := by omega
  have hkeep : ∀ (v : UInt16) (k : Int), k ≠ movePos.toNat →
      shortAt (Function.update s movePos.toNat v) k = shortAt s k := fun v k hk => by
    simp [shortAt, hk]
  unfold insertPoint between rightOf
  dsimp only
  rw [hp, ← hs]
  split
  · rename_i hlast
    rw [if_pos (by omega), if_pos (by omega), hkeep _ _ (by omega), hkeep _ _ (by omega)]
    simp [Int.add_comm]
  · rename_i hmid
    rw [if_neg (by omega), if_neg (by omega), hkeep _ _ (by omega), hkeep _ _ (by omega)]
    simp [Int.add_comm]

/-- What a turn leaves in a half: the points behind the place one further on, and the
mean of its neighbours in it. -/
theorem insertPoint_apply {base : Int} {k : Nat} (hbase : HalfBase base)
    (h : PointAt m.toNat l movePos.toNat) (hk : k < m.toNat) :
    insertPoint m movePos d (base + k) =
      if k < movePos.toNat then d (base + k)
      else if k = movePos.toNat then
        meanOf (shortAt d (base + movePos.toNat - 1))
          (shortAt d (if movePos.toNat + 1 = m.toNat then base else base + movePos.toNat))
      else d (base + k - 1) := by
  obtain ⟨s, hs⟩ : ∃ s, s = buffBackward (movePos.toNat + 250)
    (UInt16.ofInt ((m.toNat : Int) - movePos.toNat))
    (buffBackward movePos.toNat (UInt16.ofInt ((m.toNat : Int) - movePos.toNat)) d) := ⟨_, rfl⟩
  have hshift : ∀ {b : Int} {j : Nat}, HalfBase b → j < m.toNat →
      s (b + j) = if movePos.toNat < j then d (b + j - 1) else d (b + j) := fun hb hj => by
    rw [hs, shifted_apply hb h hj (shiftLength h.lt)]
  have hlt := h.lt
  have hbehind := h.behind
  have hroom := h.room
  -- both neighbours are where the shift has put them, the right one wrapping round
  have hleft : s (base + movePos.toNat - 1) = d (base + movePos.toNat - 1) := by
    have hsame := hshift (j := movePos.toNat - 1) hbase (by omega)
    rwa [if_neg (by omega), show base + ((movePos.toNat - 1 : Nat) : Int)
      = base + movePos.toNat - 1 by omega] at hsame
  have hright : s (rightOf base m.toNat movePos.toNat) =
      d (if movePos.toNat + 1 = m.toNat then base else base + movePos.toNat) := by
    unfold rightOf
    split
    · have hfirst := hshift (j := 0) hbase (by omega)
      rwa [if_neg (by omega), Int.natCast_zero, Int.add_zero] at hfirst
    · have hnext := hshift (j := movePos.toNat + 1) hbase (by omega)
      rwa [if_pos (by omega), Int.natCast_add, Int.natCast_one, ← Int.add_assoc,
        Int.add_sub_cancel] at hnext
  have hbetween : between s base m.toNat movePos.toNat =
      meanOf (shortAt d (base + movePos.toNat - 1))
        (shortAt d (if movePos.toNat + 1 = m.toNat then base else base + movePos.toNat)) := by
    unfold between shortAt
    rw [hleft, hright]
  rw [insertPoint_eq h hs]
  -- before, at and behind the new point; the other half's write is elsewhere
  rcases Nat.lt_trichotomy k movePos.toNat with hkp | rfl | hkp
  · have hsame : s (base + k) = d (base + k) := by rw [hshift hbase hk, if_neg (by omega)]
    rw [if_pos hkp, ← hsame]
    rcases hbase with rfl | rfl <;>
      rw [Function.update_of_ne (by omega), Function.update_of_ne (by omega)]
  · rw [if_neg (by omega), if_pos rfl, ← hbetween]
    rcases hbase with rfl | rfl
    · rw [Function.update_of_ne (by omega), Int.zero_add, Function.update_self]
    · rw [Int.add_comm, Function.update_self]
  · have hmoved : s (base + k) = d (base + k - 1) := by rw [hshift hbase hk, if_pos hkp]
    rw [if_neg (by omega), if_neg (by omega), ← hmoved]
    rcases hbase with rfl | rfl <;>
      rw [Function.update_of_ne (by omega), Function.update_of_ne (by omega)]

end Turn

/-! ### The halves as series -/

/-- The first words of a half. -/
def SynData.half (d : SynData) (base : Int) (len : Nat) : List UInt16 :=
  (List.range len).map fun k : Nat => d (base + k)

/-- The mean of two words of the array. -/
def meanWord (a b : UInt16) : UInt16 := meanOf a.toInt16.toInt b.toInt16.toInt

theorem SynData.getElem?_half {d : SynData} {base : Int} {len k : Nat} (h : k < len) :
    (d.half base len)[k]? = some (d (base + k)) := by
  simp [half, h]

theorem SynData.half_add (d : SynData) (base : Int) (p q : Nat) :
    d.half base (p + q) = d.half base p ++ d.half (base + p) q := by
  simp [half, List.range_add, Int.add_assoc]

theorem SynData.half_congr {d d' : SynData} {base base' : Int} {len : Nat}
    (h : ∀ k < len, d (base + k) = d' (base' + k)) : d.half base len = d'.half base' len :=
  List.map_congr_left fun k hk => h k (List.mem_range.mp hk)

section Series

variable {m movePos step : UInt16} {l : Nat} {d : SynData} {base : Int} {xs : List UInt16}

/-- A turn inserts one point into each half. -/
theorem half_insertPoint (hbase : HalfBase base) (h : PointAt m.toNat l movePos.toNat) :
    (insertPoint m movePos d).half base (l + 1) =
      (d.half base l).take movePos.toNat ++
        meanWord (d (base + movePos.toNat - 1))
          (d (if movePos.toNat + 1 = m.toNat then base else base + movePos.toNat)) ::
        (d.half base l).drop movePos.toNat := by
  have hlast := h.last
  have hpl : movePos.toNat ≤ l := by
    have := h.within
    omega
  obtain ⟨q, rfl⟩ := Nat.exists_eq_add_of_le hpl
  have hfront : (insertPoint m movePos d).half base movePos.toNat =
      d.half base movePos.toNat :=
    SynData.half_congr fun k hk => by rw [insertPoint_apply hbase h (by omega), if_pos hk]
  have hback : (insertPoint m movePos d).half (base + movePos.toNat + 1) q =
      d.half (base + movePos.toNat) q :=
    SynData.half_congr fun k hk => by
      have hword := insertPoint_apply (d := d) (k := movePos.toNat + 1 + k) hbase h (by omega)
      rw [if_neg (by omega), if_neg (by omega)] at hword
      rw [show base + movePos.toNat + 1 + (k : Int)
        = base + ((movePos.toNat + 1 + k : Nat) : Int) by omega, hword]
      congr 1
      omega
  -- in front of the point, the point itself, and behind it
  rw [show movePos.toNat + q + 1 = movePos.toNat + (1 + q) by omega, SynData.half_add,
    SynData.half_add _ _ 1, SynData.half_add, hfront, List.take_left' (by simp [SynData.half]),
    List.drop_left' (by simp [SynData.half])]
  refine congrArg (d.half base movePos.toNat ++ ·) ?_
  rw [Int.natCast_one, hback]
  have hword := insertPoint_apply (d := d) (k := movePos.toNat) hbase h h.lt
  rw [if_neg (Nat.lt_irrefl _), if_pos rfl] at hword
  refine congrArg (· :: d.half (base + movePos.toNat) q) ?_
  simpa [meanWord, shortAt] using hword

/-- A half that is the measurements with points inserted is so after another turn. -/
theorem filled_insertPoint (hbase : HalfBase base) (h : PointAt m.toNat l movePos.toNat)
    (hd : Filled meanWord xs (d.half base l)) :
    Filled meanWord xs ((insertPoint m movePos d).half base (l + 1)) := by
  rw [half_insertPoint hbase h]
  obtain ⟨hbehind, hwithin, hlast, -⟩ := h
  refine hd.insertAt hbehind ?_ ?_
  · rw [SynData.getElem?_half (by omega)]
    congr 2
    omega
  · have hlen : (d.half base l).length = l := by simp [SynData.half]
    rw [hlen]
    rcases hwithin with hlt | ⟨rfl, hm⟩
    · rw [if_pos hlt, if_neg (by omega), SynData.getElem?_half hlt]
    · rw [if_neg (Nat.lt_irrefl _), if_pos hm, SynData.getElem?_half (by omega)]
      simp

/-! ### The loop -/

/-- **The rule for the loop** in steps of two or more: what a turn at a place that is
right keeps, with one more point, holds at the end with `m` of them. -/
theorem insertPointsT_rule {P : Nat → Traced → Prop} (hm : m.toNat ≤ 250)
    (hstep : 2 ≤ step.toNat)
    (hturn : ∀ l movePos t, PointAt m.toNat l movePos.toNat → P l t →
      P (l + 1) (insertPointT m movePos t)) :
    ∀ {k : Nat} {movePos : UInt16} {l : Nat} {t : Traced}, l + k = m.toNat →
      1 ≤ movePos.toNat → movePos.toNat + step.toNat * k < m.toNat + step.toNat →
      (m.toNat < 250 ∨ k = 0 ∨ k = 1 ∧ movePos.toNat = 249) → P l t →
      P m.toNat (insertPointsT m step k movePos t) := by
  intro k
  induction k with
  | zero =>
      intro movePos l t hl _ _ _ ht
      rw [insertPointsT]
      obtain rfl : l = m.toNat := hl
      exact ht
  | succ k ih =>
      intro movePos l t hl hpos hlt hroom ht
      rw [Nat.mul_succ] at hlt
      have hstride : 2 * k ≤ step.toNat * k := Nat.mul_le_mul_right k hstep
      have hat : PointAt m.toNat l movePos.toNat :=
        { behind := hpos
          within := by omega
          last := by omega
          room := by omega }
      rw [insertPointsT]
      rcases Nat.eq_zero_or_pos k with rfl | hk
      · -- the last point
        rw [insertPointsT, ← hl]
        exact hturn l movePos t hat ht
      · have hnext : (movePos + step).toNat = movePos.toNat + step.toNat := by
          have := Nat.le_mul_of_pos_right step.toNat hk
          rw [UInt16.toNat_add]
          omega
        exact ih (by omega) (by omega) (by omega) (by omega) (hturn l movePos t hat ht)

/-! ### Filling up -/

variable {n : UInt16} {t : Traced}

/-- The distance is the quotient. -/
theorem toNat_insertStep (h : n.toNat < m.toNat) :
    (insertStep n m).toNat = m.toNat / (m.toNat - n.toNat) := by
  have hdiff : ((m.toNat : Int) - n.toNat) = ((m.toNat - n.toNat : Nat) : Int) := by omega
  have hlt := m.toNat_lt
  have hpos : 1 ≤ m.toNat / (m.toNat - n.toNat) := Nat.div_pos (Nat.sub_le _ _) (by omega)
  have hle : m.toNat / (m.toNat - n.toNat) ≤ m.toNat := Nat.div_le_self _ _
  unfold insertStep
  rw [hdiff, ← Int.ofNat_tdiv]
  simp [UInt16.ofInt]
  omega

/-- The first place. -/
theorem toNat_firstPlace (h : n.toNat < m.toNat) :
    (insertStep n m - 1).toNat = m.toNat / (m.toNat - n.toNat) - 1 := by
  have hpos : 1 ≤ m.toNat / (m.toNat - n.toNat) := Nat.div_pos (Nat.sub_le _ _) (by omega)
  have hone : (1 : UInt16) ≤ insertStep n m := by
    rw [UInt16.le_iff_toNat_le, toNat_insertStep h]
    exact hpos
  rw [UInt16.toNat_sub_of_le _ _ hone, toNat_insertStep h]
  rfl

/-- At least half of the points are measured, and where the array is full at the end at
most one is missing. -/
def FitsArray (n m : UInt16) : Prop :=
  m.toNat ≤ 2 * n.toNat ∧ (m.toNat < 250 ∨ n.toNat = 249)

/-- What a turn at a right place keeps, filling up keeps. -/
theorem resample_rule {P : Nat → Traced → Prop} (hlt : n.toNat < m.toNat) (hm : m.toNat ≤ 250)
    (hfits : FitsArray n m)
    (hturn : ∀ l movePos t, PointAt m.toNat l movePos.toNat → P l t →
      P (l + 1) (insertPointT m movePos t)) (hd : P n.toNat ⟨d, [], []⟩) :
    P m.toNat (resample n m d) := by
  obtain ⟨hhalf, hroom⟩ := hfits
  have hmul : m.toNat / (m.toNat - n.toNat) * (m.toNat - n.toNat) ≤ m.toNat :=
    Nat.div_mul_le_self _ _
  have htwo : 2 ≤ m.toNat / (m.toNat - n.toNat) := by
    rw [Nat.le_div_iff_mul_le (by omega)]
    omega
  have hfull : m.toNat < 250 ∨ m.toNat - n.toNat = 1 ∧
      m.toNat / (m.toNat - n.toNat) = 250 := by
    rcases hroom with h | h
    · exact .inl h
    · have h250 : m.toNat = 250 := by omega
      exact .inr (by simp [h, h250])
  refine insertPointsT_rule hm (by rwa [toNat_insertStep hlt]) hturn (by omega) ?_ ?_ ?_ hd
  · rw [toNat_firstPlace hlt]
    omega
  · rw [toNat_firstPlace hlt, toNat_insertStep hlt]
    omega
  · rw [toNat_firstPlace hlt]
    omega

/-- The first turn's indices are among those used. -/
theorem used_of_first {k : Int} (hlt : n.toNat < m.toNat)
    (h : k ∈ (insertPointT m (insertStep n m - 1) ⟨d, [], []⟩).used) :
    k ∈ (resample n m d).used := by
  obtain ⟨j, hj⟩ : ∃ j, m.toNat - n.toNat = j + 1 := ⟨m.toNat - n.toNat - 1, by omega⟩
  unfold resample
  rw [hj, insertPointsT]
  exact used_insertPointsT h

/-- Where it does not fit, an index outside is used. -/
theorem not_inside_resample (hlt : n.toNat < m.toNat) (hm : m.toNat ≤ 250)
    (hfits : ¬ FitsArray n m) : ¬ (resample n m d).Inside := by
  intro hin
  have hfirst := toNat_firstPlace hlt
  have hplace : (insertStep n m - 1).toNat < m.toNat := by
    have := Nat.div_le_self m.toNat (m.toNat - n.toNat)
    have : 1 ≤ m.toNat / (m.toNat - n.toNat) := Nat.div_pos (Nat.sub_le _ _) (by omega)
    omega
  by_cases hhalf : m.toNat ≤ 2 * n.toNat
  · -- the array is full at the end: the shift of the power goes one too far
    have hfull : m.toNat = 250 ∧ n.toNat ≤ 248 := by
      unfold FitsArray at hfits
      omega
    have hstep : m.toNat / (m.toNat - n.toNat) < 126 := by
      rw [Nat.div_lt_iff_lt_mul (by omega)]
      omega
    have hused : (500 : Int) ∈ (resample n m d).used := by
      refine used_of_first hlt ((mem_used_insertPointT hplace hm).mpr (.inr (.inl ?_)))
      omega
    exact absurd (hin _ hused) (by omega)
  · -- the first place has no left neighbour
    have hstep : m.toNat / (m.toNat - n.toNat) < 2 := by
      rw [Nat.div_lt_iff_lt_mul (by omega)]
      omega
    have hused : (-1 : Int) ∈ (resample n m d).used := by
      refine used_of_first hlt ((mem_used_insertPointT hplace hm).mpr (.inr (.inr (.inl ?_))))
      omega
    exact absurd (hin _ hused) (by omega)

/-- A diagram that was filled up as it should be: no index outside, no shift into the other
half, and each half the measurements with means of neighbours between them. -/
structure FilledUp (n m : UInt16) (currents powers : List UInt16) (d : SynData) : Prop where
  inside : (resample n m d).Inside
  apart : (resample n m d).Apart
  current : Filled meanWord currents ((resample n m d).data.half 0 m.toNat)
  power : Filled meanWord powers ((resample n m d).data.half 250 m.toNat)

/-- The measurements are still there, in the order they were made. -/
theorem FilledUp.inOrder {currents powers : List UInt16} (h : FilledUp n m currents powers d) :
    currents.Sublist ((resample n m d).data.half 0 m.toNat) ∧
      powers.Sublist ((resample n m d).data.half 250 m.toNat) :=
  ⟨h.current.sublist, h.power.sublist⟩

/-- **A diagram is filled up as it should be exactly when it fits.** -/
theorem filledUp_iff (hlt : n.toNat < m.toNat) (hm : m.toNat ≤ 250) :
    FilledUp n m (d.half 0 n.toNat) (d.half 250 n.toNat) d ↔ FitsArray n m := by
  constructor
  · intro h
    by_contra hfits
    exact not_inside_resample hlt hm hfits h.inside
  · intro hfits
    exact
      { inside := resample_rule (P := fun _ t => t.Inside) hlt hm hfits
          (fun _ _ _ => inside_insertPointT) (by simp [Traced.Inside])
        apart := resample_rule (P := fun _ t => t.Apart) hlt hm hfits
          (fun _ _ _ => apart_insertPointT) (by simp [Traced.Apart])
        current := resample_rule
          (P := fun l t => Filled meanWord (d.half 0 n.toNat) (t.data.half 0 l)) hlt hm hfits
          (fun _ _ _ hat ht => by
            rw [insertPointT_data]
            exact filled_insertPoint (.inl rfl) hat ht) .measured
        power := resample_rule
          (P := fun l t => Filled meanWord (d.half 250 n.toNat) (t.data.half 250 l)) hlt hm hfits
          (fun _ _ _ hat ht => by
            rw [insertPointT_data]
            exact filled_insertPoint (.inr rfl) hat ht) .measured }

end Series

end RtuA118
