import Mathlib.Data.Int.Bitwise
import RtuA118.Lib.Machine
import RtuA118.Lib.Undo

/-!
# RtuA118.Tools.Xxtea

The cipher of `xxtea.py`: `btea` changes a list of words in place, one word at a time, and each by
what it computes from the word's two **neighbours on the ring**.

The program is a machine that changes one word in a step, so that what holds of every state on
the way holds of every intermediate word.
-/

namespace RtuA118

namespace Xxtea

open Machine

/-- `u32`: the lowest 32 bits. -/
def u32 (x : Int) : Int := x % 2 ^ 32

def delta : Int := 0x9e3779b9

/-- Where the program stands: at the test of an outer loop, or in its body. -/
inductive Point where
  | encryptHead
  | encryptBody
  | decryptHead
  | decryptBody
  deriving DecidableEq

/-- The variables of `btea`. `rounds` counts how often the body of an outer loop was entered. -/
structure Vars where
  v : List Int
  n : Nat
  y : Int
  z : Int
  sum : Int
  q : Nat
  e : Nat
  p : Nat
  rounds : Nat
  point : Point

/-- What a call comes to: an `IndexError`, or what it returns and the list it leaves. -/
abbrev Result := Option (Bool × List Int)

/-- `MX`, for a key of any four integers. -/
def mx (k : Fin 4 → Int) (z y sum : Int) (p e : Nat) : Int :=
  Int.xor (Int.xor (z >>> 5) (y <<< (2 : Nat)) + Int.xor (y >>> 3) (z <<< (4 : Nat)))
    (Int.xor sum y + Int.xor (k (Fin.ofNat 4 ((p &&& 3) ^^^ e))) z)

/-- `e`, which the round's sum selects. -/
def selector (sum : Int) : Nat := (u32 (sum >>> 2) % 4).toNat

/-- `btea(v, n, k)` up to the test of its loop. -/
def bteaStart (v : List Int) (n : Int) : Vars ⊕ Result :=
  match v[0]? with
  | none => .inr none
  | some y =>
      if 1 < n then
        match v[n.toNat - 1]? with
        | none => .inr none
        | some z => .inl ⟨v, n.toNat, y, z, 0, 6 + 52 / n.toNat, 0, 0, 0, .encryptHead⟩
      else if n < -1 then
        let n := (-n).toNat
        let q := 6 + 52 / n
        -- `z` is unbound until the first word
        .inl ⟨v, n, y, 0, u32 (q * delta), q, 0, 0, 0, .decryptHead⟩
      else .inr (some (false, v))

/-- The next word, or the next test of a loop. -/
def bteaStep (k : Fin 4 → Int) (s : Vars) : Vars ⊕ Result :=
  match s.point with
  | .encryptHead =>
      if s.q > 0 then
        let sum := u32 (s.sum + delta)
        .inl { s with q := s.q - 1, sum, e := selector sum, p := 0, rounds := s.rounds + 1,
                      point := .encryptBody }
      else .inr (some (true, s.v))
  | .encryptBody =>
      if s.p < s.n - 1 then
        match s.v[s.p + 1]?, s.v[s.p]? with
        | some y, some w =>
            let z := u32 (w + mx k s.z y s.sum s.p s.e)
            .inl { s with v := s.v.set s.p z, y, z, p := s.p + 1 }
        | _, _ => .inr none
      else
        match s.v[0]?, s.v[s.n - 1]? with
        | some y, some w =>
            let z := u32 (w + mx k s.z y s.sum s.p s.e)
            .inl { s with v := s.v.set (s.n - 1) z, y, z, point := .encryptHead }
        | _, _ => .inr none
  | .decryptHead =>
      if s.sum ≠ 0 then
        .inl { s with e := selector s.sum, p := s.n - 1, rounds := s.rounds + 1,
                      point := .decryptBody }
      else .inr (some (true, s.v))
  | .decryptBody =>
      if s.p > 0 then
        match s.v[s.p - 1]?, s.v[s.p]? with
        | some z, some w =>
            let y := u32 (w - mx k z s.y s.sum s.p s.e)
            .inl { s with v := s.v.set s.p y, y, z, p := s.p - 1 }
        | _, _ => .inr none
      else
        match s.v[s.n - 1]?, s.v[0]? with
        | some z, some w =>
            let y := u32 (w - mx k z s.y s.sum s.p s.e)
            .inl { s with v := s.v.set 0 y, y, z, sum := u32 (s.sum - delta),
                          point := .decryptHead }
        | _, _ => .inr none

/-- The state is on the way of `btea(v, n, k)`. -/
def OnTheWay (k : Fin 4 → Int) (v : List Int) (n : Int) (s : Vars) : Prop :=
  ∃ s₀ m, bteaStart v n = .inl s₀ ∧ RunsTo (bteaStep k) m s₀ s

/-! ### One word -/

/-- The neighbours of a word. -/
def next (n p : Nat) : Nat := if p < n - 1 then p + 1 else 0
def prev (n p : Nat) : Nat := if p > 0 then p - 1 else n - 1

/-- What a word is combined with. -/
def mix (k : Fin 4 → Int) (sum : Int) (p : Nat) (v : List Int) : Int :=
  mx k (v.getD (prev v.length p) 0) (v.getD (next v.length p) 0) sum p (selector sum)

def encryptWord (k : Fin 4 → Int) (sum : Int) : List Int → Nat → List Int :=
  Undo.update 0 (fun w m => u32 (w + m)) (mix k sum)

def decryptWord (k : Fin 4 → Int) (sum : Int) : List Int → Nat → List Int :=
  Undo.update 0 (fun w m => u32 (w - m)) (mix k sum)

def IsWord (w : Int) : Prop := 0 ≤ w ∧ w < 2 ^ 32

instance (w : Int) : Decidable (IsWord w) := inferInstanceAs (Decidable (_ ∧ _))

section Word

variable {k : Fin 4 → Int} {sum : Int} {v : List Int} {p : Nat}

theorem isWord_u32 (x : Int) : IsWord (u32 x) :=
  ⟨Int.emod_nonneg x (by decide), Int.emod_lt_of_pos x (by decide)⟩

theorem u32_of_isWord {w : Int} (h : IsWord w) : u32 w = w := Int.emod_eq_of_lt h.1 h.2

theorem u32_sub_u32_add (w m : Int) : u32 (u32 (w + m) - m) = u32 w := by
  rw [u32, u32, Int.emod_sub_emod, Int.add_sub_cancel, u32]

/-- A word is none of its neighbours. -/
theorem next_ne (hn : 2 ≤ v.length) : next v.length p ≠ p := by
  unfold next
  split <;> omega

theorem prev_ne (hn : 2 ≤ v.length) : prev v.length p ≠ p := by
  unfold prev
  split <;> omega

theorem mix_set (hn : 2 ≤ v.length) (w : Int) : mix k sum p (v.set p w) = mix k sum p v := by
  have hother : ∀ i, i ≠ p → (v.set p w).getD i 0 = v.getD i 0 := fun i hi => by
    simp [List.getElem?_set_ne hi.symm]
  rw [mix, mix, List.length_set, hother _ (next_ne hn), hother _ (prev_ne hn)]

theorem decryptWord_encryptWord (hn : 2 ≤ v.length) (hp : p < v.length)
    (hv : ∀ w ∈ v, IsWord w) : decryptWord k sum (encryptWord k sum v p) p = v :=
  Undo.update_update hp hv (mix_set hn)
    fun w m hw => (u32_sub_u32_add w m).trans (u32_of_isWord hw)

@[simp] theorem encryptWord_length : (encryptWord k sum v p).length = v.length :=
  Undo.update_length v p

@[simp] theorem decryptWord_length : (decryptWord k sum v p).length = v.length :=
  Undo.update_length v p

end Word

/-! ### Rounds -/

def encryptRound (k : Fin 4 → Int) (sum : Int) (v : List Int) : List Int :=
  (List.range v.length).foldl (encryptWord k sum) v

def decryptRound (k : Fin 4 → Int) (sum : Int) (v : List Int) : List Int :=
  (List.range v.length).reverse.foldl (decryptWord k sum) v

/-- The sum of round `j`. -/
def sumAt (j : Nat) : Int := u32 (j * delta)

/-- The list after `j` rounds. -/
def encryptRounds (k : Fin 4 → Int) : Nat → List Int → List Int
  | 0, v => v
  | j + 1, v => encryptRound k (sumAt (j + 1)) (encryptRounds k j v)

section Round

variable {k : Fin 4 → Int} {sum : Int} {v : List Int}

/-- A list of `n` words. -/
def IsBlock (n : Nat) (v : List Int) : Prop := v.length = n ∧ ∀ w ∈ v, IsWord w

theorem IsBlock.encryptWord {n : Nat} (h : IsBlock n v) (p : Nat) :
    IsBlock n (encryptWord k sum v p) :=
  ⟨encryptWord_length.trans h.1, Undo.update_valid (fun _ _ => isWord_u32 _) h.2 p⟩

theorem IsBlock.encryptRound {n : Nat} (h : IsBlock n v) : IsBlock n (encryptRound k sum v) :=
  Undo.foldl_keep (P := IsBlock n) (fun p _ _ hw => hw.encryptWord p) h

theorem IsBlock.encryptRounds {n : Nat} (h : IsBlock n v) (j : Nat) :
    IsBlock n (encryptRounds k j v) := by
  induction j with
  | zero => exact h
  | succ j ih => exact ih.encryptRound

/-- **A round is undone** word by word, from the last one to the first. -/
theorem decryptRound_encryptRound {n : Nat} (hn : 2 ≤ n) (h : IsBlock n v) :
    decryptRound k sum (encryptRound k sum v) = v := by
  rw [decryptRound, h.encryptRound.1, encryptRound, h.1]
  refine Undo.foldl_undo (P := IsBlock n) (fun p _ _ hw => hw.encryptWord p)
    (fun p hp w hw => ?_) h
  have hp : p < n := List.mem_range.1 hp
  exact decryptWord_encryptWord (hw.1 ▸ hn) (hw.1 ▸ hp) hw.2

@[simp] theorem sumAt_zero : sumAt 0 = 0 := rfl

theorem u32_sumAt_add (j : Nat) : u32 (sumAt j + delta) = sumAt (j + 1) := by
  rw [sumAt, sumAt, u32, u32, u32, Int.emod_add_emod, Int.natCast_add, Int.add_mul]
  rfl

theorem u32_sumAt_sub (j : Nat) : u32 (sumAt (j + 1) - delta) = sumAt j := by
  rw [← u32_sumAt_add, u32_sub_u32_add]
  exact u32_of_isWord (isWord_u32 _)

/-- **The sum is 0** before the first round only: `delta` is odd. -/
theorem sumAt_ne_zero {j : Nat} (h0 : 0 < j) (h : j < 2 ^ 32) : sumAt j ≠ 0 := by
  intro hsum
  have hdvd : (2 ^ 32 : Nat) ∣ j * 0x9e3779b9 := by
    have hint : (2 ^ 32 : Int) ∣ j * 0x9e3779b9 := Int.dvd_of_emod_eq_zero hsum
    exact_mod_cast hint
  have hcoprime : Nat.Coprime (2 ^ 32) 0x9e3779b9 := by decide
  exact absurd (Nat.le_of_dvd h0 (hcoprime.dvd_of_dvd_mul_right hdvd)) (Nat.not_le.2 h)

end Round

/-! ### The machine goes through the rounds -/

/-- The program before word `p` of a round, and at the test after a round. -/
def encryptAt (v : List Int) (sum : Int) (q r p : Nat) (y : Int) : Vars :=
  ⟨v, v.length, y, v.getD (prev v.length p) 0, sum, q, selector sum, p, r, .encryptBody⟩

def encryptTest (v : List Int) (sum : Int) (q r p e : Nat) (y : Int) : Vars :=
  ⟨v, v.length, y, v.getD (v.length - 1) 0, sum, q, e, p, r, .encryptHead⟩

def decryptAt (v : List Int) (sum : Int) (q r p : Nat) (z : Int) : Vars :=
  ⟨v, v.length, v.getD (next v.length p) 0, z, sum, q, selector sum, p, r, .decryptBody⟩

def decryptTest (v : List Int) (sum : Int) (q r p e : Nat) (z : Int) : Vars :=
  ⟨v, v.length, v.getD 0 0, z, sum, q, e, p, r, .decryptHead⟩

section Machine

variable {k : Fin 4 → Int} {sum : Int} {v : List Int} {q r p e : Nat} {x : Int}

theorem getElem?_eq_some_getD {i : Nat} (h : i < v.length) : v[i]? = some (v.getD i 0) := by
  rw [List.getElem?_eq_getElem h, List.getD_eq_getElem v 0 h]

/-- The word that was changed. -/
theorem getD_encryptWord (hp : p < v.length) :
    (encryptWord k sum v p).getD p 0 = u32 (v.getD p 0 + mix k sum p v) := by
  simp [encryptWord, Undo.update, hp]

theorem getD_decryptWord (hp : p < v.length) :
    (decryptWord k sum v p).getD p 0 = u32 (v.getD p 0 - mix k sum p v) := by
  simp [decryptWord, Undo.update, hp]

theorem encryptAt_step (hp : p + 1 < v.length) :
    bteaStep k (encryptAt v sum q r p x) =
      .inl (encryptAt (encryptWord k sum v p) sum q r (p + 1) (v.getD (p + 1) 0)) := by
  have hlt : p < v.length - 1 := by omega
  have hy := getElem?_eq_some_getD hp
  have hw := getElem?_eq_some_getD (Nat.lt_of_succ_lt hp)
  have hnext : next v.length p = p + 1 := if_pos hlt
  have hprev : prev v.length (p + 1) = p := if_pos p.succ_pos
  have hz := @getD_encryptWord k sum v p (Nat.lt_of_succ_lt hp)
  simp only [bteaStep, encryptAt, hlt, ↓reduceIte, hy, hw, encryptWord_length, hprev, hz]
  simp only [encryptWord, Undo.update, mix, hnext]

theorem encryptAt_last (hn : 0 < v.length) (hp : p + 1 = v.length) :
    bteaStep k (encryptAt v sum q r p x) =
      .inl (encryptTest (encryptWord k sum v p) sum q r p (selector sum) (v.getD 0 0)) := by
  have hlast : v.length - 1 = p := by omega
  have hy := getElem?_eq_some_getD hn
  have hw := getElem?_eq_some_getD (show p < v.length by omega)
  have hnext : next v.length p = 0 := if_neg (by omega)
  have hz := @getD_encryptWord k sum v p (by omega)
  simp only [bteaStep, encryptAt, encryptTest, hlast, Nat.lt_irrefl, ↓reduceIte, hy, hw,
    encryptWord_length, hz]
  simp only [encryptWord, Undo.update, mix, hnext]

theorem encryptTest_step :
    bteaStep k (encryptTest v sum (q + 1) r p e x) =
      .inl (encryptAt v (u32 (sum + delta)) q (r + 1) 0 x) := rfl

theorem encryptTest_done :
    bteaStep k (encryptTest v sum 0 r p e x) = .inr (some (true, v)) := rfl

theorem decryptAt_step (hp : p + 1 < v.length) :
    bteaStep k (decryptAt v sum q r (p + 1) x) =
      .inl (decryptAt (decryptWord k sum v (p + 1)) sum q r p (v.getD p 0)) := by
  have hz := getElem?_eq_some_getD (Nat.lt_of_succ_lt hp)
  have hw := getElem?_eq_some_getD hp
  have hnext : next v.length p = p + 1 := if_pos (by omega)
  have hprev : prev v.length (p + 1) = p := if_pos p.succ_pos
  have hy := @getD_decryptWord k sum v (p + 1) hp
  simp only [bteaStep, decryptAt, gt_iff_lt, Nat.zero_lt_succ, ↓reduceIte, Nat.add_sub_cancel, hz,
    hw, decryptWord_length, hnext, hy]
  simp only [decryptWord, Undo.update, mix, hprev]

theorem decryptAt_last (hn : 0 < v.length) :
    bteaStep k (decryptAt v sum q r 0 x) =
      .inl (decryptTest (decryptWord k sum v 0) (u32 (sum - delta)) q r 0 (selector sum)
        (v.getD (v.length - 1) 0)) := by
  have hz := getElem?_eq_some_getD (Nat.sub_lt hn Nat.one_pos)
  have hw := getElem?_eq_some_getD hn
  have hprev : prev v.length 0 = v.length - 1 := if_neg (Nat.lt_irrefl 0)
  have hy := @getD_decryptWord k sum v 0 hn
  simp only [bteaStep, decryptAt, decryptTest, gt_iff_lt, Nat.lt_irrefl, ↓reduceIte, hz, hw,
    decryptWord_length, hy]
  simp only [decryptWord, Undo.update, mix, hprev]

theorem decryptTest_step (hsum : sum ≠ 0) :
    bteaStep k (decryptTest v sum q r p e x) =
      .inl (decryptAt v sum q (r + 1) (v.length - 1) x) := by
  have hnext : next v.length (v.length - 1) = 0 := if_neg (Nat.lt_irrefl _)
  simp only [bteaStep, decryptTest, decryptAt, hnext]
  exact if_pos hsum

theorem decryptTest_done : bteaStep k (decryptTest v 0 q r p e x) = .inr (some (true, v)) := rfl

/-- The rest of a round. -/
theorem encryptAt_run {d : Nat} (hp : p + (d + 1) = v.length) :
    ∃ m p' e' y, RunsTo (bteaStep k) m (encryptAt v sum q r p x)
      (encryptTest ((List.range' p (d + 1)).foldl (encryptWord k sum) v) sum q r p' e' y) := by
  induction d generalizing v p x with
  | zero => exact ⟨1, p, selector sum, v.getD 0 0, .one (encryptAt_last (by omega) hp)⟩
  | succ d ih =>
      have hrest : p + 1 + (d + 1) = (encryptWord k sum v p).length := by
        rw [encryptWord_length]
        omega
      obtain ⟨m, p', e', y, hrun⟩ := ih hrest
      exact ⟨m + 1, p', e', y, .succ (encryptAt_step (by omega)) hrun⟩

theorem encryptTest_round (hn : 0 < v.length) :
    ∃ m p' e' y, RunsTo (bteaStep k) m (encryptTest v sum (q + 1) r p e x)
      (encryptTest (encryptRound k (u32 (sum + delta)) v) (u32 (sum + delta)) q (r + 1) p' e'
        y) := by
  obtain ⟨d, hd⟩ := Nat.exists_eq_succ_of_ne_zero hn.ne'
  obtain ⟨m, p', e', y, hrun⟩ := @encryptAt_run k (u32 (sum + delta)) v q (r + 1) 0 x d (by omega)
  rw [show d + 1 = v.length from hd.symm, ← List.range_eq_range'] at hrun
  exact ⟨m + 1, p', e', y, .succ encryptTest_step hrun⟩

/-- The rest of a round, backwards. -/
theorem decryptAt_run (hp : p < v.length) :
    ∃ m p' e' z, RunsTo (bteaStep k) m (decryptAt v sum q r p x)
      (decryptTest ((List.range (p + 1)).reverse.foldl (decryptWord k sum) v) (u32 (sum - delta))
        q r p' e' z) := by
  induction p generalizing v x with
  | zero => exact ⟨1, 0, selector sum, v.getD (v.length - 1) 0, .one (decryptAt_last hp)⟩
  | succ p ih =>
      have hrest : p < (decryptWord k sum v (p + 1)).length := by
        rw [decryptWord_length]
        exact Nat.lt_of_succ_lt hp
      obtain ⟨m, p', e', z, hrun⟩ := ih hrest
      rw [List.range_succ, List.reverse_concat, List.foldl_cons]
      exact ⟨m + 1, p', e', z, .succ (decryptAt_step hp) hrun⟩

theorem decryptTest_round (hn : 0 < v.length) (hsum : sum ≠ 0) :
    ∃ m p' e' z, RunsTo (bteaStep k) m (decryptTest v sum q r p e x)
      (decryptTest (decryptRound k sum v) (u32 (sum - delta)) q (r + 1) p' e' z) := by
  obtain ⟨m, p', e', z, hrun⟩ := @decryptAt_run k sum v q (r + 1) (v.length - 1) x
    (Nat.sub_lt hn Nat.one_pos)
  rw [Nat.sub_add_cancel hn] at hrun
  exact ⟨m + 1, p', e', z, .succ (decryptTest_step hsum) hrun⟩

end Machine

section Run

variable {k : Fin 4 → Int} {v : List Int} {n j q r p e : Nat} {x : Int}

/-- **The encrypting loop** goes through its rounds. -/
theorem encrypt_run (hn : 2 ≤ n) (hv : IsBlock n v) :
    ∃ m p' e' y, RunsTo (bteaStep k) m (encryptTest (encryptRounds k j v) (sumAt j) q j p e x)
      (encryptTest (encryptRounds k (j + q) v) (sumAt (j + q)) 0 (j + q) p' e' y) := by
  induction q generalizing j p e x with
  | zero => exact ⟨0, p, e, x, .zero _⟩
  | succ q ih =>
      have hlen : 0 < (encryptRounds k j v).length := by
        rw [(hv.encryptRounds j).1]
        omega
      obtain ⟨m, p', e', y, hround⟩ := @encryptTest_round k (sumAt j) _ q j p e x hlen
      obtain ⟨m', p'', e'', y', hrun⟩ := @ih (j + 1) p' e' y
      rw [u32_sumAt_add] at hround
      rw [Nat.add_right_comm] at hrun
      exact ⟨m + m', p'', e'', y', hround.trans hrun⟩

/-- **The decrypting loop** undoes them, as many as there were. -/
theorem decrypt_run (hn : 2 ≤ n) (hv : IsBlock n v) (hj : j < 2 ^ 32) :
    ∃ m p' e' z, RunsTo (bteaStep k) m (decryptTest (encryptRounds k j v) (sumAt j) q r p e x)
      (decryptTest v 0 q (r + j) p' e' z) := by
  induction j generalizing r p e x with
  | zero => exact ⟨0, p, e, x, .zero _⟩
  | succ j ih =>
      have hlen : 0 < (encryptRounds k (j + 1) v).length := by
        rw [(hv.encryptRounds (j + 1)).1]
        omega
      obtain ⟨m, p', e', z, hround⟩ := @decryptTest_round k (sumAt (j + 1)) _ q r p e x hlen
        (sumAt_ne_zero j.succ_pos hj)
      obtain ⟨m', p'', e'', z', hrun⟩ := @ih (r + 1) p' e' z (Nat.lt_of_succ_lt hj)
      rw [encryptRounds, decryptRound_encryptRound hn (hv.encryptRounds j), u32_sumAt_sub] at hround
      rw [Nat.add_right_comm] at hrun
      exact ⟨m + m', p'', e'', z', hround.trans hrun⟩

end Run

/-! ### Every word on the way -/

/-- All words of the state have 32 bits. -/
structure Vars.Words (s : Vars) : Prop where
  v : ∀ w ∈ s.v, IsWord w
  y : IsWord s.y
  z : IsWord s.z
  sum : IsWord s.sum

section Words

variable {k : Fin 4 → Int} {s t : Vars}

theorem isWord_of_getElem? {v : List Int} (hv : ∀ w ∈ v, IsWord w) {i : Nat} {w : Int}
    (h : v[i]? = some w) : IsWord w := hv w (List.mem_of_getElem? h)

theorem isWord_of_mem_set {v : List Int} (hv : ∀ w ∈ v, IsWord w) {i : Nat} {x : Int} :
    ∀ w ∈ v.set i (u32 x), IsWord w := by
  intro w hw
  rcases List.mem_or_eq_of_mem_set hw with hw | rfl
  · exact hv w hw
  · exact isWord_u32 x

/-- A step makes words of words. -/
theorem bteaStep_words (hs : s.Words) (h : bteaStep k s = .inl t) : t.Words := by
  have hset : ∀ i x, ∀ w ∈ s.v.set i (u32 x), IsWord w := fun _ _ => isWord_of_mem_set hs.v
  cases hpoint : s.point with
  | encryptHead =>
      simp only [bteaStep, hpoint] at h
      split at h
      · obtain rfl := Sum.inl.inj h
        exact ⟨hs.v, hs.y, hs.z, isWord_u32 _⟩
      · exact absurd h (by simp)
  | encryptBody =>
      simp only [bteaStep, hpoint] at h
      split at h
      · split at h
        · rename_i y w hy hw
          obtain rfl := Sum.inl.inj h
          exact ⟨hset _ _, isWord_of_getElem? hs.v hy, isWord_u32 _, hs.sum⟩
        · exact absurd h (by simp)
      · split at h
        · rename_i y w hy hw
          obtain rfl := Sum.inl.inj h
          exact ⟨hset _ _, isWord_of_getElem? hs.v hy, isWord_u32 _, hs.sum⟩
        · exact absurd h (by simp)
  | decryptHead =>
      simp only [bteaStep, hpoint] at h
      split at h
      · obtain rfl := Sum.inl.inj h
        exact ⟨hs.v, hs.y, hs.z, hs.sum⟩
      · exact absurd h (by simp)
  | decryptBody =>
      simp only [bteaStep, hpoint] at h
      split at h
      · split at h
        · rename_i z w hz hw
          obtain rfl := Sum.inl.inj h
          exact ⟨hset _ _, isWord_u32 _, isWord_of_getElem? hs.v hz, hs.sum⟩
        · exact absurd h (by simp)
      · split at h
        · rename_i z w hz hw
          obtain rfl := Sum.inl.inj h
          exact ⟨hset _ _, isWord_u32 _, isWord_of_getElem? hs.v hz, isWord_u32 _⟩
        · exact absurd h (by simp)

theorem bteaStart_words {v : List Int} {n : Int} (hv : ∀ w ∈ v, IsWord w)
    (h : bteaStart v n = .inl s) : s.Words := by
  have h0 : IsWord 0 := ⟨by decide, by decide⟩
  unfold bteaStart at h
  split at h
  · exact absurd h (by simp)
  · rename_i y hy
    have hy := isWord_of_getElem? hv hy
    split at h
    · split at h
      · exact absurd h (by simp)
      · rename_i z hz
        obtain rfl := Sum.inl.inj h
        exact ⟨hv, hy, isWord_of_getElem? hv hz, h0⟩
    · split at h
      · obtain rfl := Sum.inl.inj h
        exact ⟨hv, hy, h0, isWord_u32 _⟩
      · exact absurd h (by simp)

/-- **Every state on the way** holds words only. -/
theorem OnTheWay.words {v : List Int} {n : Int} (hv : ∀ w ∈ v, IsWord w)
    (h : OnTheWay k v n s) : s.Words := by
  obtain ⟨s₀, m, hstart, hrun⟩ := h
  exact hrun.invariant (fun _ _ => bteaStep_words) (bteaStart_words hv hstart)

end Words

/-! ### There and back -/

section RoundTrip

variable {k : Fin 4 → Int} {v : List Int}

theorem bteaStart_encrypt (hn : 2 ≤ v.length) :
    bteaStart v v.length = .inl (encryptTest v 0 (6 + 52 / v.length) 0 0 0 (v.getD 0 0)) := by
  have hy := getElem?_eq_some_getD (show 0 < v.length by omega)
  have hz := getElem?_eq_some_getD (show v.length - 1 < v.length by omega)
  have hpos : 1 < (v.length : Int) := by omega
  simp only [bteaStart, hy, hpos, ↓reduceIte, Int.toNat_natCast, hz, encryptTest]

theorem bteaStart_decrypt (hn : 2 ≤ v.length) :
    bteaStart v (-v.length) =
      .inl (decryptTest v (sumAt (6 + 52 / v.length)) (6 + 52 / v.length) 0 0 0 0) := by
  have hy := getElem?_eq_some_getD (show 0 < v.length by omega)
  have hneg : ¬ 1 < -(v.length : Int) := by omega
  have hlt : -(v.length : Int) < -1 := by omega
  simp only [bteaStart, hy, hneg, hlt, ↓reduceIte, Int.neg_neg, Int.toNat_natCast, decryptTest,
    sumAt]

/-- **There and back**: what `btea(v, n, k)` leaves `btea(v, -n, k)` turns into the list again, in
as many rounds, and all words on both ways have 32 bits. -/
theorem btea_restores (k : Fin 4 → Int) (hn : 2 ≤ v.length) (hv : ∀ w ∈ v, IsWord w) :
    ∃ c, (∃ s, OnTheWay k v v.length s ∧ bteaStep k s = .inr (some (true, c)) ∧
          s.rounds = 6 + 52 / v.length) ∧
      (∃ s, OnTheWay k c (-v.length) s ∧ bteaStep k s = .inr (some (true, v)) ∧
          s.rounds = 6 + 52 / v.length) ∧
      (∀ s, OnTheWay k v v.length s → s.Words) ∧ (∀ s, OnTheWay k c (-v.length) s → s.Words) := by
  have hblock : IsBlock v.length v := ⟨rfl, hv⟩
  have hrounds : 6 + 52 / v.length < 2 ^ 32 := by
    have hdiv := Nat.div_le_self 52 v.length
    omega
  have hc := hblock.encryptRounds (k := k) (6 + 52 / v.length)
  obtain ⟨m, p, e, y, hrun⟩ :=
    @encrypt_run k v v.length 0 (6 + 52 / v.length) 0 0 (v.getD 0 0) hn hblock
  obtain ⟨m', p', e', z, hrun'⟩ :=
    @decrypt_run k v v.length _ (6 + 52 / v.length) 0 0 0 0 hn hblock hrounds
  rw [Nat.zero_add] at hrun hrun'
  have hstart := bteaStart_decrypt (hn.trans_eq hc.1.symm)
  rw [hc.1] at hstart
  exact ⟨_, ⟨_, ⟨_, m, bteaStart_encrypt hn, hrun⟩, encryptTest_done, rfl⟩,
    ⟨_, ⟨_, m', hstart, hrun'⟩, decryptTest_done, rfl⟩,
    fun _ => OnTheWay.words hv, fun _ => OnTheWay.words hc.2⟩

end RoundTrip

/-- The key and the list that `xxtea.py` tries itself on. -/
def mainKey : Fin 4 → Int := fun i =>
  [0x34333231, 0x38373635, 0x32313039, 0x36353433].getD i 0
def mainList : List Int := [110, 111, 112, 113]

theorem mainList_restored : ∃ c s, OnTheWay mainKey c (-4) s ∧
    bteaStep mainKey s = .inr (some (true, mainList)) ∧ s.rounds = 19 := by
  obtain ⟨c, -, ⟨s, hway, hdone, hrounds⟩, -⟩ :=
    btea_restores mainKey (show 2 ≤ mainList.length by decide) (by decide)
  exact ⟨c, s, hway, hdone, hrounds⟩

example : encryptRounds mainKey 19 mainList = [2210921364, 249748794, 3317857568, 1737089717] := by
  decide +kernel

end Xxtea

end RtuA118
