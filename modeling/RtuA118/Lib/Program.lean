import RtuA118.Lib.Run

/-!
# RtuA118.Lib.Program

**Programs** that call on a machine: a program is a tree of operations, each
followed by what is done with its answer, so it stops after finitely many
operations whatever the answers are. A **thread** runs one such program over and
over; between two operations the world may do what it likes, as the input of the
next one says.

Three readings of a program:

* `Only`: the operations it can call, whatever they answer;
* `Ensures`: the weakest precondition, over all inputs that are allowed, with an
  obligation at every operation;
* `May`: the same over some choice of inputs.

`reach_ensures` is the rule for the thread: an invariant at the head of its loop
that one turn ensures again gives the obligation at every operation of every run.
`Inevitable` is what happens sooner or later, whatever the inputs: the run goes on
until then.
-/

namespace RtuA118.Program

/-- A program over the operations `E`, the operation `e` answered in `R e`. -/
inductive Prog (E : Type) (R : E → Type) (α : Type) where
  | done (a : α)
  | call (e : E) (k : R e → Prog E R α)

namespace Prog

variable {E : Type} {R : E → Type} {α β : Type}

/-- One program after the other. -/
protected def bind : Prog E R α → (α → Prog E R β) → Prog E R β
  | .done a, f => f a
  | .call e k, f => .call e fun r => (k r).bind f

instance : Monad (Prog E R) where
  pure := .done
  bind := Prog.bind

/-- The program of one operation. -/
def op (e : E) : Prog E R (R e) := .call e .done

@[simp] theorem done_bind (a : α) (f : α → Prog E R β) : (Prog.done a >>= f) = f a := rfl

@[simp] theorem pure_bind (a : α) (f : α → Prog E R β) :
    ((pure a : Prog E R α) >>= f) = f a := rfl

@[simp] theorem call_bind (e : E) (k : R e → Prog E R α) (f : α → Prog E R β) :
    (Prog.call e k >>= f) = .call e fun r => k r >>= f := rfl

@[simp] theorem op_bind (e : E) (f : R e → Prog E R β) :
    ((op e : Prog E R (R e)) >>= f) = .call e f := rfl

theorem bind_assoc {γ : Type} (p : Prog E R α) (f : α → Prog E R β) (g : β → Prog E R γ) :
    p >>= f >>= g = p >>= fun a => f a >>= g := by
  induction p with
  | done a => rfl
  | call e k ih => exact congrArg (Prog.call e) (funext ih)

/-- Up to `n` attempts, until one has a result. -/
def attempts (p : Prog E R (Option α)) : Nat → Prog E R (Option α)
  | 0 => pure none
  | n + 1 => do
    match ← p with
    | some a => pure (some a)
    | none => attempts p n

/-! ### The operations of a program -/

/-- Every operation the program can come to meets `K`. -/
def Only (K : E → Prop) : Prog E R α → Prop
  | .done _ => True
  | .call e k => K e ∧ ∀ r, (k r).Only K

variable {K L : E → Prop}

@[simp] theorem only_done (a : α) : (Prog.done a : Prog E R α).Only K := trivial

@[simp] theorem only_pure (a : α) : (pure a : Prog E R α).Only K := trivial

@[simp] theorem only_call {e : E} {k : R e → Prog E R α} :
    (Prog.call e k).Only K ↔ K e ∧ ∀ r, (k r).Only K := Iff.rfl

@[simp] theorem only_ite {q : Prop} [Decidable q] {p p' : Prog E R α} :
    (if q then p else p').Only K ↔ (q → p.Only K) ∧ (¬ q → p'.Only K) := by
  by_cases hq : q <;> simp [hq]

@[simp] theorem only_op {e : E} : (op e : Prog E R (R e)).Only K ↔ K e :=
  ⟨fun h => h.1, fun h => ⟨h, fun _ => trivial⟩⟩

theorem Only.bind {p : Prog E R α} {f : α → Prog E R β} (hp : p.Only K)
    (hf : ∀ a, (f a).Only K) : (p >>= f).Only K := by
  induction p with
  | done a => exact hf a
  | call e k ih => exact ⟨hp.1, fun r => ih r (hp.2 r)⟩

theorem Only.mono {p : Prog E R α} (h : p.Only K) (hsub : ∀ e, K e → L e) : p.Only L := by
  induction p with
  | done a => trivial
  | call e k ih => exact ⟨hsub e h.1, fun r => ih r (h.2 r)⟩

theorem Only.attempts {p : Prog E R (Option α)} (hp : p.Only K) (n : Nat) :
    (attempts p n).Only K := by
  induction n with
  | zero => trivial
  | succ n ih =>
      refine hp.bind fun o => ?_
      cases o with
      | none => exact ih
      | some a => trivial

end Prog

/-! ### What operations do -/

section Machine

variable {E : Type} {R : E → Type} {σ ι α β : Type}

/-- What an operation does to the state on an input: its answer and the state
after, or nothing where its behaviour is undefined. -/
abbrev Exec (E : Type) (R : E → Type) (σ ι : Type) := (e : E) → ι → σ → Option (R e × σ)

variable (exec : Exec E R σ ι) (allowed : σ → E → ι → Prop) (good : σ → E → Prop)

/-- Run from a state on inputs that are allowed, the program comes only to
operations that are good there, and to the end only where `post` holds. -/
def Ensures (post : α → σ → Prop) : Prog E R α → σ → Prop
  | .done a, s => post a s
  | .call e k, s =>
    good s e ∧ ∀ i r s', allowed s e i → exec e i s = some (r, s') → Ensures post (k r) s'

variable {exec allowed good}

@[simp] theorem ensures_done {post : α → σ → Prop} {a : α} {s : σ} :
    Ensures exec allowed good post (Prog.done a) s ↔ post a s := Iff.rfl

@[simp] theorem ensures_pure {post : α → σ → Prop} {a : α} {s : σ} :
    Ensures exec allowed good post (pure a : Prog E R α) s ↔ post a s := Iff.rfl

/-- One operation, and what follows it. -/
theorem ensures_op_bind {post : β → σ → Prop} {e : E} {f : R e → Prog E R β} {s : σ} :
    Ensures exec allowed good post (Prog.op e >>= f) s ↔
      good s e ∧ ∀ i r s', allowed s e i → exec e i s = some (r, s') →
        Ensures exec allowed good post (f r) s' := Iff.rfl

theorem ensures_op {e : E} {post : R e → σ → Prop} {s : σ} :
    Ensures exec allowed good post (Prog.op e : Prog E R (R e)) s ↔
      good s e ∧ ∀ i r s', allowed s e i → exec e i s = some (r, s') → post r s' := Iff.rfl

theorem ensures_bind {post : β → σ → Prop} {p : Prog E R α} {f : α → Prog E R β} {s : σ} :
    Ensures exec allowed good post (p >>= f) s ↔
      Ensures exec allowed good (fun a s => Ensures exec allowed good post (f a) s) p s := by
  induction p generalizing s with
  | done a => exact Iff.rfl
  | call e k ih =>
      refine and_congr_right fun _ => forall₅_congr fun i r s' _ _ => ?_
      exact ih r

theorem Ensures.mono {post post' : α → σ → Prop} {p : Prog E R α} {s : σ}
    (h : Ensures exec allowed good post p s) (hpost : ∀ a s, post a s → post' a s) :
    Ensures exec allowed good post' p s := by
  induction p generalizing s with
  | done a => exact hpost a s h
  | call e k ih => exact ⟨h.1, fun i r s' hi hs => ih r (h.2 i r s' hi hs)⟩

/-- A lesser obligation. -/
theorem Ensures.relax {good' : σ → E → Prop} {post : α → σ → Prop} {p : Prog E R α} {s : σ}
    (h : Ensures exec allowed good post p s) (hsub : ∀ s e, good s e → good' s e) :
    Ensures exec allowed good' post p s := by
  induction p generalizing s with
  | done a => exact h
  | call e k ih => exact ⟨hsub s e h.1, fun i r s' hi hs => ih r (h.2 i r s' hi hs)⟩

/-- Fewer inputs. -/
theorem Ensures.narrow {allowed' : σ → E → ι → Prop} {post : α → σ → Prop} {p : Prog E R α}
    {s : σ} (h : Ensures exec allowed good post p s)
    (hsub : ∀ s e i, allowed' s e i → allowed s e i) : Ensures exec allowed' good post p s := by
  induction p generalizing s with
  | done a => exact h
  | call e k ih =>
      exact ⟨h.1, fun i r s' hi hs => ih r (h.2 i r s' (hsub s e i hi) hs)⟩

/-- A program after another that ensures what it needs. -/
theorem Ensures.bind {post : β → σ → Prop} {mid : α → σ → Prop} {p : Prog E R α}
    {f : α → Prog E R β} {s : σ} (hp : Ensures exec allowed good mid p s)
    (hf : ∀ a s, mid a s → Ensures exec allowed good post (f a) s) :
    Ensures exec allowed good post (p >>= f) s :=
  ensures_bind.2 (hp.mono hf)

/-- What every operation of a kind keeps, a program of such operations keeps. -/
theorem Prog.Only.ensures {K : E → Prop} {J : σ → Prop} {p : Prog E R α} (hp : p.Only K)
    (hop : ∀ s e, J s → K e → good s e ∧
      ∀ i r s', allowed s e i → exec e i s = some (r, s') → J s') {s : σ} (hs : J s) :
    Ensures exec allowed good (fun _ => J) p s := by
  induction p generalizing s with
  | done a => exact hs
  | call e k ih =>
      obtain ⟨hgood, hnext⟩ := hop s e hs hp.1
      exact ⟨hgood, fun i r s' hi hs' => ih r (hp.2 r) (hnext i r s' hi hs')⟩

/-- What one attempt keeps, all of them keep. -/
theorem Ensures.attempts {J : σ → Prop} {p : Prog E R (Option α)}
    (hp : ∀ s, J s → Ensures exec allowed good (fun _ => J) p s) (n : Nat) {s : σ} (hs : J s) :
    Ensures exec allowed good (fun _ => J) (p.attempts n) s := by
  induction n generalizing s with
  | zero => exact hs
  | succ n ih =>
      refine (hp s hs).bind fun o s hs => ?_
      cases o with
      | none => exact ih hs
      | some a => exact hs

/-- What every operation keeps, every program keeps. -/
theorem ensures_of_steps {J : σ → Prop} {p : Prog E R α}
    (hstep : ∀ s e i r s', J s → exec e i s = some (r, s') → J s') {s : σ} (hs : J s) :
    Ensures exec allowed (fun s _ => J s) (fun _ => J) p s := by
  induction p generalizing s with
  | done a => exact hs
  | call e k ih => exact ⟨hs, fun i r s' _ he => ih r (hstep s e i r s' hs he)⟩

theorem Ensures.and {good' : σ → E → Prop} {post post' : α → σ → Prop} {p : Prog E R α} {s : σ}
    (h : Ensures exec allowed good post p s) (h' : Ensures exec allowed good' post' p s) :
    Ensures exec allowed (fun s e => good s e ∧ good' s e) (fun a s => post a s ∧ post' a s) p
      s := by
  induction p generalizing s with
  | done a => exact ⟨h, h'⟩
  | call e k ih =>
      exact ⟨⟨h.1, h'.1⟩, fun i r s' hi he => ih r (h.2 i r s' hi he) (h'.2 i r s' hi he)⟩

variable (exec) in
/-- On some inputs the program comes to its end where `post` holds, through
states where `I` does. -/
def May (I : σ → Prop) (post : α → σ → Prop) : Prog E R α → σ → Prop
  | .done a, s => post a s
  | .call e k, s => I s ∧ ∃ i r s', exec e i s = some (r, s') ∧ May I post (k r) s'

theorem may_op_bind {I : σ → Prop} {post : β → σ → Prop} {e : E} {f : R e → Prog E R β}
    {s s' : σ} {i : ι} {r : R e} (hs : I s) (he : exec e i s = some (r, s'))
    (hf : May exec I post (f r) s') : May exec I post (Prog.op e >>= f) s :=
  ⟨hs, i, r, s', he, hf⟩

theorem may_bind {I : σ → Prop} {post : β → σ → Prop} {p : Prog E R α} {f : α → Prog E R β}
    {s : σ} : May exec I post (p >>= f) s ↔
      May exec I (fun a s => May exec I post (f a) s) p s := by
  induction p generalizing s with
  | done a => exact Iff.rfl
  | call e k ih =>
      refine and_congr_right fun _ => exists₃_congr fun i r s' => and_congr_right fun _ => ?_
      exact ih r

theorem May.mono {I : σ → Prop} {post post' : α → σ → Prop} {p : Prog E R α} {s : σ}
    (h : May exec I post p s) (hpost : ∀ a s, post a s → post' a s) : May exec I post' p s := by
  induction p generalizing s with
  | done a => exact hpost a s h
  | call e k ih =>
      obtain ⟨hI, i, r, s', hs, hk⟩ := h
      exact ⟨hI, i, r, s', hs, ih r hk⟩

open Classical in
/-- The operations on the inputs that are allowed only. -/
noncomputable def restrict (exec : Exec E R σ ι) (allowed : σ → E → ι → Prop) : Exec E R σ ι :=
  fun e i s => if allowed s e i then exec e i s else none

theorem restrict_eq {e : E} {i : ι} {s : σ} (hi : allowed s e i) :
    restrict exec allowed e i s = exec e i s :=
  if_pos hi

/-- Where a program may come to, it ensures what it ensures. -/
theorem Ensures.meets {I : σ → Prop} {post post' : α → σ → Prop} {p : Prog E R α} {s : σ}
    (h : Ensures exec allowed good post p s) (hm : May (restrict exec allowed) I post' p s) :
    ∃ a s', post a s' ∧ post' a s' := by
  induction p generalizing s with
  | done a => exact ⟨a, s, h, hm⟩
  | call e k ih =>
      obtain ⟨-, i, r, s', he, hk⟩ := hm
      unfold restrict at he
      split at he
      · rename_i hi
        exact ih r (h.2 i r s' hi he) hk
      · cases he

end Machine

/-! ### Threads -/

section Thread

variable {E : Type} {R : E → Type} {σ ι : Type}

/-- A thread: the state, and what is left of the turn. -/
structure Config (E : Type) (R : E → Type) (σ : Type) where
  state : σ
  rest : Prog E R Unit

/-- A step of the thread that runs `turn` over and over. -/
inductive Step (exec : Exec E R σ ι) (turn : Prog E R Unit) :
    Config E R σ → Option ι → Config E R σ → Prop where
  | call {s s' : σ} {e : E} {k : R e → Prog E R Unit} {i : ι} {r : R e} :
    exec e i s = some (r, s') → Step exec turn ⟨s, .call e k⟩ (some i) ⟨s', k r⟩
  | again {s : σ} : Step exec turn ⟨s, .done ()⟩ none ⟨s, turn⟩

/-- The inputs a condition on the state and the operation allows. -/
def Admits (allowed : σ → E → ι → Prop) (c : Config E R σ) (a : Option ι) : Prop :=
  ∀ e k i, c.rest = .call e k → a = some i → allowed c.state e i

theorem admits_none {allowed : σ → E → ι → Prop} {c : Config E R σ} : Admits allowed c none :=
  fun _ _ _ _ h => nomatch h

theorem admits_call {allowed : σ → E → ι → Prop} {s : σ} {e : E} {k : R e → Prog E R Unit} {i : ι}
    (h : allowed s e i) : Admits allowed ⟨s, .call e k⟩ (some i) := by
  intro e' k' i' hcall hi
  cases hcall
  cases hi
  exact h

/-- Every operation the thread is about to do is good. -/
def Config.Good (good : σ → E → Prop) (c : Config E R σ) : Prop :=
  ∀ e k, c.rest = .call e k → good c.state e

/-- The runs of a thread on inputs that are allowed. -/
abbrev Runs (exec : Exec E R σ ι) (turn : Prog E R Unit) (allowed : σ → E → ι → Prop)
    (init : Config E R σ → Prop) : Config E R σ → Prop :=
  Run.Reach init (Run.guarded (Admits allowed) (Step exec turn))

variable {exec : Exec E R σ ι} {turn : Prog E R Unit} {allowed : σ → E → ι → Prop}
  {good : σ → E → Prop} {init : Config E R σ → Prop} {c : Config E R σ}

/-- **The rule for a thread's loop.** -/
theorem reach_ensures (Inv : σ → Prop)
    (hinit : ∀ c, init c → Ensures exec allowed good (fun _ => Inv) c.rest c.state)
    (hturn : ∀ s, Inv s → Ensures exec allowed good (fun _ => Inv) turn s)
    (h : Runs exec turn allowed init c) :
    Ensures exec allowed good (fun _ => Inv) c.rest c.state := by
  refine h.invariant (P := fun c => Ensures exec allowed good (fun _ => Inv) c.rest c.state)
    hinit ?_
  rintro _ _ _ hs ⟨hadm, hstep⟩
  cases hstep with
  | call hexec => exact hs.2 _ _ _ (hadm _ _ _ rfl rfl) hexec
  | again => exact hturn _ hs

theorem good_of_ensures {post : Unit → σ → Prop}
    (h : Ensures exec allowed good post c.rest c.state) : c.Good good := by
  intro e k hrest
  rw [hrest] at h
  exact h.1

/-- One operation of a run. -/
theorem Runs.call {e : E} {k : R e → Prog E R Unit} {i : ι} {r : R e} {s s' : σ}
    (h : Runs exec turn allowed init ⟨s, .call e k⟩) (hi : allowed s e i)
    (he : exec e i s = some (r, s')) : Runs exec turn allowed init ⟨s', k r⟩ :=
  .step h ⟨admits_call hi, .call he⟩

theorem Runs.op {e : E} {f : R e → Prog E R Unit} {i : ι} {r : R e} {s s' : σ}
    (h : Runs exec turn allowed init ⟨s, Prog.op e >>= f⟩) (hi : allowed s e i)
    (he : exec e i s = some (r, s')) : Runs exec turn allowed init ⟨s', f r⟩ :=
  Runs.call h hi he

/-- The turn from the start again. -/
theorem Runs.again {s : σ} (h : Runs exec turn allowed init ⟨s, .done ()⟩) :
    Runs exec turn allowed init ⟨s, turn⟩ :=
  .step h ⟨admits_none, .again⟩

/-- A run on inputs that are allowed is one where more are. -/
theorem Runs.widen {allowed' : σ → E → ι → Prop} (h : Runs exec turn allowed init c)
    (hsub : ∀ s e i, allowed s e i → allowed' s e i) : Runs exec turn allowed' init c :=
  h.mono fun _ _ _ ⟨hadm, hstep⟩ =>
    ⟨fun e k i hrest ha => hsub _ _ _ (hadm e k i hrest ha), hstep⟩

/-- If every run is good, then so is what is left of a turn that is reached. -/
theorem ensures_of_runs
    (hgood : ∀ c, Runs exec turn allowed init c → c.Good good) {p : Prog E R Unit} {s : σ}
    (h : Runs exec turn allowed init ⟨s, p⟩) :
    Ensures exec allowed good (fun _ s => Runs exec turn allowed init ⟨s, .done ()⟩) p s := by
  induction p generalizing s with
  | done a => exact h
  | call e k ih =>
      exact ⟨hgood _ h e k rfl, fun i r s' hi hs' => ih r (Runs.call h hi hs')⟩

/-- A run goes on where the program may. -/
theorem May.reach {I : σ → Prop} {post : Unit → σ → Prop} {p : Prog E R Unit} {s : σ}
    (hp : May exec I post p s) (h : Runs exec turn (fun _ _ _ => True) init ⟨s, p⟩) :
    ∃ s', post () s' ∧ Runs exec turn (fun _ _ _ => True) init ⟨s', .done ()⟩ := by
  induction p generalizing s with
  | done a => exact ⟨s, hp, h⟩
  | call e k ih =>
      obtain ⟨-, i, r, s', hs', hk⟩ := hp
      exact ih r hk (Runs.call h trivial hs')

/-! ### What happens sooner or later -/

/-- Whatever the steps, the run goes on until a state where `P` holds. -/
inductive Inevitable {γ κ : Type} (step : γ → κ → γ → Prop) (P : γ → Prop) : γ → Prop where
  | now {c : γ} : P c → Inevitable step P c
  | later {c : γ} : (∃ a c', step c a c') → (∀ a c', step c a c' → Inevitable step P c') →
      Inevitable step P c

section Inevitable

variable {P : Config E R σ → Prop} {post : Unit → σ → Prop}

/-- What is left of a turn comes to its end, if each of its operations that is come to
before `P` has an answer on some input that is allowed. -/
theorem Ensures.inevitable {p : Prog E R Unit} {s : σ}
    (h : Ensures exec allowed good post p s)
    (hgo : ∀ s e k, good s e →
      P ⟨s, .call e k⟩ ∨ ∃ i r s', allowed s e i ∧ exec e i s = some (r, s'))
    (hend : ∀ s, post () s →
      Inevitable (Run.guarded (Admits allowed) (Step exec turn)) P ⟨s, .done ()⟩) :
    Inevitable (Run.guarded (Admits allowed) (Step exec turn)) P ⟨s, p⟩ := by
  induction p generalizing s with
  | done a => exact hend s h
  | call e k ih =>
      rcases hgo s e k h.1 with hP | ⟨i, r, s', hi, he⟩
      · exact .now hP
      · refine .later ⟨some i, ⟨s', k r⟩, admits_call hi, .call he⟩ ?_
        rintro a c' ⟨hadm, hstep⟩
        cases hstep with
        | call hexec => exact ih _ (h.2 _ _ _ (hadm _ _ _ rfl rfl) hexec)

/-- From the end of a turn, one turn further. -/
theorem inevitable_turn {s : σ} (h : Ensures exec allowed good post turn s)
    (hgo : ∀ s e k, good s e →
      P ⟨s, .call e k⟩ ∨ ∃ i r s', allowed s e i ∧ exec e i s = some (r, s'))
    (hend : ∀ s, post () s →
      Inevitable (Run.guarded (Admits allowed) (Step exec turn)) P ⟨s, .done ()⟩) :
    Inevitable (Run.guarded (Admits allowed) (Step exec turn)) P ⟨s, .done ()⟩ := by
  refine .later ⟨none, ⟨s, turn⟩, admits_none, .again⟩ ?_
  rintro a c' ⟨-, hstep⟩
  cases hstep with
  | again => exact h.inevitable hgo hend

end Inevitable

/-- A set of states that can be gone through for ever. -/
theorem not_inevitable {γ κ : Type} {step : γ → κ → γ → Prop} {P S : γ → Prop}
    (hS : ∀ c, S c → ¬ P c ∧ ∃ a c', step c a c' ∧ S c') {c : γ} (hc : S c) :
    ¬ Inevitable step P c := by
  intro h
  induction h with
  | now hP => exact (hS _ hc).1 hP
  | later _ _ ih =>
      obtain ⟨-, a, c', hstep, hc'⟩ := hS _ hc
      exact ih a c' hstep hc'

/-- A thread that can idle, its turn ending where it began, need not come to
anything that does not hold on the way. -/
theorem not_inevitable_idle {I : σ → Prop} {P : Config E R σ → Prop} {s : σ}
    (hturn : May exec I (fun _ s' => s' = s) turn s) (hs : I s)
    (hP : ∀ c, P c → ¬ I c.state) :
    ¬ Inevitable (Run.guarded (Admits fun _ _ _ => True) (Step exec turn)) P ⟨s, .done ()⟩ := by
  refine not_inevitable
    (S := fun c : Config E R σ => I c.state ∧ May exec I (fun _ s' => s' = s) c.rest c.state)
    ?_ ⟨hs, show s = s from rfl⟩
  rintro ⟨t, p⟩ ⟨hI, hmay⟩
  refine ⟨fun h => hP _ h hI, ?_⟩
  cases p with
  | done a =>
      have hts : t = s := hmay
      subst hts
      exact ⟨none, ⟨t, turn⟩, ⟨admits_none, .again⟩, hI, hturn⟩
  | call e k =>
      obtain ⟨-, i, r, t', ht', hk⟩ := hmay
      refine ⟨some i, ⟨t', k r⟩, ⟨admits_call trivial, .call ht'⟩, ?_, hk⟩
      cases hkr : k r with
      | done a =>
          rw [hkr] at hk
          exact (show t' = s from hk) ▸ hs
      | call e' k' =>
          rw [hkr] at hk
          exact hk.1

end Thread

end RtuA118.Program
