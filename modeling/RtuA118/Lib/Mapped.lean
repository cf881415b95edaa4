import Mathlib.Data.List.Infix
import Mathlib.Data.Set.Subsingleton
import Mathlib.Logic.Function.Basic

/-!
# RtuA118.Lib.Mapped

**Files mapped into memory, and what a power cut leaves of them.**

A program stores words into memory, of which the system writes back to the disk what it likes and
when it likes. Only a sync puts words there for certain. A program that syncs each word before it
stores the next can be stopped anywhere: memory and disk are what they are between two of its
stores, and at most one word apart (`Recoverable.put`); and programs made of such pieces are such
programs (`Recoverable.append`).

A reader of the file may take different words for the same. What it takes them for is a `view` of
the words, one address at a time.
-/

namespace RtuA118.Mapped

variable {α β γ : Type}

/-- What the program reads and writes, and what is on the disk. -/
structure File (α β : Type) where
  mem : α → β
  disk : α → β

/-- What a program does to its files. -/
inductive Access (α β : Type) where
  | store (a : α) (v : β)
  | sync (region : α → Bool)

namespace File

/-- Everything is on the disk. -/
def stored (f : α → β) : File α β := ⟨f, f⟩

/-- The memory is lost. -/
def powerLoss (x : File α β) : File α β := stored x.disk

/-- Between `x` and `y` the system has written back any words. -/
structure WroteBack (x y : File α β) : Prop where
  mem : y.mem = x.mem
  disk : ∀ a, y.disk a = x.disk a ∨ y.disk a = x.mem a

theorem WroteBack.refl (x : File α β) : WroteBack x x := ⟨rfl, fun _ => .inl rfl⟩

/-- What is on the disk need not be written back. -/
theorem WroteBack.eq_stored {f : α → β} {y : File α β} (h : WroteBack (stored f) y) :
    y = stored f := by
  obtain ⟨mem, disk⟩ := y
  obtain rfl : mem = f := h.mem
  obtain rfl : disk = mem := funext fun a => (h.disk a).elim id id
  rfl

/-- These words are on the disk. -/
def Clean (S : α → Prop) (x : File α β) : Prop := ∀ a, S a → x.disk a = x.mem a

theorem Clean.wroteBack {S : α → Prop} {x y : File α β} (h : Clean S x) (hxy : WroteBack x y) :
    Clean S y := by
  intro a ha
  rw [hxy.mem]
  exact (hxy.disk a).elim (fun hd => hd.trans (h a ha)) id

theorem clean_stored (S : α → Prop) (f : α → β) : Clean S (stored f) := fun _ _ => rfl

theorem Clean.eq_stored {S : α → Prop} {x : File α β} (h : Clean S x) (hall : ∀ a, S a) :
    x = stored x.mem := by
  obtain ⟨mem, disk⟩ := x
  obtain rfl : disk = mem := funext fun a => h a (hall a)
  rfl

end File

open File

/-! ### Files seen through a view -/

/-- The words as the view takes them. -/
def seen (view : α → β → γ) (f : α → β) : α → γ := fun a => view a (f a)

/-- Memory and disk are seen as words that `P` allows, at most one word apart. -/
structure Intact (view : α → β → γ) (P : (α → γ) → Prop) (x : File α β) : Prop where
  mem : P (seen view x.mem)
  disk : P (seen view x.disk)
  apart : {a | view a (x.disk a) ≠ view a (x.mem a)}.Subsingleton

namespace Intact

variable {view : α → β → γ} {P : (α → γ) → Prop} {x y : File α β}

theorem stored {f : α → β} (h : P (seen view f)) : Intact view P (stored f) :=
  ⟨h, h, fun _ ha => absurd rfl ha⟩

theorem powerLoss (h : Intact view P x) : Intact view P x.powerLoss := .stored h.disk

/-- Writing back sets no words apart. -/
theorem apart_of_wroteBack (hxy : WroteBack x y) {a : α}
    (h : view a (y.disk a) ≠ view a (y.mem a)) : view a (x.disk a) ≠ view a (x.mem a) := by
  rw [hxy.mem] at h
  rcases hxy.disk a with hd | hd
  · rwa [hd] at h
  · exact absurd (congrArg (view a) hd) h

/-- The one word that may be apart is written back, or it is not. -/
theorem wroteBack (h : Intact view P x) (hxy : WroteBack x y) : Intact view P y := by
  refine ⟨hxy.mem ▸ h.mem, ?_, fun a ha b hb => h.apart (apart_of_wroteBack hxy ha)
    (apart_of_wroteBack hxy hb)⟩
  by_cases hall : seen view y.disk = seen view x.disk
  · rw [hall]
    exact h.disk
  · obtain ⟨a, ha⟩ := Function.ne_iff.1 hall
    have hya : y.disk a = x.mem a := (hxy.disk a).resolve_left fun hd => ha (congrArg (view a) hd)
    have hapart : view a (x.disk a) ≠ view a (x.mem a) := fun heq =>
      ha ((congrArg (view a) hya).trans heq.symm)
    -- every other word is seen the same on the disk and in memory
    have hmem : seen view y.disk = seen view x.mem := by
      funext b
      rcases hxy.disk b with hb | hb
      · by_contra hne
        obtain rfl : b = a := h.apart (fun heq => hne ((congrArg (view b) hb).trans heq)) hapart
        exact ha (congrArg (view b) hb)
      · exact congrArg (view b) hb
    rw [hmem]
    exact h.mem

end Intact

/-! ### Accesses -/

section Accesses

variable [DecidableEq α]

namespace Access

/-- The memory after an access. -/
def onMem (f : α → β) : Access α β → α → β
  | store a v => Function.update f a v
  | sync _ => f

/-- The file after an access. -/
def apply (x : File α β) (e : Access α β) : File α β where
  mem := e.onMem x.mem
  disk := match e with
    | store _ _ => x.disk
    | sync region => fun a => if region a then x.mem a else x.disk a

/-- The access stores nothing outside the region. -/
def StoresIn (region : α → Bool) : Access α β → Prop
  | store a _ => region a = true
  | sync _ => True

instance (region : α → Bool) : ∀ e : Access α β, Decidable (e.StoresIn region)
  | store a _ => inferInstanceAs (Decidable (region a = true))
  | sync _ => .isTrue trivial

/-- A sync is one way of writing back. -/
theorem wroteBack_sync (x : File α β) (region : α → Bool) :
    WroteBack x ((sync region).apply x) where
  mem := rfl
  disk a := by
    unfold apply
    dsimp only
    split
    · exact .inr rfl
    · exact .inl rfl

theorem clean_sync {S : α → Prop} {x : File α β} {region : α → Bool} (h : Clean S x) :
    Clean (fun a => S a ∨ region a = true) ((sync region).apply x) := by
  intro a ha
  unfold apply
  dsimp only [onMem]
  split
  · rfl
  · rename_i hr
    exact h a (ha.resolve_right hr)

/-- What is stored elsewhere leaves a word on the disk. -/
theorem clean_apply {region : α → Bool} {x : File α β} {e : Access α β}
    (h : Clean (fun a => ¬ region a = true) x) (he : e.StoresIn region) :
    Clean (fun a => ¬ region a = true) (e.apply x) := by
  cases e with
  | store a v =>
      intro b hb
      have hne : b ≠ a := fun hba => hb (hba ▸ he)
      have hmem : ((store a v).apply x).mem b = x.mem b := by simp [apply, onMem, hne]
      exact (h b hb).trans hmem.symm
  | sync r => exact h.wroteBack (wroteBack_sync x r)

end Access

open Access

/-- The memory after accesses. -/
def memAfter (f : α → β) (es : List (Access α β)) : α → β := es.foldl Access.onMem f

theorem memAfter_append (f : α → β) (es es' : List (Access α β)) :
    memAfter f (es ++ es') = memAfter (memAfter f es) es' := List.foldl_append

/-- A word that is not stored stays. -/
theorem memAfter_of_not_stored {a : α} : ∀ {es : List (Access α β)} {f : α → β},
    (∀ v, Access.store a v ∉ es) → memAfter f es a = f a := by
  intro es
  induction es with
  | nil => intro f _; rfl
  | cons e es ih =>
      intro f h
      have hrest := ih (f := e.onMem f) fun v hv => h v (List.mem_cons_of_mem _ hv)
      refine hrest.trans ?_
      cases e with
      | store b v =>
          refine Function.update_of_ne ?_ v f
          rintro rfl
          exact h v List.mem_cons_self
      | sync region => rfl

/-- The accesses take `x` to `y`, with words written back before, between and after them. -/
inductive Carries : List (Access α β) → File α β → File α β → Prop where
  | done {x y : File α β} : WroteBack x y → Carries [] x y
  | next {e : Access α β} {es : List (Access α β)} {x y z : File α β} :
      WroteBack x y → Carries es (e.apply y) z → Carries (e :: es) x z

namespace Carries

variable {es es' : List (Access α β)} {x y z : File α β}

theorem append (h : Carries (es ++ es') x z) : ∃ y, Carries es x y ∧ Carries es' y z := by
  induction es generalizing x with
  | nil => exact ⟨x, .done (.refl x), h⟩
  | cons e es ih =>
      cases h with
      | next hb h =>
          obtain ⟨y, hy, hz⟩ := ih h
          exact ⟨y, .next hb hy, hz⟩

theorem mem (h : Carries es x y) : y.mem = memAfter x.mem es := by
  induction h with
  | done hb => exact hb.mem
  | next hb _ ih =>
      rw [ih]
      unfold memAfter apply
      rw [List.foldl_cons, hb.mem]

/-- Nothing need be written back. -/
theorem runs (es : List (Access α β)) (x : File α β) : ∃ y, Carries es x y := by
  induction es generalizing x with
  | nil => exact ⟨x, .done (.refl x)⟩
  | cons e es ih =>
      obtain ⟨y, hy⟩ := ih (e.apply x)
      exact ⟨y, .next (.refl x) hy⟩

/-- What write-backs and the accesses keep. -/
theorem invariant {I : File α β → Prop} (hback : ∀ x y, WroteBack x y → I x → I y)
    (haccess : ∀ e ∈ es, ∀ x, I x → I (e.apply x)) (h : Carries es x y) (hx : I x) : I y := by
  induction h with
  | done hb => exact hback _ _ hb hx
  | next hb _ ih =>
      exact ih (fun e he => haccess e (List.mem_cons_of_mem _ he))
        (haccess _ List.mem_cons_self _ (hback _ _ hb hx))

/-- The words of a region that is synced last are all on the disk. -/
theorem clean_of_sync {S : α → Prop} {region : α → Bool}
    (h : Carries (es ++ [.sync region]) x y)
    (hes : ∀ {z}, Carries es x z → Clean S z) :
    Clean (fun a => S a ∨ region a = true) y := by
  obtain ⟨z, hz, hy⟩ := h.append
  cases hy with
  | next hb hy =>
      cases hy with
      | done hb' => exact (clean_sync ((hes hz).wroteBack hb)).wroteBack hb'

end Carries

/-! ### Programs that can be stopped -/

/-- From a file that is on the disk, `es` ends with the file `f'` on the disk, and is stopped
nowhere but where `Q` holds. -/
structure Recoverable (Q : File α β → Prop) (es : List (Access α β)) (f f' : α → β) : Prop where
  stopped : ∀ es' y, es' <+: es → Carries es' (stored f) y → Q y
  done : ∀ y, Carries es (stored f) y → y = stored f'

namespace Recoverable

variable {Q : File α β → Prop} {es es' : List (Access α β)} {f f' f'' : α → β}

theorem nil (hQ : Q (stored f)) : Recoverable Q ([] : List (Access α β)) f f where
  stopped := by
    intro es' y hpre h
    obtain rfl := List.prefix_nil.1 hpre
    cases h with
    | done hb => exact hb.eq_stored ▸ hQ
  done := by
    intro y h
    cases h with
    | done hb => exact hb.eq_stored

theorem append (h : Recoverable Q es f f') (h' : Recoverable Q es' f' f'') :
    Recoverable Q (es ++ es') f f'' where
  stopped := by
    intro es₁ y hpre hy
    rcases List.prefix_or_prefix_of_prefix hpre (List.prefix_append es es') with hle | ⟨es₂, rfl⟩
    · exact h.stopped es₁ y hle hy
    · obtain ⟨z, hz, hy⟩ := hy.append
      obtain rfl := h.done z hz
      exact h'.stopped es₂ y ((List.prefix_append_right_inj es).1 hpre) hy
  done := by
    intro y hy
    obtain ⟨z, hz, hy⟩ := hy.append
    obtain rfl := h.done z hz
    exact h'.done y hy

/-- Words of one region, then a sync of it. -/
theorem done_of_sync (es : List (Access α β)) {region : α → Bool}
    (hes : ∀ e ∈ es, e.StoresIn region) (y : File α β)
    (h : Carries (es ++ [.sync region]) (stored f) y) : y = stored (memAfter f es) := by
  have hclean := h.clean_of_sync fun hz =>
    hz.invariant (fun _ _ hb hx => Clean.wroteBack hx hb)
      (fun e he _ hx => clean_apply hx (hes e he)) (clean_stored _ f)
  have hmem : y.mem = memAfter f es := by
    rw [h.mem, memAfter_append]
    rfl
  rw [hclean.eq_stored fun a => (em (region a = true)).symm, hmem]

theorem batch (es : List (Access α β)) {region : α → Bool} (hQ : ∀ y, Q y)
    (hes : ∀ e ∈ es, e.StoresIn region) :
    Recoverable Q (es ++ [.sync region]) f (memAfter f es) where
  stopped := fun _ y _ _ => hQ y
  done := done_of_sync es hes

end Recoverable

namespace Intact

variable {view : α → β → γ} {P : (α → γ) → Prop} {x y : File α β}

/-- A word stored that is seen as the one it replaces. -/
theorem neutral {a : α} {v : β} (h : Intact view P x) (hv : view a v = view a (x.mem a)) :
    Intact view P ((Access.store a v).apply x) ∧
      seen view ((Access.store a v).apply x).mem = seen view x.mem := by
  have hmem : seen view ((Access.store a v).apply x).mem = seen view x.mem := by
    funext b
    show view b (Function.update x.mem a v b) = _
    by_cases hb : b = a
    · subst hb
      rw [Function.update_self]
      exact hv
    · rw [Function.update_of_ne hb]
      rfl
  refine ⟨⟨hmem ▸ h.mem, h.disk, fun b hb c hc => h.apart ?_ ?_⟩, hmem⟩
  · exact fun heq => hb (heq.trans (congrFun hmem b).symm)
  · exact fun heq => hc (heq.trans (congrFun hmem c).symm)

/-- Accesses whose words are seen as those they replace. -/
theorem carries {es : List (Access α β)} {g : α → γ}
    (hes : ∀ a v, Access.store a v ∈ es → view a v = g a) (h : Carries es x y)
    (hx : Intact view P x) (hg : seen view x.mem = g) :
    Intact view P y ∧ seen view y.mem = g := by
  refine h.invariant (I := fun x => Intact view P x ∧ seen view x.mem = g)
    (fun x y hb hx => ⟨hx.1.wroteBack hb, hb.mem ▸ hx.2⟩) ?_ ⟨hx, hg⟩
  intro e he x hx
  cases e with
  | store a v =>
      obtain ⟨hi, hm⟩ := hx.1.neutral ((hes a v he).trans (congrFun hx.2 a).symm)
      exact ⟨hi, hm.trans hx.2⟩
  | sync region => exact ⟨hx.1.wroteBack (wroteBack_sync x region), hx.2⟩

end Intact

/-- One word stored and synced. -/
theorem Recoverable.put {view : α → β → γ} {P : (α → γ) → Prop} {f : α → β} {a : α} {v : β}
    {region : α → Bool} (ha : region a = true) (hf : P (seen view f))
    (hv : P (seen view (Function.update f a v))) :
    Recoverable (Intact view P) [.store a v, .sync region] f (Function.update f a v) where
  stopped := by
    have hstored : Intact view P ((Access.store a v).apply (File.stored f)) := by
      refine ⟨hv, hf, fun b hb c hc => ?_⟩
      have hne : ∀ b, view b (f b) ≠ view b (Function.update f a v b) → b = a := fun b hb => by
        by_contra hba
        exact hb (by rw [Function.update_of_ne hba])
      exact (hne b hb).trans (hne c hc).symm
    intro es' y hpre h
    cases h with
    | done hb => exact (Intact.stored hf).wroteBack hb
    | next hb h =>
        obtain ⟨rfl, hrest⟩ := List.cons_prefix_cons.1 hpre
        rw [hb.eq_stored] at h
        refine (Intact.carries (fun b w hmem => ?_) h hstored rfl).1
        have hsync : Access.store b w = .sync region := List.mem_singleton.1 (hrest.subset hmem)
        cases hsync
  done := fun y h => Recoverable.done_of_sync [.store a v]
    (fun e he => by
      rw [List.mem_singleton.1 he]
      exact ha) y h

end Accesses

end RtuA118.Mapped
