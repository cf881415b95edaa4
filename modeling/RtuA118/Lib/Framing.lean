import Mathlib.Data.List.Basic

/-!
# RtuA118.Lib.Framing

**Frames in a stream** that comes in pieces.

A cutter takes a frame off the head of a stream, if the head is there. Its frames say themselves
where they end (`settled`), so they are a prefix code: a stream is cut into the same frames wherever
it has got to (`Cutter.prefix_code`).
-/

namespace RtuA118

variable {α : Type}

/-- The frame at the head of a stream, and what is left. -/
structure Cutter (α : Type) where
  cut : List α → Option (List α × List α)
  whole : ∀ {s f r}, cut s = some (f, r) → s = f ++ r
  nonempty : ∀ {s f r}, cut s = some (f, r) → f ≠ []
  settled : ∀ {s f r}, cut s = some (f, r) → ∀ t, cut (f ++ t) = some (f, t)

namespace Cutter

variable {c : Cutter α} {f r : List α}

/-- The list is one frame. -/
def Complete (c : Cutter α) (f : List α) : Prop := c.cut f = some (f, [])

theorem complete_of_cut {s : List α} (h : c.cut s = some (f, r)) : c.Complete f := by
  have hf := c.settled h []
  rwa [List.append_nil] at hf

theorem Complete.append (h : c.Complete f) (t : List α) : c.cut (f ++ t) = some (f, t) :=
  c.settled h t

theorem Complete.ne_nil (h : c.Complete f) : f ≠ [] := c.nonempty h

/-- **A stream is cut in one way**: frames at the head of a stream of frames are the first of
these. -/
theorem prefix_code {fs gs : List (List α)} (hfs : ∀ f ∈ fs, c.Complete f)
    (hgs : ∀ g ∈ gs, c.Complete g) {rest : List α} (h : fs.flatten ++ rest = gs.flatten) :
    ∃ left, fs ++ left = gs ∧ rest = left.flatten := by
  induction fs generalizing gs with
  | nil => exact ⟨gs, rfl, h⟩
  | cons f fs ih =>
      have hf : c.Complete f := hfs f List.mem_cons_self
      rw [List.flatten_cons, List.append_assoc] at h
      cases gs with
      | nil => exact absurd (List.append_eq_nil_iff.1 h).1 hf.ne_nil
      | cons g gs =>
          have hg : c.Complete g := hgs g List.mem_cons_self
          have hcut := hf.append (fs.flatten ++ rest)
          rw [h, List.flatten_cons, hg.append] at hcut
          obtain ⟨rfl, hrest⟩ := Prod.mk.inj (Option.some.inj hcut)
          obtain ⟨left, hleft, hflat⟩ := ih (fun f hf => hfs f (List.mem_cons_of_mem _ hf))
            (fun g hg => hgs g (List.mem_cons_of_mem _ hg)) hrest.symm
          exact ⟨left, by rw [List.cons_append, hleft], hflat⟩

end Cutter

end RtuA118
