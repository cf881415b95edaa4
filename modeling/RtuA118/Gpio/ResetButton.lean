import RtuA118.Driver.GpioIrq

/-!
# RtuA118.Gpio.ResetButton

The **reset button**, from the interrupt of its pin to the factory reset.

The LED thread looks at the button in every fourth of its turns, and resets when it finds it down
for the third time in a row. So a press resets once, however long it lasts, if the thread takes
twelve turns in the meantime, and not at all if it takes eight (`press_resets`); and the interrupts
of other pins, which come by the same slot, make no difference. A release and a press between two
looks are one long press to the thread: it counts on.
-/

namespace RtuA118

open Run (Reach Trace guarded)

/-! ### Turns with the button down -/

/-- Among `n` turns from the turn `i` on, those that look at the button. -/
def looks : Nat → Nat → Nat
  | _, 0 => 0
  | i, n + 1 => (if i % 4 = 0 then 1 else 0) + looks (i + 1) n

theorem looks_eq (n : Nat) : ∀ i, looks i n = (i + n + 3) / 4 - (i + 3) / 4 := by
  induction n with
  | zero =>
      intro i
      rw [looks, Nat.add_zero, Nat.sub_self]
  | succ n ih =>
      intro i
      rw [looks, ih]
      split <;> omega

/-- The loop after turns that looked `k` times and found the button down. -/
structure LedLoop.Pressed (c : LedLoop) (k : Nat) (c' : LedLoop) : Prop where
  down : c'.buttonDownTime = c.buttonDownTime + k
  resets : c'.resets =
    c.resets + if c.buttonDownTime < 3 ∧ 3 ≤ c.buttonDownTime + k then 1 else 0

theorem LedLoop.pressed_refl (c : LedLoop) : c.Pressed 0 c :=
  ⟨rfl, by rw [if_neg (by omega), Nat.add_zero]⟩

theorem LedLoop.Pressed.trans {c c' c'' : LedLoop} {k k' : Nat} (h : c.Pressed k c')
    (h' : c'.Pressed k' c'') : c.Pressed (k + k') c'' := by
  refine ⟨by rw [h'.down, h.down, Nat.add_assoc], ?_⟩
  -- the third time is in one of the two parts
  rw [h'.resets, h.resets, h.down]
  split_ifs <;> omega

theorem LedLoop.pressed_turn (c : LedLoop) :
    c.Pressed (if c.i % 4 = 0 then 1 else 0) (c.turn buttonDown) := by
  by_cases hlook : c.i % 4 = 0
  · refine ⟨by simp [turn, hlook], ?_⟩
    simp only [turn, hlook, true_and, if_true]
    split_ifs <;> omega
  · exact ⟨by simp [turn, hlook], by simp [turn, hlook]⟩

/-! ### The button while no interrupt of its pin comes -/

/-- A turn of the LED thread. -/
def IrqEvent.isLed : IrqEvent → Bool
  | .led => true
  | _ => false

namespace Irq

/-- The button is down, and what slot and reader hold is of other pins. -/
structure Down (s : Irq) : Prop where
  button : s.button = buttonDown
  half : s.reader ≠ .copiedPin resetPin
  copied : ∀ level, s.reader ≠ .copied resetPin level
  slot : s.Unread ∨ s.handler ≠ .idle → s.sndPin ≠ resetPin

theorem down_of_quiet {s : Irq} (hq : s.Quiet) (hbutton : s.button = buttonDown) : s.Down := by
  obtain ⟨hidle, hflag, hwait⟩ := hq
  refine ⟨hbutton, by simp [hwait], by simp [hwait], fun hun => ?_⟩
  simp [Unread, hidle, hflag, hwait] at hun

theorem down_step {s s' : Irq} {e : IrqEvent} (h : s.Down) (hother : e ≠ .irq resetPin)
    (hs : IrqStep s e s') : s'.Down := by
  cases hs with
  | @irq p hp hidle =>
      have hp : p ≠ resetPin := fun heq => hother (heq ▸ rfl)
      exact ⟨h.button, h.half, h.copied, fun _ => hp⟩
  | sample level hp => exact ⟨h.button, h.half, h.copied, fun _ => h.slot (.inr (by simp [hp]))⟩
  | raise hp => exact ⟨h.button, h.half, h.copied, fun _ => h.slot (.inr (by simp [hp]))⟩
  | wake hr hflag =>
      exact ⟨h.button, by simp, by simp, fun _ => h.slot (.inl (.inl hflag))⟩
  | clear hr =>
      exact ⟨h.button, by simp, by simp, fun _ => h.slot (.inl (.inr (.inl hr)))⟩
  | copyPin hr =>
      have hpin : s.sndPin ≠ resetPin := h.slot (.inl (.inr (.inr hr)))
      exact ⟨h.button, by simpa using hpin, by simp, fun _ => hpin⟩
  | @copyLevel q hr =>
      have hq : q ≠ resetPin := fun heq => h.half (heq ▸ hr)
      refine ⟨h.button, by simp, by simp [hq], fun hun => h.slot (hun.imp_left ?_)⟩
      rintro (hflag | hr' | hr')
      · exact .inl hflag
      · cases hr'
      · cases hr'
  | @take q level hr =>
      have hq : q ≠ resetPin := fun heq => h.copied level (heq ▸ hr)
      refine ⟨by simp [threadGpioIrq, hq, h.button], by simp, by simp, fun hun =>
        h.slot (hun.imp_left ?_)⟩
      rintro (hflag | hr' | hr')
      · exact .inl hflag
      · cases hr'
      · cases hr'
  | led => exact ⟨h.button, h.half, h.copied, h.slot⟩

/-- Every step leaves the LED thread alone, or is a turn of its. -/
theorem led_step {s s' : Irq} {e : IrqEvent} (hs : IrqStep s e s') :
    s'.led = if e.isLed then s.led.turn s.button else s.led := by
  cases hs <;> rfl

/-- **A press is counted**, whatever comes of other pins. -/
theorem pressed_of_trace {s s' : Irq} {es : List IrqEvent} (hrun : Trace IrqStep s es s')
    (hdown : s.Down) (hheld : ∀ e ∈ es, e ≠ .irq resetPin) :
    s.led.Pressed (looks s.led.i (es.countP (·.isLed))) s'.led := by
  induction hrun with
  | nil s => exact s.led.pressed_refl
  | @cons s s₁ s' e es hs _ ih =>
      have hother : e ≠ .irq resetPin := hheld e List.mem_cons_self
      have hrest := ih (down_step hdown hother hs) fun e he => hheld e (List.mem_cons_of_mem _ he)
      rw [led_step hs] at hrest
      cases hled : e.isLed with
      | false => simpa [hled] using hrest
      | true =>
          rw [List.countP_cons, if_pos hled, looks]
          rw [if_pos hled, hdown.button] at hrest
          exact s.led.pressed_turn.trans hrest

/-- **A long press resets once, a short one not**: while the button is held, the LED thread resets
where its count of looks at the button comes to three. From a count of 0, twelve turns make one
reset, and however many more no other; eight make none. -/
theorem press_resets {s s' : Irq} {es : List IrqEvent} {level : Int}
    (h : Reach (· = start) (guarded Ok IrqStep) s) (hq : s.Quiet)
    (hlast : lastReset s.reports = some level) (hlevel : level ≠ 1)
    (hrun : Trace IrqStep s es s') (hheld : ∀ e ∈ es, e ≠ .irq resetPin) :
    s'.led.resets = s.led.resets + (if s.led.buttonDownTime < 3 ∧
        3 ≤ s.led.buttonDownTime + looks s.led.i (es.countP (·.isLed)) then 1 else 0) ∧
      (s.led.buttonDownTime = 0 →
        (12 ≤ es.countP (·.isLed) → s'.led.resets = s.led.resets + 1) ∧
        (es.countP (·.isLed) ≤ 8 → s'.led.resets = s.led.resets)) := by
  have hbutton : s.button = buttonDown := by
    rw [(irq_run h).button hq level hlast, buttonOf, if_neg hlevel]
  have hpress := (pressed_of_trace hrun (down_of_quiet hq hbutton) hheld).resets
  refine ⟨hpress, fun hcount => ⟨fun hlong => ?_, fun hshort => ?_⟩⟩
  · rw [hpress, looks_eq, hcount, if_pos (by omega)]
  · rw [hpress, looks_eq, hcount, if_neg (by omega), Nat.add_zero]

/-- The button pressed, and the thread's next turns. -/
theorem trace_turns (n : Nat) : ∀ s : Irq, ∃ s', Trace IrqStep s (.replicate n .led) s' := by
  induction n with
  | zero => exact fun s => ⟨s, .nil s⟩
  | succ n ih =>
      intro s
      obtain ⟨s', hs'⟩ := ih { s with led := s.led.turn s.button }
      exact ⟨s', .cons .led hs'⟩

/-- The button is held for twenty turns from the start. -/
theorem press_resets_once : ∃ s' : Irq, s'.led.resets = 1 := by
  have hstart : Reach (· = start) (guarded Ok IrqStep) start := .start rfl
  have hpress := reach_interrupted resetPin 0 hstart (by decide) rfl
    (by simp [Ok, Unread, start]) (by simp [Ok]) fun _ => trivial
  have hread := reach_readOut hpress rfl rfl (by simp [Ok, interrupted]) fun _ =>
    ⟨trivial, trivial, trivial, trivial⟩
  obtain ⟨s', hs'⟩ := trace_turns 20 (start.interrupted resetPin 0).readOut
  have hheld : ∀ e ∈ List.replicate 20 IrqEvent.led, e ≠ .irq resetPin := by
    intro e he
    obtain rfl := List.eq_of_mem_replicate he
    intro h
    cases h
  have hlast : lastReset (start.interrupted resetPin 0).readOut.reports = some 0 := by decide
  have h := press_resets hread ⟨rfl, rfl, rfl⟩ hlast (by decide) hs' hheld
  exact ⟨s', (h.2 rfl).1 (by decide)⟩

end Irq

end RtuA118
