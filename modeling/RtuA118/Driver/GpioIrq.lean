import RtuA118.Lib.Run
import RtuA118.Gpio.Outputs

/-!
# RtuA118.Driver.GpioIrq

The way of a pin **interrupt** to the application: the handler of the driver, its
`gpio_read`, the thread that reads and the button counter of the LED thread.

Handler and reader share one slot of two words and a flag, and neither locks. Each
store and each load of theirs is a step of its own here (`IrqStep`), so a run is any
interleaving of the two. `reports` and `obtained` are history: the pairs that the
interrupts brought and the pairs that the reader got.

Two things go wrong. A report that is not read yet is **overwritten** by the next, of
whichever pin; and a reader between the two words takes a **torn** pair. `IrqOk` leaves
out both, and `irq_run` is the invariant of every other run.
-/

namespace RtuA118

open Run (Reach guarded)

/-! ### The application's side -/

def buttonDown : Int := 1
def buttonUp : Int := 0

/-- `LEDS_GPIO_DI_RESET`. -/
def resetPin : Nat := gpioToPin 0 7

/-- The pins of `irq_num_table`. -/
def irqNumTable : List Nat :=
  [resetPin, gpioToPin 1 15, gpioToPin 1 14, gpioToPin 1 13, gpioToPin 1 12, gpioToPin 0 27,
    gpioToPin 0 26, gpioToPin 0 23, gpioToPin 0 22, gpioToPin 0 31]

/-- What the thread stores for a level of the reset pin. -/
def buttonOf (level : Int) : Int := if level = 1 then buttonUp else buttonDown

/-- One turn of `thread_gpio_irq` after the read: only the reset pin has an effect. -/
def threadGpioIrq (pinNum : Nat) (pinStatus button : Int) : Int :=
  if pinNum = resetPin then buttonOf pinStatus else button

/-- The locals of `thread_gpio_test` that follow the button. -/
structure LedLoop where
  i : Nat
  buttonDownTime : Nat
  /-- the calls of `reset_flash1_to_default` -/
  resets : Nat
deriving DecidableEq

/-- One turn of the loop: every fourth looks at the button. -/
def LedLoop.turn (c : LedLoop) (button : Int) : LedLoop where
  i := c.i + 1
  buttonDownTime :=
    if c.i % 4 = 0 then if button = buttonDown then c.buttonDownTime + 1 else 0
    else c.buttonDownTime
  resets :=
    if c.i % 4 = 0 ∧ button = buttonDown ∧ c.buttonDownTime + 1 = 3 then c.resets + 1
    else c.resets

/-! ### The slot -/

/-- Where the handler stands between its three stores. -/
inductive Handler where
  | idle
  | pinStored (p : Nat)
  | levelStored (p : Nat)
deriving DecidableEq

/-- Where the reader stands: in `wait_event`, past it, past the clearing of the flag,
and past each of the two words. -/
inductive Reader where
  | waiting
  | awake
  | cleared
  | copiedPin (p : Nat)
  | copied (p : Nat) (level : Int)
deriving DecidableEq

/-- Driver and threads. -/
structure Irq where
  sndPin : Nat
  sndLevel : Int
  gpioFlag : Bool
  handler : Handler
  reader : Reader
  button : Int
  led : LedLoop
  /-- the pairs that the interrupts brought, the last one first -/
  reports : List (Nat × Int)
  /-- the pairs that the reader got, the last one first -/
  obtained : List (Nat × Int)
deriving DecidableEq

/-- Driver loaded and threads started: `thread_gpio_test` leaves the button at -1. -/
def Irq.start : Irq :=
  ⟨0, 0, false, .idle, .waiting, -1, ⟨0, 0, 0⟩, [], []⟩

/-- The steps: three of the handler, five of the reader, one of the LED thread. -/
inductive IrqEvent where
  | irq (p : Nat)
  | sample (level : Int)
  | raise
  | wake
  | clear
  | copyPin
  | copyLevel
  | take
  | led

/-- One step of `handler`, of `gpio_read` and its thread, or of the LED thread. -/
inductive IrqStep (s : Irq) : IrqEvent → Irq → Prop where
  | irq {p : Nat} (hp : p ∈ irqNumTable) (h : s.handler = .idle) :
      IrqStep s (.irq p) { s with sndPin := p, handler := .pinStored p }
  | sample {p : Nat} (level : Int) (h : s.handler = .pinStored p) :
      IrqStep s (.sample level)
        { s with
          sndLevel := level
          handler := .levelStored p
          reports := (p, level) :: s.reports }
  | raise {p : Nat} (h : s.handler = .levelStored p) :
      IrqStep s .raise { s with gpioFlag := true, handler := .idle }
  | wake (h : s.reader = .waiting) (hflag : s.gpioFlag = true) :
      IrqStep s .wake { s with reader := .awake }
  | clear (h : s.reader = .awake) :
      IrqStep s .clear { s with gpioFlag := false, reader := .cleared }
  | copyPin (h : s.reader = .cleared) :
      IrqStep s .copyPin { s with reader := .copiedPin s.sndPin }
  | copyLevel {p : Nat} (h : s.reader = .copiedPin p) :
      IrqStep s .copyLevel
        { s with
          reader := .copied p s.sndLevel
          obtained := (p, s.sndLevel) :: s.obtained }
  | take {p : Nat} {level : Int} (h : s.reader = .copied p level) :
      IrqStep s .take
        { s with reader := .waiting, button := threadGpioIrq p level s.button }
  | led : IrqStep s .led { s with led := s.led.turn s.button }

/-! ### What should arrive -/

/-- The level of the reset pin's last interrupt. -/
def lastReset (reports : List (Nat × Int)) : Option Int :=
  (reports.find? fun r => r.1 = resetPin).map Prod.snd

/-- The button's value for it; -1 before the first. -/
def buttonFor : Option Int → Int
  | some level => buttonOf level
  | none => -1

@[simp] theorem lastReset_reset (level : Int) (rs : List (Nat × Int)) :
    lastReset ((resetPin, level) :: rs) = some level := by
  simp [lastReset]

@[simp] theorem lastReset_other {p : Nat} (hp : p ≠ resetPin) (level : Int)
    (rs : List (Nat × Int)) : lastReset ((p, level) :: rs) = lastReset rs := by
  simp [lastReset, hp]

namespace Irq

/-- No interrupt is on its way and the reader is blocked. -/
def Quiet (s : Irq) : Prop :=
  s.handler = .idle ∧ s.gpioFlag = false ∧ s.reader = .waiting

/-- **Interrupts arrive**: the button stands where the reset pin's last interrupt put it,
every pair was reported as such, and the LED thread counts only a pressed button. -/
structure Arrived (s : Irq) : Prop where
  button : s.Quiet → ∀ level, lastReset s.reports = some level → s.button = buttonOf level
  paired : ∀ r ∈ s.obtained, r ∈ s.reports
  counts : s.Quiet → s.led.buttonDownTime < (s.led.turn s.button).buttonDownTime →
    ∃ level, lastReset s.reports = some level ∧ level ≠ 1

/-- The slot will still be copied as it is. -/
def Unread (s : Irq) : Prop :=
  s.gpioFlag = true ∨ s.reader = .awake ∨ s.reader = .cleared

/-- The conditions on an interrupt and on the reader's second load. -/
def Ok (s : Irq) : IrqEvent → Prop
  -- an unread report of the reset pin is overwritten by none of another pin
  | .irq p => s.Unread → s.sndPin = resetPin → p = resetPin
  -- the level in the slot came with the pin that the reader has copied
  | .copyLevel => ∀ q, s.reader = .copiedPin q → s.reports.head?.map Prod.fst = some q
  | _ => True

/-! ### The slot and the reports -/

/-- What slot and reader hold was reported. -/
structure Held (s : Irq) : Prop where
  stored : ∀ p, s.handler = .pinStored p ∨ s.handler = .levelStored p → s.sndPin = p
  level : ∀ r, s.reports.head? = some r → r.2 = s.sndLevel
  paired : ∀ r ∈ s.obtained, r ∈ s.reports

theorem start_held : start.Held := by
  refine ⟨?_, ?_, ?_⟩ <;> simp [start]

/-- The reports begin with the pin whose level the slot holds. -/
theorem Held.head {s : Irq} (h : s.Held) {q : Nat}
    (hq : s.reports.head?.map Prod.fst = some q) : ∃ rs, s.reports = (q, s.sndLevel) :: rs := by
  obtain ⟨r, hhead, rfl⟩ := Option.map_eq_some_iff.1 hq
  obtain ⟨rs, hrs⟩ := List.head?_eq_some_iff.1 hhead
  exact ⟨rs, by rw [hrs, ← h.level r hhead]⟩

theorem held_step {s s' : Irq} {e : IrqEvent} (h : s.Held) (hok : s.Ok e) (hs : IrqStep s e s') :
    s'.Held := by
  cases hs with
  | irq hp hidle => exact ⟨by simp, h.level, h.paired⟩
  | @sample p level hp =>
      have hpin := h.stored p (.inl hp)
      exact ⟨by simp [hpin], by simp, fun r hr => List.mem_cons_of_mem _ (h.paired r hr)⟩
  | raise hp => exact ⟨by simp, h.level, h.paired⟩
  | @copyLevel q hr =>
      -- the one load that may tear a pair
      obtain ⟨rs, hrs⟩ := h.head (hok q hr)
      refine ⟨h.stored, h.level, fun r hr' => ?_⟩
      rcases List.mem_cons.1 hr' with rfl | hr'
      · exact hrs ▸ List.mem_cons_self
      · exact h.paired r hr'
  | wake hr hflag => exact ⟨h.stored, h.level, h.paired⟩
  | clear hr => exact ⟨h.stored, h.level, h.paired⟩
  | copyPin hr => exact ⟨h.stored, h.level, h.paired⟩
  | take hr => exact ⟨h.stored, h.level, h.paired⟩
  | led => exact ⟨h.stored, h.level, h.paired⟩

/-! ### The last report of the reset pin -/

/-- Where the last report of the reset pin is: in the slot, half copied, copied, or in
the button. -/
inductive Settled (s : Irq) : Prop where
  | fresh (hpin : s.sndPin = resetPin) (h : s.Unread ∨ s.handler ≠ .idle)
  | half (hr : s.reader = .copiedPin resetPin)
  | copied {level : Int} (hr : s.reader = .copied resetPin level)
      (h : buttonOf level = buttonFor (lastReset s.reports))
  | done (hhalf : s.reader ≠ .copiedPin resetPin)
      (hcopied : ∀ level, s.reader ≠ .copied resetPin level)
      (h : s.button = buttonFor (lastReset s.reports))

theorem start_settled : start.Settled := by
  refine .done ?_ ?_ ?_ <;> simp [start, lastReset, buttonFor]

theorem settled_step {s s' : Irq} {e : IrqEvent} (hheld : s.Held) (h : s.Settled) (hok : s.Ok e)
    (hs : IrqStep s e s') : s'.Settled := by
  cases hs with
  | @irq p hp hidle =>
      cases h with
      | fresh hpin hun =>
          have hun' : s.Unread := hun.resolve_right (by simp [hidle])
          exact .fresh (hok hun' hpin) (.inr (by simp))
      | half hr => exact .half hr
      | copied hr h => exact .copied hr h
      | done hhalf hcopied h => exact .done hhalf hcopied h
  | @sample p level hp =>
      have hpin := hheld.stored p (.inl hp)
      by_cases hreset : p = resetPin
      · exact .fresh (hpin.trans hreset) (.inr (by simp))
      · -- another pin's report leaves the last one of the reset pin
        cases h with
        | fresh hslot _ => exact absurd (hpin.symm.trans hslot) hreset
        | half hr => exact .half hr
        | copied hr h => exact .copied hr (by simpa [hreset] using h)
        | done hhalf hcopied h => exact .done hhalf hcopied (by simpa [hreset] using h)
  | raise hp =>
      cases h with
      | fresh hpin _ => exact .fresh hpin (.inl (.inl rfl))
      | half hr => exact .half hr
      | copied hr h => exact .copied hr h
      | done hhalf hcopied h => exact .done hhalf hcopied h
  | wake hr hflag =>
      cases h with
      | fresh hpin _ => exact .fresh hpin (.inl (.inr (.inl rfl)))
      | half hr' => simp [hr] at hr'
      | copied hr' _ => simp [hr] at hr'
      | done _ _ h => exact .done (by simp) (by simp) h
  | clear hr =>
      cases h with
      | fresh hpin _ => exact .fresh hpin (.inl (.inr (.inr rfl)))
      | half hr' => simp [hr] at hr'
      | copied hr' _ => simp [hr] at hr'
      | done _ _ h => exact .done (by simp) (by simp) h
  | copyPin hr =>
      by_cases hpin : s.sndPin = resetPin
      · exact .half (by simp [hpin])
      · cases h with
        | fresh hpin' _ => exact absurd hpin' hpin
        | half hr' => simp [hr] at hr'
        | copied hr' _ => simp [hr] at hr'
        | done _ _ h => exact .done (by simpa using hpin) (by simp) h
  | @copyLevel q hr =>
      cases h with
      | fresh hpin hun =>
          refine .fresh hpin (hun.imp_left fun hun => ?_)
          -- past the pin, only the flag says that the slot is unread
          rcases hun with hflag | hr' | hr'
          · exact .inl hflag
          · simp [hr] at hr'
          · simp [hr] at hr'
      | half hr' =>
          obtain rfl : q = resetPin := by simpa [hr] using hr'
          obtain ⟨rs, hrs⟩ := hheld.head (hok _ hr)
          exact .copied rfl (by simp [hrs, buttonFor])
      | copied hr' _ => simp [hr] at hr'
      | done hhalf _ h => exact .done (by simp) (by simpa [hr] using hhalf) h
  | @take q level hr =>
      cases h with
      | fresh hpin hun =>
          refine .fresh hpin (hun.imp_left fun hun => ?_)
          rcases hun with hflag | hr' | hr'
          · exact .inl hflag
          · simp [hr] at hr'
          · simp [hr] at hr'
      | half hr' => simp [hr] at hr'
      | @copied l hr' h =>
          obtain ⟨rfl, rfl⟩ : q = resetPin ∧ level = l := by simpa [hr] using hr'
          exact .done (by simp) (by simp) (by simpa [threadGpioIrq] using h)
      | done _ hcopied h =>
          have hq : q ≠ resetPin := fun hq => hcopied level (by rw [hr, hq])
          exact .done (by simp) (by simp) (by simpa [threadGpioIrq, hq] using h)
  | led =>
      cases h with
      | fresh hpin hun => exact .fresh hpin hun
      | half hr => exact .half hr
      | copied hr h => exact .copied hr h
      | done hhalf hcopied h => exact .done hhalf hcopied h

/-- A quiet driver has its last report of the reset pin in the button. -/
theorem Settled.button_of_quiet {s : Irq} (h : s.Settled) (hq : s.Quiet) :
    s.button = buttonFor (lastReset s.reports) := by
  obtain ⟨hidle, hflag, hwait⟩ := hq
  cases h with
  | fresh _ hun => simp [Unread, hidle, hflag, hwait] at hun
  | half hr => simp [hwait] at hr
  | copied hr _ => simp [hwait] at hr
  | done _ _ h => exact h

/-- A turn that counts saw the button down. -/
theorem button_of_turn {c : LedLoop} {button : Int}
    (h : c.buttonDownTime < (c.turn button).buttonDownTime) : button = buttonDown := by
  unfold LedLoop.turn at h
  by_contra hup
  simp only [hup, if_false] at h
  split at h <;> omega

theorem arrived_of {s : Irq} (hheld : s.Held) (h : s.Settled) : s.Arrived := by
  refine ⟨fun hq level hlast => ?_, hheld.paired, fun hq hcount => ?_⟩
  · rw [h.button_of_quiet hq, hlast, buttonFor]
  · have hdown := button_of_turn hcount
    rw [h.button_of_quiet hq] at hdown
    cases hlast : lastReset s.reports with
    | none => simp [hlast, buttonFor, buttonDown] at hdown
    | some level =>
        refine ⟨level, rfl, fun hone => ?_⟩
        simp [hlast, hone, buttonFor, buttonOf, buttonDown, buttonUp] at hdown

/-- **Interrupts arrive** in every run whose steps meet the conditions. -/
theorem irq_run {s : Irq} (h : Reach (· = start) (guarded Ok IrqStep) s) : s.Arrived := by
  have hinv : s.Held ∧ s.Settled := by
    refine h.invariant (P := fun s => s.Held ∧ s.Settled) ?_ fun _ _ _ hi ha =>
      ⟨held_step hi.1 ha.1 ha.2, settled_step hi.1 hi.2 ha.1 ha.2⟩
    rintro _ rfl
    exact ⟨start_held, start_settled⟩
  exact arrived_of hinv.1 hinv.2

/-! ### The button's report overwritten -/

/-- A whole run of the handler, and a whole turn of the reader. -/
def interrupted (s : Irq) (p : Nat) (level : Int) : Irq :=
  { s with
    sndPin := p
    sndLevel := level
    gpioFlag := true
    handler := .idle
    reports := (p, level) :: s.reports }

def readOut (s : Irq) : Irq :=
  { s with
    gpioFlag := false
    reader := .waiting
    button := threadGpioIrq s.sndPin s.sndLevel s.button
    obtained := (s.sndPin, s.sndLevel) :: s.obtained }

theorem reach_interrupted {guard : Irq → IrqEvent → Prop} {s : Irq} (p : Nat) (level : Int)
    (h : Reach (· = start) (guarded guard IrqStep) s) (hp : p ∈ irqNumTable)
    (hidle : s.handler = .idle) (hirq : guard s (.irq p))
    (hsample : guard { s with sndPin := p, handler := .pinStored p } (.sample level))
    (hraise : ∀ s, guard s .raise) :
    Reach (· = start) (guarded guard IrqStep) (s.interrupted p level) := by
  have h1 := h.step ⟨hirq, .irq hp hidle⟩
  have h2 := h1.step ⟨hsample, .sample level rfl⟩
  exact h2.step ⟨hraise _, .raise rfl⟩

theorem reach_readOut {guard : Irq → IrqEvent → Prop} {s : Irq}
    (h : Reach (· = start) (guarded guard IrqStep) s) (hwait : s.reader = .waiting)
    (hflag : s.gpioFlag = true)
    (hcopy : guard { s with gpioFlag := false, reader := .copiedPin s.sndPin } .copyLevel)
    (hfree : ∀ s, guard s .wake ∧ guard s .clear ∧ guard s .copyPin ∧ guard s .take) :
    Reach (· = start) (guarded guard IrqStep) s.readOut := by
  have h1 := h.step ⟨(hfree _).1, .wake hwait hflag⟩
  have h2 := h1.step ⟨(hfree _).2.1, .clear rfl⟩
  have h3 := h2.step ⟨(hfree _).2.2.1, .copyPin rfl⟩
  have h4 := h3.step ⟨hcopy, .copyLevel rfl⟩
  exact h4.step ⟨(hfree _).2.2.2, .take rfl⟩

/-- The button is pressed, and an input rises before the thread has read. -/
theorem not_irq_run : ¬ ∀ s, Reach (· = start) IrqStep s → s.Arrived := by
  intro h
  have hstart : Reach (· = start) (guarded (fun _ _ => True) IrqStep) start := .start rfl
  have hpress := reach_interrupted resetPin 0 hstart (by decide) rfl trivial
    trivial fun _ => trivial
  have hrise := reach_interrupted (gpioToPin 1 15) 1 hpress (by decide) rfl
    trivial trivial fun _ => trivial
  have hread := reach_readOut hrise rfl rfl trivial fun _ => ⟨trivial, trivial, trivial, trivial⟩
  have hbutton := (h _ hread.of_guarded).button ⟨rfl, rfl, rfl⟩ 0 (by decide)
  exact absurd hbutton (by decide)

/-- The button pressed, and read before the next interrupt. -/
theorem pressed_arrived : (start.interrupted resetPin 0).readOut.Arrived := by
  have hstart : Reach (· = start) (guarded Ok IrqStep) start := .start rfl
  have hpress := reach_interrupted resetPin 0 hstart (by decide) rfl
    (by simp [Ok, Unread, start]) (by simp [Ok]) fun _ => trivial
  exact irq_run (reach_readOut hpress rfl rfl (by simp [Ok, interrupted]) fun _ =>
    ⟨trivial, trivial, trivial, trivial⟩)

end Irq

end RtuA118
