import RtuA118.Serial.Loop

/-!
# RtuA118.Serial.Frame

What an operation **leaves alone**. An operation of the master's work other than
a wait changes the unit, one context's address or nothing of the thread's own
(`exec_within`); a wait does what the handler does, and `msgHandler_cases` says
what that can be.
-/

namespace RtuA118

open Program Serial

namespace Rs485

/-- The locals of the loop and the allocation of the contexts are as before. -/
structure Frame (s s' : Rs485) : Prop where
  ctx : s'.ctx = s.ctx
  allocated : s'.allocated = s.allocated
  ctrl : s'.ctrl = s.ctrl
  synAlongInfo : s'.synAlongInfo = s.synAlongInfo
  serving : s'.serving = s.serving
  history : s'.history = s.history
  alive : ∀ c, (s'.contexts c).alive = (s.contexts c).alive

theorem Frame.refl (s : Rs485) : s.Frame s := ⟨rfl, rfl, rfl, rfl, rfl, rfl, fun _ => rfl⟩

theorem Frame.onContext {s : Rs485} {i : Input} {c : Nat} {f : Context → Context}
    (hf : ∀ x, (f x).alive = x.alive) : s.Frame ((s.arrive i).onContext c f) := by
  refine ⟨rfl, rfl, rfl, rfl, rfl, rfl, fun c' => ?_⟩
  by_cases hc : c' = c
  · subst hc
    simp [Rs485.onContext, Rs485.arrive, hf]
  · simp [Rs485.onContext, Rs485.arrive, hc]

variable {h : Host} {role : Role} {e : Act} {i : Input} {s s' : Rs485} {r : e.Out}

/-- An operation that has an answer follows a context that is allocated. -/
theorem exec_some (he : exec h role e i s = some (r, s')) :
    s.Follows e ∧ perform h role e i (s.arrive i) = some (r, s') := by
  by_cases hf : s.Follows e
  · rw [exec, if_pos hf] at he
    exact ⟨hf, he⟩
  · rw [exec, if_neg hf] at he
    cases he

theorem exec_eq (hf : s.Follows e) : exec h role e i s = perform h role e i (s.arrive i) :=
  if_pos hf

theorem follows_of_none {e : Act} {s : Rs485} (he : e.context = none) : s.Follows e := by
  intro c hc
  rw [he] at hc
  cases hc

theorem follows_of {c : Nat} {e : Act} {s : Rs485} (he : e.context = some c)
    (hs : (s.contexts c).alive = true) : s.Follows e := by
  intro c' hc'
  rw [he] at hc'
  cases hc'
  exact hs

/-- **One operation of the master's work.** -/
theorem exec_within {c : Nat} (hk : e.WithinRun c) (he : exec h role e i s = some (r, s')) :
    e = .select c ∧ s' = (s.arrive i).take h role i ∨ e ≠ .select c ∧ s.Frame s' := by
  obtain ⟨-, hp⟩ := exec_some he
  have harrive : s.Frame (s.arrive i) := ⟨rfl, rfl, rfl, rfl, rfl, rfl, fun _ => rfl⟩
  -- only `select` takes a message; what the others touch is in their own branches
  rcases hk with hk | ⟨k, rfl⟩ | ⟨a, b, rfl⟩
  · cases e with
    | select c' =>
        obtain rfl : c' = c := hk
        cases hp
        exact .inl ⟨rfl, rfl⟩
    | send c' request =>
        refine .inr ⟨nofun, ?_⟩
        simp only [perform] at hp
        split at hp <;> cases hp <;> exact ⟨rfl, rfl, rfl, rfl, rfl, rfl, fun _ => rfl⟩
    | setSlave c' v =>
        cases hp
        exact .inr ⟨nofun, .onContext fun _ => rfl⟩
    | putSlave c' v =>
        cases hp
        exact .inr ⟨nofun, .onContext fun _ => rfl⟩
    | stampSample row slot =>
        refine .inr ⟨nofun, ?_⟩
        simp only [perform] at hp
        split at hp <;> cases hp
        exact ⟨rfl, rfl, rfl, rfl, rfl, rfl, fun _ => rfl⟩
    | clearMac row =>
        refine .inr ⟨nofun, ?_⟩
        simp only [perform] at hp
        split at hp <;> cases hp
        exact ⟨rfl, rfl, rfl, rfl, rfl, rfl, fun _ => rfl⟩
    | recv _ _ | touch _ | getSlave _ | time | gettimeofday | timerSleep _ | ownWellNo _
    | readWord _ _ _ | readWords _ _ _ =>
        cases hp
        exact .inr ⟨nofun, harrive⟩
    | writeWords _ _ _ | saveTime _ _ =>
        cases hp
        exact .inr ⟨nofun, ⟨rfl, rfl, rfl, rfl, rfl, rfl, fun _ => rfl⟩⟩
    | getCtx | getCtrl | setCtrl _ | waitMsg _ | chooseOperation | switchCtrl | syn _
    | divide _ _ | reply _ _ => exact hk.elim
  · cases hp
    exact .inr ⟨nofun, harrive⟩
  · refine .inr ⟨nofun, ?_⟩
    simp only [perform] at hp
    split at hp <;> cases hp
    exact harrive

/-! ### The loop's own operations -/

theorem exec_chooseOperation {r : Unit} (he : exec h role .chooseOperation i s = some (r, s')) :
    s' = (s.arrive i).chooseOperation :=
  (congrArg Prod.snd (Option.some.inj (exec_some he).2)).symm

/-- The timers choose an operation only where none is asked for. -/
theorem chooseOperation_cases (s : Rs485) :
    s.chooseOperation = s ∨ s.ctrl = .default ∧ ∃ t,
      s.chooseOperation = { s with electricalSampleTime := t, ctrl := .electrical } ∨
      s.chooseOperation = { s with actuatorSampleTime := t, ctrl := .actuator } := by
  unfold Rs485.chooseOperation
  dsimp only
  split
  · rename_i hc
    exact .inr ⟨hc.2, _, .inl rfl⟩
  · split
    · rename_i hc
      exact .inr ⟨hc.2, _, .inr rfl⟩
    · exact .inl rfl

/-! ### The handler -/

/-- **What the handler does**: it leaves the contexts and the request alone, or it
takes a new request, or it renews the context. -/
theorem msgHandler_cases (h : Host) (role : Role) (msg : Msg) (s : Rs485) :
    s.Frame (s.msgHandler h role msg) ∧ (s.msgHandler h role msg).contexts = s.contexts ∨
    (∃ t n m g, msg = .loadElecSysn t n m g ∧ s.msgHandler h role msg =
      { s with
        ctrl := .electricalSync
        synAlongInfo := ⟨t, n, m⟩
        history := s.history ++ [.requested ⟨t, n, m⟩] }) ∨
    msg = .configStart ∧ s.Reconfigures h role ∧
      s.msgHandler h role msg = (s.readPortInfo h role).renew (s.foundSettings h role) := by
  have hread : s.Frame (s.readPortInfo h role) ∧ (s.readPortInfo h role).contexts = s.contexts := by
    unfold readPortInfo
    split <;> exact ⟨⟨rfl, rfl, rfl, rfl, rfl, rfl, fun _ => rfl⟩, rfl⟩
  cases msg with
  | configStart =>
      by_cases hre : s.Reconfigures h role
      · exact .inr (.inr ⟨rfl, hre, by simp [msgHandler, hre]⟩)
      · exact .inl (by simpa [msgHandler, hre] using hread)
  | config2Start =>
      cases role with
      | master => exact .inl ⟨⟨rfl, rfl, rfl, rfl, rfl, rfl, fun _ => rfl⟩, rfl⟩
      | slave => exact .inl ⟨.refl s, rfl⟩
  | requestHData well => exact .inl ⟨.refl s, by cases role <;> rfl⟩
  | loadElecSysn synchronTime cycleTime samplePoints group =>
      cases role with
      | master => exact .inr (.inl ⟨synchronTime, cycleTime, samplePoints, group, rfl, rfl⟩)
      | slave => exact .inl ⟨.refl s, rfl⟩

end Rs485

end RtuA118
