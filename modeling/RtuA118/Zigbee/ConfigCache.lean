import RtuA118.Lib.Run
import RtuA118.Map.Access
import RtuA118.Zigbee.ParaFrames

/-!
# RtuA118.Zigbee.ConfigCache

The **cached configuration** of `thread_zigbee_tty_server` against what the module has
acknowledged.

The handler of `MSG_CONFIG_START` copies the nine registers to `zigbee_conf_buf` and then
calls `set_zigbee_para`, and next time it passes over registers that are the same. Whether the
module has acknowledged anything does not come into it. The loops of the call look for a frame
that names their order (`Confirms`), whatever kind it is of and whatever status it reports; an
acknowledgement is more than that (`Acknowledges`). And since each receive of the call
waits for messages too, the handler can run inside a call that it has made itself. So the
calls are a stack here, and a step is one message or one receive of the innermost call.

In a run whose settings are acknowledged and whose calls are not entered anew the copy is
right in every state (`configuration_applied`).
-/

namespace RtuA118

open Run (Reach guarded)

/-! ### The loops of `set_zigbee_para` -/

/-- An order, and the frame that is written for it, if there is one. -/
structure ParaStage where
  idName : UInt8 × UInt8
  frame : Option (List UInt8)
  deriving DecidableEq, Repr

/-- `ID`, `SC`, `EE` and `KY`, then `WR` and `NR`. -/
def settingOrders : List (UInt8 × UInt8) :=
  [(0x49, 0x44), (0x53, 0x43), (0x45, 0x45), (0x4b, 0x59)]

def paraOrders : List (UInt8 × UInt8) := settingOrders ++ [(0x57, 0x52), (0x4e, 0x52)]

/-- The loops of a call, in their order. -/
def paraStages (para : Nat → UInt16) : List ParaStage :=
  List.zipWith ParaStage.mk paraOrders (paraFrames para)

/-- One turn of a loop: what it is about, and what the receive in it returns. -/
structure ParaTurn where
  stage : ParaStage
  reply : Option (List UInt8)
  deriving DecidableEq, Repr

/-- `ZIGBEE_SET_ACK_FRAMID`. -/
def zigbeeSetAckFramid : UInt8 := 0x88

/-- The module has carried out an order: the answer to it is an acknowledgement with the
status 0. -/
def Acknowledges (idName : UInt8 × UInt8) (reply : Option (List UInt8)) : Prop :=
  Confirms idName reply ∧ ∀ f ∈ reply, f.getD 3 0 = zigbeeSetAckFramid ∧ f.getD 7 0 = 0

instance (idName : UInt8 × UInt8) (reply : Option (List UInt8)) :
    Decidable (Acknowledges idName reply) :=
  inferInstanceAs (Decidable (_ ∧ ∀ _ ∈ _, _))

/-- The frame that is acknowledged in a turn. -/
def ParaTurn.acked (t : ParaTurn) : Option (List UInt8) :=
  if Acknowledges t.stage.idName t.reply then t.stage.frame else none

/-- The last frame of an order that was acknowledged. -/
def lastAcked (idName : UInt8 × UInt8) (turns : List ParaTurn) : Option (List UInt8) :=
  turns.foldl (fun a t => if t.stage.idName = idName then t.acked.or a else a) none

section Turns

variable (x : XbeeModule)

/-- The turns of a loop of `n` turns at most, from the receive `r` on. -/
def apiTurns (stage : ParaStage) : Nat → Nat → List ParaTurn
  | 0, _ => []
  | n + 1, r =>
    ⟨stage, x.reply r⟩ ::
      if Confirms stage.idName (x.reply r) then [] else apiTurns stage n (r + 1)

/-- The turns of the loops that are left. -/
def paraTurns : List ParaStage → Nat → List ParaTurn
  | [], _ => []
  | stage :: stages, r =>
    let turns := apiTurns x stage resendNum r
    turns ++ paraTurns stages (r + turns.length)

/-- What a loop puts on the line. -/
theorem apiStage_eq (frame : Option (List UInt8)) (idName : UInt8 × UInt8) :
    ∀ (n : Nat) (p : TtyPort), apiStage x frame idName n p =
      { p with
        written := p.written ++ (apiTurns x ⟨idName, frame⟩ n p.receives).filterMap (·.stage.frame)
        receives := p.receives + (apiTurns x ⟨idName, frame⟩ n p.receives).length } := by
  intro n
  induction n with
  | zero => intro p; simp [apiStage, apiTurns]
  | succ n ih =>
      intro p
      unfold apiStage apiTurns
      dsimp only
      have hwrite : frame.elim p p.write = { p with written := p.written ++ frame.toList } := by
        cases frame <;> simp [TtyPort.write]
      rw [hwrite]
      split
      · cases frame <;> simp
      · rw [ih]
        cases frame <;> simp <;> omega

/-- **The stages make up the call.** -/
theorem setZigbeePara_eq (para : Nat → UInt16) :
    setZigbeePara x para =
      let p := (leaveCommandMode x).2.port
      { p with
        written := p.written ++ (paraTurns x (paraStages para) p.receives).filterMap (·.stage.frame)
        receives := p.receives + (paraTurns x (paraStages para) p.receives).length } := by
  have hleft : ¬ (-1 : Int) = (leaveCommandMode x).1.toNat := setAtOrder_ne _ _
  unfold setZigbeePara
  dsimp only
  rw [if_neg hleft]
  simp [apiStage_eq, paraStages, paraOrders, settingOrders, paraFrames, paraTurns, Nat.add_assoc]

end Turns

theorem lastAcked_append_singleton (idName : UInt8 × UInt8) (turns : List ParaTurn) (t : ParaTurn) :
    lastAcked idName (turns ++ [t]) =
      if t.stage.idName = idName then t.acked.or (lastAcked idName turns)
      else lastAcked idName turns := by
  simp [lastAcked]

/-! ### The thread -/

/-- `MAP_ADDR_ZIGBEE_PID`. -/
def mapAddrZigbeePid : Nat := 99

/-- The nine registers as the handler finds them: it reads the first 300 of well 1 into a
buffer that holds `buf`. -/
def zigbeeRegisters (env : Platform) (u : Rtu) (buf : Nat → UInt16) : List UInt16 :=
  let words := (zigbeeReadRegisters env u buf flash1MaxLen 1 0).getD
    ((List.range flash1MaxLen).map buf)
  (words.drop mapAddrZigbeePid).take 9

/-- They are the registers' words, where the map has the 300 cells. -/
theorem zigbeeRegisters_eq {env : Platform} {u : Rtu} {buf : Nat → UInt16} {conf : List UInt16}
    (hmax : flash1MaxLen ≤ u.map.xMax) (hlen : conf.length = 9)
    (hr : ReadsAs env u 1 mapAddrZigbeePid conf) : zigbeeRegisters env u buf = conf := by
  have hconf := hr fun k => buf (mapAddrZigbeePid + k)
  have h300 : flash1MaxLen = 300 := rfl
  have h99 : mapAddrZigbeePid = 99 := rfl
  unfold zigbeeReadRegisters at hconf
  rw [if_pos (cellArgsOk_iff.2 (by omega)), hlen] at hconf
  unfold zigbeeRegisters zigbeeReadRegisters
  rw [if_pos (cellArgsOk_iff.2 (by omega)), ← Option.some.inj hconf]
  apply List.ext_getElem
  · simp [h300, h99]
  · intro k hk _
    simp [List.getElem_take, List.getElem_drop]

/-- A call of `set_zigbee_para` in one of its receives: the loops that are left, the current one
first, and the turns that this one has behind it. -/
structure ParaCall where
  stages : List ParaStage
  resend : Nat
  deriving DecidableEq, Repr

/-- The thread: `zigbee_conf_buf`, the calls it is in, the innermost first, and the turns so
far. -/
structure ZigbeeTty where
  confBuf : List UInt16
  calls : List ParaCall
  turns : List ParaTurn
  deriving DecidableEq, Repr

namespace ZigbeeTty

/-- The nine words as `set_zigbee_para` takes them. -/
def para (conf : List UInt16) (k : Nat) : UInt16 := conf.getD k 0

/-- `memcpy(zigbee_conf_buf, …)` and `set_zigbee_para`, up to its first receive. -/
def configure (conf : List UInt16) (s : ZigbeeTty) : ZigbeeTty :=
  { s with confBuf := conf, calls := ⟨paraStages (para conf), 0⟩ :: s.calls }

/-- `msg_handler` on `MSG_CONFIG_START`. -/
def msgHandler (conf : List UInt16) (s : ZigbeeTty) : ZigbeeTty :=
  if s.confBuf = conf then s else s.configure conf

/-- A receive returns. In the thread's own loop it is none of a configuration. -/
def receive (reply : Option (List UInt8)) (s : ZigbeeTty) : ZigbeeTty :=
  match s.calls with
  | ⟨stage :: stages, n⟩ :: outer =>
    let calls :=
      if n + 1 < resendNum ∧ ¬ Confirms stage.idName reply then ⟨stage :: stages, n + 1⟩ :: outer
      else if stages = [] then outer
      else ⟨stages, 0⟩ :: outer
    { s with calls := calls, turns := s.turns ++ [⟨stage, reply⟩] }
  | _ => s

end ZigbeeTty

section Receives

variable (x : XbeeModule) {s : ZigbeeTty} {outer : List ParaCall}

/-- The receives of one loop. -/
theorem receives_apiTurns (stage : ParaStage) (stages : List ParaStage) :
    ∀ (n k r : Nat) (s : ZigbeeTty), n + 1 + k = resendNum →
      s.calls = ⟨stage :: stages, k⟩ :: outer →
      ((apiTurns x stage (n + 1) r).map ParaTurn.reply).foldl (fun s reply => s.receive reply) s =
        { s with
          calls := if stages = [] then outer else ⟨stages, 0⟩ :: outer
          turns := s.turns ++ apiTurns x stage (n + 1) r } := by
  intro n
  induction n with
  | zero =>
      intro k r s hk hcalls
      have hlast : ¬ k + 1 < resendNum := by omega
      simp [apiTurns, ZigbeeTty.receive, hcalls, hlast]
  | succ n ih =>
      intro k r s hk hcalls
      have hmore : k + 1 < resendNum := by omega
      rw [apiTurns]
      by_cases hconfirms : Confirms stage.idName (x.reply r)
      · simp [ZigbeeTty.receive, hcalls, hconfirms]
      · rw [if_neg hconfirms, List.map_cons, List.foldl_cons, ih (k + 1) (r + 1) _ (by omega)]
        · simp [ZigbeeTty.receive, hcalls]
        · simp [ZigbeeTty.receive, hcalls, hmore, hconfirms]

/-- **A call that no message comes into** is the one of `setZigbeePara_eq`. -/
theorem receives_paraTurns :
    ∀ (stages : List ParaStage) (r : Nat) (s : ZigbeeTty), stages ≠ [] →
      s.calls = ⟨stages, 0⟩ :: outer →
      ((paraTurns x stages r).map ParaTurn.reply).foldl (fun s reply => s.receive reply) s =
        { s with calls := outer, turns := s.turns ++ paraTurns x stages r } := by
  intro stages
  induction stages with
  | nil => exact fun _ _ hne _ => absurd rfl hne
  | cons stage stages ih =>
      intro r s _ hcalls
      rw [paraTurns, List.map_append, List.foldl_append, resendNum,
        receives_apiTurns x stage stages 9 0 r s rfl hcalls]
      by_cases hlast : stages = []
      · simp [hlast, paraTurns]
      · rw [ih _ _ hlast (if_neg hlast), List.append_assoc]

end Receives

/-- What the thread gets: a message, with the unit and the buffer that the handler reads into,
or the answer to a receive. -/
inductive ZigbeeEvent where
  | configStart (u : Rtu) (buf : Nat → UInt16)
  | receive (reply : Option (List UInt8))

/-- One step of the thread. -/
def ZigbeeTty.step (env : Platform) (s : ZigbeeTty) : ZigbeeEvent → ZigbeeTty → Prop
  | .configStart u buf, s' => s' = s.msgHandler (zigbeeRegisters env u buf)
  | .receive reply, s' => s' = s.receive reply

/-- The thread when it has come to its first receive. -/
def ZigbeeTty.Started (env : Platform) (s : ZigbeeTty) : Prop :=
  ∃ u buf, s = ZigbeeTty.configure (zigbeeRegisters env u buf) ⟨[], [], []⟩

/-- The four settings that these registers make are acknowledged, none of them with another
value since. -/
def Applied (conf : List UInt16) (turns : List ParaTurn) : Prop :=
  ∀ stage ∈ paraStages (ZigbeeTty.para conf), stage.idName ∈ settingOrders →
    stage.frame ≠ none ∧ lastAcked stage.idName turns = stage.frame

instance (conf : List UInt16) (turns : List ParaTurn) : Decidable (Applied conf turns) :=
  inferInstanceAs (Decidable (∀ _ ∈ _, _ → _))

/-! ### Runs that are acknowledged -/

/-- There is a frame for each setting: the channel is automatic or one that exists, and the
password flag is 0 or 1. -/
def Settable (conf : List UInt16) : Prop :=
  ∀ stage ∈ paraStages (ZigbeeTty.para conf), stage.frame ≠ none

instance (conf : List UInt16) : Decidable (Settable conf) :=
  inferInstanceAs (Decidable (∀ _ ∈ _, _))

/-- A message comes between two calls and brings settings that can be sent, and the answer that
ends the loop of a setting acknowledges it. -/
def ZigbeeTty.Acknowledged (env : Platform) (s : ZigbeeTty) : ZigbeeEvent → Prop
  | .configStart u buf => s.calls = [] ∧ Settable (zigbeeRegisters env u buf)
  | .receive reply => ∀ call ∈ s.calls.head?, ∀ stage ∈ call.stages.head?,
      stage.idName ∈ settingOrders →
        call.resend + 1 < resendNum ∧ ¬ Confirms stage.idName reply ∨
          Acknowledges stage.idName reply

instance (env : Platform) (s : ZigbeeTty) (reply : Option (List UInt8)) :
    Decidable (s.Acknowledged env (.receive reply)) :=
  inferInstanceAs (Decidable (∀ _ ∈ _, ∀ _ ∈ _, _ → _))

/-- What such a run keeps: the loops that are done have set what they are about, and those that
are left are the rest of the one call there is. -/
structure ZigbeeTty.Applying (s : ZigbeeTty) (done rest : List ParaStage) : Prop where
  settable : Settable s.confBuf
  stages : paraStages (para s.confBuf) = done ++ rest
  calls : rest = [] ∧ s.calls = [] ∨ rest ≠ [] ∧ ∃ n, s.calls = [⟨rest, n⟩]
  set : ∀ stage ∈ done, stage.idName ∈ settingOrders →
    lastAcked stage.idName s.turns = stage.frame

section Run

variable {env : Platform} {s : ZigbeeTty} {done rest : List ParaStage}

theorem paraStages_ne_nil (para : Nat → UInt16) : paraStages para ≠ [] := nofun

/-- Each order has one loop. -/
theorem paraStages_nodup (para : Nat → UInt16) :
    ((paraStages para).map ParaStage.idName).Nodup := by
  have horders : (paraStages para).map ParaStage.idName = paraOrders := rfl
  rw [horders]
  decide

/-- A new call has all its loops before it. -/
theorem ZigbeeTty.applying_configure (conf : List UInt16) (hcalls : s.calls = [])
    (hconf : Settable conf) : (s.configure conf).Applying [] (paraStages (para conf)) where
  settable := hconf
  stages := rfl
  calls := .inr ⟨paraStages_ne_nil _, 0, by rw [configure, hcalls]⟩
  set := fun _ hmem => absurd hmem (List.not_mem_nil)

theorem ZigbeeTty.Applying.receive {reply : Option (List UInt8)} (h : s.Applying done rest)
    (hack : s.Acknowledged env (.receive reply)) :
    ∃ done rest, (s.receive reply).Applying done rest := by
  rcases h.calls with ⟨hrest, hcalls⟩ | ⟨hrest, n, hcalls⟩
  · -- the thread's own loop
    have hsame : s.receive reply = s := by rw [ZigbeeTty.receive, hcalls]
    exact ⟨done, rest, by rwa [hsame]⟩
  obtain ⟨stage, stages, rfl⟩ := List.exists_cons_of_ne_nil hrest
  have hnodup := h.stages ▸ paraStages_nodup (para s.confBuf)
  have hother : ∀ st ∈ done, stage.idName ≠ st.idName := by
    intro st hst heq
    rw [List.map_append, List.nodup_append] at hnodup
    exact hnodup.2.2 st.idName (List.mem_map_of_mem hst) stage.idName (by simp) heq.symm
  have hset : ∀ st ∈ done, st.idName ∈ settingOrders →
      lastAcked st.idName (s.turns ++ [⟨stage, reply⟩]) = st.frame := by
    intro st hst hsetting
    rw [lastAcked_append_singleton, if_neg (hother st hst)]
    exact h.set st hst hsetting
  rw [ZigbeeTty.receive, hcalls]
  dsimp only
  by_cases hagain : n + 1 < resendNum ∧ ¬ Confirms stage.idName reply
  · rw [if_pos hagain]
    exact ⟨done, stage :: stages, h.settable, h.stages, .inr ⟨hrest, n + 1, rfl⟩, hset⟩
  · -- the loop ends, with its setting acknowledged
    rw [if_neg hagain]
    have hmem : stage ∈ paraStages (para s.confBuf) := h.stages ▸ by simp
    refine ⟨done ++ [stage], stages, h.settable, by simp [h.stages], ?_, ?_⟩
    · by_cases hlast : stages = []
      · exact .inl ⟨hlast, by rw [if_pos hlast]⟩
      · exact .inr ⟨hlast, 0, by rw [if_neg hlast]⟩
    · intro st hst hsetting
      rcases List.mem_append.1 hst with hst | hst
      · exact hset st hst hsetting
      · obtain rfl := List.mem_singleton.1 hst
        have hacked : Acknowledges st.idName reply :=
          (hack ⟨st :: stages, n⟩ (by simp [hcalls]) st rfl hsetting).resolve_left hagain
        obtain ⟨f, hf⟩ := Option.ne_none_iff_exists'.1 (h.settable st hmem)
        rw [lastAcked_append_singleton, if_pos rfl, ParaTurn.acked, if_pos hacked, hf]
        rfl

theorem ZigbeeTty.Applying.applied (h : s.Applying done []) : Applied s.confBuf s.turns := by
  intro stage hmem hsetting
  refine ⟨h.settable stage hmem, h.set stage ?_ hsetting⟩
  simpa [h.stages] using hmem

end Run

/-- **The configuration is applied** where the handler passes over it, in every run whose calls
are acknowledged and in which no message comes inside a call. -/
theorem configuration_applied {env : Platform} {s : ZigbeeTty}
    (h : Reach (fun s => s.Started env ∧ Settable s.confBuf)
      (guarded (ZigbeeTty.Acknowledged env) (ZigbeeTty.step env)) s) (u : Rtu) (buf : Nat → UInt16)
    (hmsg : s.Acknowledged env (.configStart u buf))
    (hskip : s.confBuf = zigbeeRegisters env u buf) :
    Applied (zigbeeRegisters env u buf) s.turns := by
  -- the invariant: some loops of the call are over and acknowledged, the rest are to come
  have hrun : ∃ done rest, s.Applying done rest := by
    refine h.invariant (P := fun s => ∃ done rest, s.Applying done rest) ?_ ?_
    · rintro s ⟨⟨u, buf, hs⟩, hconf⟩
      generalize zigbeeRegisters env u buf = conf at hs
      subst hs
      exact ⟨[], _, ZigbeeTty.applying_configure conf rfl hconf⟩
    · rintro s e s' ⟨done, rest, hs⟩ ⟨hack, hstep⟩
      cases e with
      | configStart u buf =>
          obtain rfl : s' = s.msgHandler (zigbeeRegisters env u buf) := hstep
          unfold ZigbeeTty.msgHandler
          split
          · exact ⟨done, rest, hs⟩
          · exact ⟨[], _, ZigbeeTty.applying_configure _ hack.1 hack.2⟩
      | receive reply =>
          obtain rfl : s' = s.receive reply := hstep
          exact hs.receive hack
  obtain ⟨done, rest, hs⟩ := hrun
  have hrest : rest = [] := by
    rcases hs.calls with ⟨hrest, -⟩ | ⟨-, n, hcalls⟩
    · exact hrest
    · rw [hmsg.1] at hcalls
      cases hcalls
  subst hrest
  exact hskip ▸ hs.applied

/-! ### Runs that are not -/

/-- A unit whose nine registers are `conf`, at the head of its cells. -/
def configUnit (conf : List UInt16) : Rtu :=
  .start
    { xMax := 300
      ramX := fun a => conf.getD (a - mapAddrZigbeePid) 0
      ramXMapType := fun _ => .null
      ramXMapRecord := fun _ => .null
      ramXMapRw := fun _ => .null
      ramY := fun _ => 0
      ramYMapType := fun _ => .null
      flash1 := fun _ => 0
      flash2 := fun _ => 0 }

/-- The registers of a unit that was never configured, and these with a key. -/
def blankConf : List UInt16 := List.replicate 9 0

def keyConf : List UInt16 := List.replicate 8 0 ++ [1]

/-- The thread started on blank registers, and what it has got since. -/
def zigbeeRun (env : Platform) (es : List ZigbeeEvent) : ZigbeeTty :=
  es.foldl (fun s e => match e with
    | .configStart u buf => s.msgHandler (zigbeeRegisters env u buf)
    | .receive reply => s.receive reply)
    (ZigbeeTty.configure (zigbeeRegisters env (configUnit blankConf) fun _ => 0) ⟨[], [], []⟩)

theorem reach_zigbeeRun (env : Platform) (es : List ZigbeeEvent) :
    Reach (ZigbeeTty.Started env) (ZigbeeTty.step env) (zigbeeRun env es) := by
  unfold zigbeeRun
  refine List.foldlRecOn es _ (.start ⟨_, _, rfl⟩) fun s hs e _ => .step (a := e) hs ?_
  cases e <;> rfl

/-- After sixty receives without an answer nothing has been acknowledged. -/
theorem not_configuration_applied :
    ¬ ∀ (env : Platform) (s : ZigbeeTty) (u : Rtu) (buf : Nat → UInt16),
      Reach (ZigbeeTty.Started env) (ZigbeeTty.step env) s →
      s.confBuf = zigbeeRegisters env u buf → Applied (zigbeeRegisters env u buf) s.turns := by
  intro h
  have happlied := h (.bare fun _ => none) _ (configUnit blankConf) (fun _ => 0)
    (reach_zigbeeRun _ (List.replicate 60 (.receive none))) (by decide +kernel)
  exact absurd happlied (by decide +kernel)

/-- The answer that confirms an order. -/
def confirming (idName : UInt8 × UInt8) : Option (List UInt8) :=
  some [0x7E, 0x00, 0x05, 0x88, 0x01, idName.1, idName.2, 0x00, 0x00]

/-- All is confirmed, but a new key comes inside the second receive of the first configuration,
which then sends the old one again. -/
theorem not_applied_inside :
    let s := zigbeeRun (.bare fun _ => none) ([.receive (confirming (0x49, 0x44)),
      .configStart (configUnit keyConf) fun _ => 0] ++
        (paraOrders ++ paraOrders.drop 1).map fun idName => .receive (confirming idName))
    s.calls = [] ∧ s.confBuf = keyConf ∧ ¬ Applied keyConf s.turns := by
  decide +kernel

/-- The answer of a module that knows an order and refuses it. -/
def refusing (idName : UInt8 × UInt8) : Option (List UInt8) :=
  some [0x7E, 0x00, 0x05, 0x88, 0x01, idName.1, idName.2, 0x01, 0x00]

/-- All is refused, and the registers are passed over from then on. -/
theorem not_applied_refused :
    let s := zigbeeRun (.bare fun _ => none)
      (paraOrders.map fun idName => .receive (refusing idName))
    s.calls = [] ∧ s.confBuf = blankConf ∧ ¬ Applied blankConf s.turns := by
  decide +kernel

/-- Each of these answers acknowledges its setting or leaves its loop going on. -/
def AllAcknowledged (env : Platform) : ZigbeeTty → List (Option (List UInt8)) → Prop
  | _, [] => True
  | s, reply :: replies =>
    s.Acknowledged env (.receive reply) ∧ AllAcknowledged env (s.receive reply) replies

instance decidableAllAcknowledged (env : Platform) :
    ∀ (s : ZigbeeTty) (replies : List (Option (List UInt8))),
      Decidable (AllAcknowledged env s replies)
  | _, [] => .isTrue trivial
  | s, reply :: replies =>
    have := decidableAllAcknowledged env (s.receive reply) replies
    inferInstanceAs (Decidable (_ ∧ _))

theorem reach_receives {env : Platform} {init : ZigbeeTty → Prop} :
    ∀ {replies : List (Option (List UInt8))} {s : ZigbeeTty},
      Reach init (guarded (ZigbeeTty.Acknowledged env) (ZigbeeTty.step env)) s →
      AllAcknowledged env s replies →
      Reach init (guarded (ZigbeeTty.Acknowledged env) (ZigbeeTty.step env))
        (replies.foldl (fun s reply => s.receive reply) s) := by
  intro replies
  induction replies with
  | nil => exact fun h _ => h
  | cons reply replies ih =>
      intro s h hack
      exact ih (.step (a := .receive reply) h ⟨hack.1, rfl⟩) hack.2

/-- The first configuration, all of it confirmed. -/
theorem blankRun_applied :
    Applied blankConf ((paraOrders.map confirming).foldl (fun s reply => s.receive reply)
      (zigbeeRun (.bare fun _ => none) [])).turns := by
  let env : Platform := .bare fun _ => none
  have hreach : Reach (fun s => s.Started env ∧ Settable s.confBuf)
      (guarded (ZigbeeTty.Acknowledged env) (ZigbeeTty.step env))
      ((paraOrders.map confirming).foldl (fun s reply => s.receive reply) (zigbeeRun env [])) :=
    reach_receives (.start ⟨⟨_, _, rfl⟩, by decide +kernel⟩) (by decide +kernel)
  have hregisters : zigbeeRegisters env (configUnit blankConf) (fun _ => 0) = blankConf := by
    decide +kernel
  have happlied := configuration_applied hreach (configUnit blankConf) (fun _ => 0)
    ⟨by decide +kernel, by decide +kernel⟩ (by decide +kernel)
  rwa [hregisters] at happlied

end RtuA118
