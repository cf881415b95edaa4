import RtuA118.Serial.Contexts

/-!
# RtuA118.Serial.PortRestart

A serial port that is configured anew, compared with one that is opened.

A thread that starts lays the codes of its registers over its configuration file; the
handler of `MSG_CONFIG_START` lays them over the settings it declares itself. The two
starting points differ in the rate alone, so a configured thread uses the port as a
restarted one would exactly when the rate does not come from there (`Rs485.Restarted`).
-/

namespace RtuA118

open Rs485

/-! ### The configuration file -/

/-- A leaf of the configuration: `valuestring`, `valueint`, or another type. -/
inductive CJson where
  | string (valuestring : List Char)
  | number (valueint : Int)
  | other
  deriving DecidableEq, Repr

/-- `cJSON_GetObjectItem(config, …)`. -/
abbrev PortConfig := List Char → Option CJson

/-- `rate`, from the configuration or as it is declared. -/
def configRate (config : PortConfig) : Int :=
  match config "rate".toList with
  | some (.number n) => n
  | _ => 9600

/-- What the thread takes from its configuration before it looks at the registers; nothing
where it returns at once. The device's name is used as it is. -/
def Role.configured (role : Role) (config : PortConfig) : Option PortSettings :=
  match config "name".toList with
  | some (.string name) =>
    if role = .master ∧ name ≠ "master".toList then none
    else some ⟨configRate config, 8, 1, 'N'⟩
  | _ => none

/-- The settings that a configuration leads to are the handler's own, but for the rate. -/
theorem Role.configured_eq {role : Role} {config : PortConfig} {p : PortSettings}
    (h : role.configured config = some p) : p = { tempSettings with rate := p.rate } := by
  unfold Role.configured at h
  split at h
  · split at h
    · cases h
    · obtain rfl := Option.some.inj h
      rfl
  · cases h

/-! ### Messages -/

namespace Rs485

variable {h : Host} {role : Role}

/-- The registers change, and `MSG_CONFIG_START` follows. -/
def configStart (h : Host) (role : Role) (s : Rs485) (u : Rtu) : Rs485 :=
  { s with rtu := u }.msgHandler h role .configStart

/-- The thread uses the port as one would that is started on these registers. -/
def Restarted (h : Host) (role : Role) (config : PortSettings) (u : Rtu) (s : Rs485) : Prop :=
  ∀ portInfo synAlongInfo, s.port = (Rs485.start h role config portInfo synAlongInfo u).port

theorem start_port (config : PortSettings) (portInfo : Nat → UInt16) (synAlongInfo : SynInfo)
    (u : Rtu) : (Rs485.start h role config portInfo synAlongInfo u).port
      = initPortInfo ((Rs485.initial config portInfo synAlongInfo u).readPortInfo h role).portInfo
          config := by
  cases role <;> simp only [Rs485.start, Rs485.openPort, readIntervals] <;> rfl

/-- The handler leaves the port as it finds the registers, whatever it was before. -/
theorem configStart_port (s : Rs485) (u : Rtu) :
    (s.configStart h role u).port = ({ s with rtu := u } : Rs485).foundSettings h role := by
  unfold configStart msgHandler
  dsimp only
  split
  · rfl
  · rename_i hsame
    have hport : (({ s with rtu := u } : Rs485).readPortInfo h role).port = s.port := by
      unfold readPortInfo
      split <;> rfl
    rw [Reconfigures, not_not] at hsame
    rw [hsame, hport]

theorem readPortInfo_portInfo {s : Rs485} {info : List UInt16} (hlen : info.length = 5)
    (hr : ReadsAs h.env s.rtu 1 role.portAddr info) :
    (s.readPortInfo h role).portInfo = fun k => info.getD k 0 := by
  have hread := hr s.portInfo
  rw [hlen] at hread
  unfold readPortInfo
  rw [show (5 : Int) = ((5 : Nat) : Int) from rfl, show (1 : Int) = ((1 : Nat) : Int) from rfl,
    hread]

/-- Over the same registers, two settings that differ in the rate alone. -/
theorem initPortInfo_rate_iff (info : Nat → UInt16) (p : PortSettings) (rate : Int) :
    initPortInfo info p = initPortInfo info { p with rate := rate } ↔
      (info 0).toNat ≤ 6 ∨ p.rate = rate := by
  have hfields : initPortInfo info p = initPortInfo info { p with rate := rate } ↔
      (initPortInfo info p).rate = (initPortInfo info { p with rate := rate }).rate := by
    constructor
    · exact congrArg PortSettings.rate
    · intro hrate
      simp only [initPortInfo] at hrate ⊢
      rw [hrate]
  rw [hfields]
  simp only [initPortInfo]
  split
  · simp_all
  all_goals simp_all
  omega

/-- After any changes, each followed by a `MSG_CONFIG_START`, the port is as the last message
found it. -/
theorem foldl_configStart_port {s : Rs485} {us : List Rtu} {u : Rtu} {info : List UInt16}
    (hlen : info.length = 5) (hr : ReadsAs h.env u 1 role.portAddr info) :
    ((us ++ [u]).foldl (configStart h role) s).port
      = initPortInfo (fun k => info.getD k 0) tempSettings := by
  rw [List.foldl_append, List.foldl_cons, List.foldl_nil, configStart_port, foundSettings]
  exact congrArg (initPortInfo · tempSettings) (readPortInfo_portInfo hlen hr)

end Rs485

/-- **Reconfiguration equals restart** exactly when the rate code is one that is known, or the
configuration has the rate that the handler starts from. -/
theorem restarted_iff (h : Host) (role : Role) (config : PortConfig) (p : PortSettings)
    (portInfo : Nat → UInt16) (synAlongInfo : SynInfo) (u0 : Rtu) (us : List Rtu) (u : Rtu)
    (info : List UInt16) (hp : role.configured config = some p) (hlen : info.length = 5)
    (hr : ReadsAs h.env u 1 role.portAddr info) :
    Restarted h role p u
        ((us ++ [u]).foldl (configStart h role) (.start h role p portInfo synAlongInfo u0)) ↔
      (info.getD 0 0).toNat ≤ 6 ∨ p.rate = 9600 := by
  have hfresh : ∀ portInfo synAlongInfo,
      (Rs485.start h role p portInfo synAlongInfo u).port
        = initPortInfo (fun k => info.getD k 0) p := by
    intro portInfo synAlongInfo
    rw [start_port]
    exact congrArg (initPortInfo · p) (readPortInfo_portInfo hlen hr)
  have hset : initPortInfo (fun k => info.getD k 0) tempSettings
        = initPortInfo (fun k => info.getD k 0) p ↔
      (info.getD 0 0).toNat ≤ 6 ∨ p.rate = 9600 := by
    rw [Role.configured_eq hp, initPortInfo_rate_iff]
    exact or_congr_right eq_comm
  rw [Restarted, foldl_configStart_port hlen hr, ← hset]
  simp only [hfresh]
  exact ⟨fun hall => hall portInfo synAlongInfo, fun heq _ _ => heq⟩

/-- A slave's configuration with this rate. -/
def slaveConfig (rate : Int) : PortConfig := fun key =>
  if key = "name".toList then some (.string "slave".toList)
  else if key = "rate".toList then some (.number rate)
  else none

/-- A change from 9600 to 19200 is as a restart would have it. -/
theorem portUnit_restarted :
    Restarted (.bare (.bare fun _ => none)) .slave ⟨115200, 8, 1, 'N'⟩ (portUnit 4)
      (([] ++ [portUnit 4]).foldl (configStart (.bare (.bare fun _ => none)) .slave)
        (.start (.bare (.bare fun _ => none)) .slave ⟨115200, 8, 1, 'N'⟩ (fun _ => 0) ⟨0, 0, 0⟩
          (portUnit 3))) :=
  (restarted_iff _ .slave (slaveConfig 115200) _ (fun _ => 0) ⟨0, 0, 0⟩ (portUnit 3) [] (portUnit 4)
    [4, 1, 0, 0, 0] (by decide) rfl fun _ => rfl).2 (.inl (by decide))

/-- Started at 115200 from its configuration, the slave goes to 9600 with the first message. -/
theorem not_restarted :
    Role.slave.configured (slaveConfig 115200) = some ⟨115200, 8, 1, 'N'⟩ ∧
    ¬ Restarted (.bare (.bare fun _ => none)) .slave ⟨115200, 8, 1, 'N'⟩ (portUnit 7)
      ([portUnit 7].foldl (configStart (.bare (.bare fun _ => none)) .slave)
        (.start (.bare (.bare fun _ => none)) .slave ⟨115200, 8, 1, 'N'⟩ (fun _ => 0) ⟨0, 0, 0⟩
          (portUnit 7))) := by
  refine ⟨by decide, fun hrestarted => ?_⟩
  have hport := congrArg PortSettings.rate (hrestarted (fun _ => 0) ⟨0, 0, 0⟩)
  exact absurd hport (by decide)

end RtuA118
