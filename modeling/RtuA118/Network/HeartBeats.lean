import Mathlib.Data.List.Chain
import RtuA118.Lib.Run
import RtuA118.Network.Reconfiguration

/-!
# RtuA118.Network.HeartBeats

The **heartbeats** that the UDP server sends to its remote servers.

In each turn of its loop it compares the clock with the time of the last heartbeats and one of two
intervals: the longer one where a remote server has answered since. Between two turns it sleeps, and
a change of the registers comes in between whenever it likes. As long as no one sets the clock back,
a remote server gets its heartbeats neither more often than the interval says nor much later
(`heartBeat_cadence`).
-/

namespace RtuA118

open Run (Reach guarded)

/-- `MAX_REMOTE_UDP_SERVER_NUM`, one more than are configured. -/
def maxRemoteUdpServerNum : Nat := 6

/-- A heartbeat that was sent: to whom, the time that was read behind it, and the interval that had
passed. -/
structure SentBeat where
  server : Nat
  time : Int
  after : UInt16
  deriving DecidableEq

/-- The variables of `thread_udp_server` that its heartbeats depend on. -/
structure HeartBeats where
  time0 : Int
  hasBeat : Bool
  heartBeatInfo : Nat → UInt16
  addrInLen : Nat → Int
  /-- what was sent, the last one first -/
  sent : List SentBeat
  /-- the last reading of the clock -/
  clock : Int

/-- What the registers have, and what `get_addr` makes of the addresses in them. -/
structure BeatConfig where
  info : Nat → UInt16
  addrLen : Nat → Int

namespace HeartBeats

variable (c : HeartBeats)

/-- The interval in force. -/
def interval : UInt16 := if c.hasBeat then c.heartBeatInfo 2 else c.heartBeatInfo 1

/-- One remote server's turn, if it has an address, and the reading of the clock behind it. -/
def sendTo (after : UInt16) (a0 : Nat) (t : Int) : HeartBeats :=
  if c.addrInLen a0 ≠ -1 then
    { c with time0 := t, clock := t, hasBeat := false, sent := ⟨a0, t, after⟩ :: c.sent }
  else { c with time0 := t, clock := t }

/-- The loop over the first `n` of them; `times` are the readings of the clock. -/
def sendAll (after : UInt16) (times : Nat → Int) : Nat → HeartBeats
  | 0 => c
  | n + 1 => (sendAll after times n).sendTo after n (times n)

/-- `time(NULL)`. -/
def read (now : Int) : HeartBeats := { c with clock := now }

/-- The heartbeats of one turn, at `now`. -/
def beat (now : Int) (times : Nat → Int) : HeartBeats :=
  let c := c.read now
  if c.heartBeatInfo 0 ≠ 0 ∧ now > c.time0 + c.interval.toNat then
    c.sendAll c.interval times maxRemoteUdpServerNum
  else c

/-- `MSG_CONFIG_START`: all but the last of the addresses are looked up again. -/
def configure (config : BeatConfig) : HeartBeats :=
  { c with
    heartBeatInfo := fun k => ConfigBlock.clampHeartBeat k (config.info k)
    addrInLen := fun a0 =>
      if a0 < maxRemoteUdp4ServerNum + maxRemoteUdp6ServerNum then config.addrLen a0
      else c.addrInLen a0 }

end HeartBeats

/-- One turn of the loop: the readings of the clock, whether a heartbeat came, and what the
registers have if a message did. -/
structure BeatTurn where
  now : Int
  times : Nat → Int
  acked : Bool
  config : Option BeatConfig

def HeartBeats.turn (c : HeartBeats) (t : BeatTurn) : HeartBeats :=
  let c := c.beat t.now t.times
  let c := if t.acked then { c with hasBeat := true } else c
  match t.config with
  | none => c
  | some config => c.configure config

/-! ### Heartbeats on time -/

/-- A run that starts at `start`, in which the clock is not set back, a turn begins at most `idle`
after the last reading, and its heartbeats take at most `busy`; all along heartbeats are on, with
intervals up to `longest`, and `server` has an address. -/
structure BeatRun where
  server : Nat
  start : Int
  longest : Nat
  idle : Nat
  busy : Nat
  known : server < maxRemoteUdp4ServerNum + maxRemoteUdp6ServerNum

namespace BeatRun

variable (r : BeatRun)

/-- The registers have heartbeats on, and an address for the server. -/
structure On (config : BeatConfig) : Prop where
  on : config.info 0 ≠ 0
  short : (ConfigBlock.clampHeartBeat 1 (config.info 1)).toNat ≤ r.longest
  long : (ConfigBlock.clampHeartBeat 2 (config.info 2)).toNat ≤ r.longest
  found : config.addrLen r.server ≠ -1

/-- The thread before its loop. -/
structure Init (c : HeartBeats) : Prop where
  time0 : c.time0 = r.start
  clock : c.clock = r.start
  hasBeat : c.hasBeat = false
  sent : c.sent = []
  config : ∃ c₀ config, r.On config ∧ c = HeartBeats.configure c₀ config

/-- The conditions on a turn. -/
structure Timely (c : HeartBeats) (t : BeatTurn) : Prop where
  wakes : c.clock ≤ t.now ∧ t.now ≤ c.clock + r.idle
  sends : t.now ≤ t.times 0 ∧ t.times (maxRemoteUdpServerNum - 1) ≤ t.now + r.busy
  forward : ∀ i, t.times i ≤ t.times (i + 1)
  config : ∀ config ∈ t.config, r.On config

/-- What the server got, the last one first, and at the end the time when the thread started. -/
def beats (c : HeartBeats) : List SentBeat :=
  c.sent.filter (·.server = r.server) ++ [⟨r.server, r.start, 0⟩]

/-- A heartbeat comes after its interval, and not much later than the longest. -/
def OnTime (new old : SentBeat) : Prop :=
  5 ≤ new.after.toNat ∧ old.time + new.after.toNat < new.time ∧
    new.time ≤ old.time + r.longest + r.idle + 2 * r.busy

end BeatRun

/-! ### One turn -/

/-- Neither interval is shorter than five seconds. -/
theorem five_le_clampHeartBeat {k : Nat} (hk : k = 1 ∨ k = 2) (v : UInt16) :
    5 ≤ (ConfigBlock.clampHeartBeat k v).toNat := by
  unfold ConfigBlock.clampHeartBeat
  split
  · decide
  · rename_i hshort
    split
    · decide
    · rename_i hlong
      rcases hk with rfl | rfl
      · exact UInt16.le_iff_toNat_le.1 (UInt16.not_lt.1 fun hv => hshort ⟨rfl, hv⟩)
      · have hten : (10 : UInt16) ≤ v := UInt16.not_lt.1 fun hv => hlong ⟨rfl, hv⟩
        exact (by decide : 5 ≤ 10).trans (UInt16.le_iff_toNat_le.1 hten)

namespace HeartBeats

variable (c : HeartBeats) (after : UInt16) (times : Nat → Int)

@[simp] theorem sendAll_info (n : Nat) :
    (c.sendAll after times n).heartBeatInfo = c.heartBeatInfo := by
  induction n with
  | zero => rfl
  | succ n ih =>
      rw [sendAll, sendTo]
      split <;> exact ih

@[simp] theorem sendAll_addrInLen (n : Nat) :
    (c.sendAll after times n).addrInLen = c.addrInLen := by
  induction n with
  | zero => rfl
  | succ n ih =>
      rw [sendAll, sendTo]
      split <;> exact ih

/-- The clock and the time of the heartbeats are what was read last. -/
theorem sendAll_time {n : Nat} (hn : 0 < n) :
    (c.sendAll after times n).time0 = times (n - 1) ∧
      (c.sendAll after times n).clock = times (n - 1) := by
  obtain ⟨m, rfl⟩ := Nat.exists_eq_succ_of_ne_zero (Nat.ne_of_gt hn)
  rw [sendAll, sendTo]
  split <;> exact ⟨rfl, rfl⟩

/-- A server with an address gets one heartbeat. -/
theorem sendAll_sent {c : HeartBeats} {server : Nat} (hfound : c.addrInLen server ≠ -1) (n : Nat) :
    (c.sendAll after times n).sent.filter (·.server = server) =
      (if server < n then [⟨server, times server, after⟩] else []) ++
        c.sent.filter (·.server = server) := by
  induction n with
  | zero => rfl
  | succ n ih =>
      rw [sendAll, sendTo, sendAll_addrInLen]
      by_cases hn : n = server
      · subst hn
        rw [if_pos hfound, if_pos (Nat.lt_succ_self n)]
        rw [if_neg (Nat.lt_irrefl n), List.nil_append] at ih
        simp [ih]
      · have hlt : server < n + 1 ↔ server < n := by omega
        simp only [hlt]
        rw [← ih]
        split
        · simp [hn]
        · rfl

end HeartBeats

/-! ### Many turns -/

namespace BeatRun

variable {r : BeatRun} {c : HeartBeats}

/-- Heartbeats are on, with intervals in bounds, and the server has an address. -/
structure Configured (r : BeatRun) (c : HeartBeats) : Prop where
  on : c.heartBeatInfo 0 ≠ 0
  interval : ∀ k, k = 1 ∨ k = 2 →
    5 ≤ (c.heartBeatInfo k).toNat ∧ (c.heartBeatInfo k).toNat ≤ r.longest
  found : c.addrInLen r.server ≠ -1

theorem On.configured {config : BeatConfig} (h : r.On config) (c : HeartBeats) :
    r.Configured (c.configure config) := by
  refine ⟨?_, fun k hk => ⟨five_le_clampHeartBeat hk _, ?_⟩, ?_⟩
  · exact h.on
  · rcases hk with rfl | rfl
    · exact h.short
    · exact h.long
  · simp only [HeartBeats.configure, if_pos r.known]
    exact h.found

/-- What a run keeps: heartbeats were on time, and the clock has not passed the next ones. -/
structure Beating (r : BeatRun) (c : HeartBeats) : Prop where
  configured : r.Configured c
  chain : (r.beats c).IsChain r.OnTime
  newest : ∃ b bs, r.beats c = b :: bs ∧ b.time ≤ c.time0 ∧ c.time0 ≤ b.time + r.busy
  clock : c.time0 ≤ c.clock ∧ c.clock ≤ c.time0 + r.longest

theorem Init.beating (h : r.Init c) : r.Beating c := by
  obtain ⟨c₀, config, hon, hc⟩ := h.config
  have hbeats : r.beats c = [⟨r.server, r.start, 0⟩] := by
    rw [beats, h.sent]
    rfl
  refine ⟨hc ▸ hon.configured c₀, ?_, ⟨_, _, hbeats, ?_, ?_⟩, ?_⟩
  · rw [hbeats]
    exact .singleton _
  · rw [h.time0]
  · rw [h.time0]
    exact Int.le_add_of_nonneg_right (Int.natCast_nonneg _)
  · rw [h.time0, h.clock]
    omega

theorem Configured.interval_bounds (h : r.Configured c) :
    5 ≤ c.interval.toNat ∧ c.interval.toNat ≤ r.longest := by
  unfold HeartBeats.interval
  split
  · exact h.interval 2 (.inr rfl)
  · exact h.interval 1 (.inl rfl)

/-- Readings of the clock that go forward. -/
theorem times_le {times : Nat → Int} (h : ∀ i, times i ≤ times (i + 1)) {i j : Nat} (hij : i ≤ j) :
    times i ≤ times j := by
  induction hij with
  | refl => exact Int.le_refl _
  | step _ ih => exact ih.trans (h _)

/-- The heartbeats that are due, at the time that the clock has. -/
theorem Beating.sendAll {times : Nat → Int} {now : Int} (h : r.Beating c)
    (hdue : c.time0 + c.interval.toNat < now) (hidle : now ≤ c.clock + r.idle)
    (hsends : now ≤ times 0 ∧ times (maxRemoteUdpServerNum - 1) ≤ now + r.busy)
    (hforward : ∀ i, times i ≤ times (i + 1)) :
    r.Beating ((c.read now).sendAll c.interval times maxRemoteUdpServerNum) := by
  have hknown : r.server < maxRemoteUdpServerNum := r.known.trans (by decide)
  have hserver : times 0 ≤ times r.server := times_le hforward (Nat.zero_le _)
  have hlast : times r.server ≤ times (maxRemoteUdpServerNum - 1) :=
    times_le hforward (Nat.le_sub_one_of_lt hknown)
  obtain ⟨hlo, hhi⟩ := h.clock
  obtain ⟨hfive, -⟩ := h.configured.interval_bounds
  obtain ⟨b, bs, hbeats, hb, hb'⟩ := h.newest
  obtain ⟨htime, hclock⟩ := (c.read now).sendAll_time c.interval times
    (show 0 < maxRemoteUdpServerNum by decide)
  have hsent : r.beats ((c.read now).sendAll c.interval times maxRemoteUdpServerNum) =
      ⟨r.server, times r.server, c.interval⟩ :: b :: bs := by
    have hfound : (c.read now).addrInLen r.server ≠ -1 := h.configured.found
    rw [beats, HeartBeats.sendAll_sent _ _ hfound, if_pos hknown, List.append_assoc]
    exact congrArg _ hbeats
  refine ⟨?_, ?_, ⟨_, _, hsent, ?_, ?_⟩, ?_⟩
  · refine ⟨?_, fun k hk => ?_, ?_⟩
    · rw [HeartBeats.sendAll_info]
      exact h.configured.on
    · rw [HeartBeats.sendAll_info]
      exact h.configured.interval k hk
    · rw [HeartBeats.sendAll_addrInLen]
      exact h.configured.found
  · rw [hsent, List.isChain_cons_cons, ← hbeats]
    refine ⟨⟨hfive, ?_, ?_⟩, h.chain⟩
    · dsimp only
      omega
    · dsimp only
      omega
  · rwa [htime]
  · rw [htime]
    dsimp only
    omega
  · rw [htime, hclock]
    omega

theorem Beating.beat {t : BeatTurn} (h : r.Beating c) (ht : r.Timely c t) :
    r.Beating (c.beat t.now t.times) := by
  obtain ⟨hwake, hidle⟩ := ht.wakes
  unfold HeartBeats.beat
  dsimp only
  split
  · rename_i hdue
    exact h.sendAll hdue.2 hidle ht.sends ht.forward
  · -- not yet due, so the clock has not passed the longest interval
    rename_i hnot
    have hearly : t.now ≤ c.time0 + c.interval.toNat :=
      Int.not_lt.1 fun hdue => hnot ⟨h.configured.on, hdue⟩
    obtain ⟨-, hlongest⟩ := h.configured.interval_bounds
    obtain ⟨hlo, -⟩ := h.clock
    refine ⟨⟨h.configured.on, h.configured.interval, h.configured.found⟩, h.chain, h.newest, ?_⟩
    change c.time0 ≤ t.now ∧ t.now ≤ c.time0 + r.longest
    omega

theorem Beating.turn {t : BeatTurn} (h : r.Beating c) (ht : r.Timely c t) :
    r.Beating (c.turn t) := by
  have hbeat := h.beat ht
  have hacked : r.Beating (if t.acked then { c.beat t.now t.times with hasBeat := true }
      else c.beat t.now t.times) := by
    split
    · exact ⟨⟨hbeat.configured.on, hbeat.configured.interval, hbeat.configured.found⟩,
        hbeat.chain, hbeat.newest, hbeat.clock⟩
    · exact hbeat
  unfold HeartBeats.turn
  dsimp only
  split
  · exact hacked
  · rename_i config hconfig
    exact ⟨(ht.config config hconfig).configured _, hacked.chain, hacked.newest, hacked.clock⟩

/-- **Heartbeats are on time**: each comes later than its interval after the one before, which is
five seconds or more, and no later than the longest interval and what the loop takes; and the clock
is never further than that from the last one. -/
theorem heartBeat_cadence
    (h : Reach r.Init (guarded r.Timely fun c t c' => c' = c.turn t) c) :
    (r.beats c).IsChain r.OnTime ∧
      ∃ b bs, r.beats c = b :: bs ∧ b.time ≤ c.clock ∧ c.clock ≤ b.time + r.longest + r.busy := by
  have hbeating : r.Beating c := by
    refine h.invariant (fun _ => Init.beating) fun c t c' hc hstep => ?_
    obtain ⟨htimely, rfl⟩ := hstep
    exact hc.turn htimely
  obtain ⟨b, bs, hbeats, hb, hb'⟩ := hbeating.newest
  obtain ⟨hlo, hhi⟩ := hbeating.clock
  exact ⟨hbeating.chain, b, bs, hbeats, hb.trans hlo, by omega⟩

end BeatRun

/-! ### The first heartbeat -/

/-- A server with the shortest intervals, looked at every three seconds. -/
def shortest : BeatRun := ⟨0, 0, 10, 3, 0, by decide⟩

/-- The registers have ones, and every address is found. -/
def onesConfig : BeatConfig := ⟨fun _ => 1, fun _ => 28⟩

def startedBeats : HeartBeats :=
  HeartBeats.configure ⟨0, false, fun _ => 0, fun _ => -1, [], 0⟩ onesConfig

theorem onesConfig_on : shortest.On onesConfig := ⟨by decide, by decide, by decide, by decide⟩

/-- A turn in which nothing comes. -/
def quietTurn (now : Int) : BeatTurn := ⟨now, fun _ => now, false, none⟩

theorem firstBeat_onTime : shortest.OnTime ⟨0, 6, 5⟩ ⟨0, 0, 0⟩ := by
  have hstart : Reach shortest.Init (guarded shortest.Timely fun c t c' => c' = c.turn t)
      startedBeats := .start ⟨rfl, rfl, rfl, rfl, _, _, onesConfig_on, rfl⟩
  have htimely : ∀ c : HeartBeats, c.clock ≤ c.clock + 3 →
      shortest.Timely c (quietTurn (c.clock + 3)) := by
    intro c hc
    exact ⟨⟨hc, Int.le_refl _⟩, ⟨Int.le_refl _, Int.le_of_eq (Int.add_zero _).symm⟩,
      fun _ => Int.le_refl _, nofun⟩
  have hthree := hstart.step ⟨htimely _ (by omega), rfl⟩
  have hsix := hthree.step ⟨htimely _ (by omega), rfl⟩
  exact (List.isChain_cons_cons.1 (BeatRun.heartBeat_cadence hsix).1).1

end RtuA118
