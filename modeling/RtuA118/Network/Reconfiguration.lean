import RtuA118.Lib.Notify
import RtuA118.Map.Life
import RtuA118.Map.StoreEffect
import RtuA118.Map.SwappedRead
import RtuA118.Network.Addresses
import RtuA118.Serial.Contexts

/-!
# RtuA118.Network.Reconfiguration

The **network threads follow the registers**.

Four threads keep copies of registers: the two servers of their ports, the client and the slave of
their peers and settings, the UDP server of what its heartbeats say as well. Nobody tells them what
was written. A 1 in the cell `mapConfig1`, and a factory reset, post `MSG_CONFIG_START` to each, on
a queue that takes ten messages and drops any more, and each reads all its registers again, word by
word, in between whatever the others write.

That is enough (`reconfigured`): in any order of the threads' steps, a thread that has no message
and nothing to read left has the registers as they have been since the last notice.
-/

namespace RtuA118

open Run (Reach Trace guarded)
open Notify (Listener)

/-! ### The threads and what they read -/

inductive NetThread where
  | tcpServer
  | udpServer
  | rtuServer
  | tcpClient
  deriving DecidableEq

/-- Registers that one call reads. -/
inductive ConfigBlock where
  | tcpPort
  | udpPort
  | remoteIpv4
  | remoteIpv6
  | udpRemoteIpv4
  | udpRemoteIpv6
  | rtuId
  | heartBeat
  | serialPort
  deriving DecidableEq

/-- `MAP_ADDR_RTU_ID`, `MAP_ADDR_UDP_HEART_BEAT_STATUS`. -/
def mapAddrRtuId : Nat := 139
def mapAddrUdpHeartBeatStatus : Nat := 141

namespace ConfigBlock

def addr : ConfigBlock → Nat
  | tcpPort => mapAddrTcpPort
  | udpPort => mapAddrUdpPort
  | remoteIpv4 => mapAddrRemoteIpv4Addr
  | remoteIpv6 => mapAddrRemoteIpv6Addr
  | udpRemoteIpv4 => mapAddrUdpRemoteIpv4Addr
  | udpRemoteIpv6 => mapAddrUdpRemoteIpv6Addr
  | rtuId => mapAddrRtuId
  | heartBeat => mapAddrUdpHeartBeatStatus
  | serialPort => Role.slave.portAddr

def len : ConfigBlock → Nat
  | tcpPort | udpPort => 1
  | remoteIpv4 => 5
  | remoteIpv6 => 9
  | udpRemoteIpv4 => 5 * maxRemoteUdp4ServerNum
  | udpRemoteIpv6 => 9 * maxRemoteUdp6ServerNum
  | rtuId => 2
  | heartBeat => 3
  | serialPort => 5

/-- `heart_beat_info[1]` and `heart_beat_info[2]` have a least value. -/
def clampHeartBeat (k : Nat) (v : UInt16) : UInt16 :=
  if k = 1 ∧ v < 5 then 5 else if k = 2 ∧ v < 10 then 10 else v

/-- The word at `k` of the block as the thread has it then, `cur` being what it had before. -/
def word (env : Platform) (u : Rtu) (b : ConfigBlock) (k : Nat) (cur : UInt16) : UInt16 :=
  match b with
  | rtuId => ((zigbeeReadRegistersBigL env u rtuId.len 1 rtuId.addr true).getD []).getD k cur
  | heartBeat => clampHeartBeat k (readInto env u (fun _ => cur) heartBeat.len heartBeat.addr k)
  | b => readInto env u (fun _ => cur) b.len b.addr k

def words (b : ConfigBlock) : List (ConfigBlock × Nat) := (List.range b.len).map (b, ·)

end ConfigBlock

namespace NetThread

def queue : NetThread → Queue
  | tcpServer => .tcpServer
  | udpServer => .udpServer
  | rtuServer => .rtuServer
  | tcpClient => .tcpClient

/-- What the thread reads when it starts, in this order. -/
def startWords : NetThread → List (ConfigBlock × Nat)
  | tcpServer => ConfigBlock.tcpPort.words
  | udpServer =>
    [ConfigBlock.rtuId, .heartBeat, .udpPort, .udpRemoteIpv4, .udpRemoteIpv6].flatMap
      ConfigBlock.words
  | rtuServer => ConfigBlock.serialPort.words
  | tcpClient => [ConfigBlock.remoteIpv4, .remoteIpv6].flatMap ConfigBlock.words

/-- What its `msg_handler` reads on `MSG_CONFIG_START`. -/
def configWords : NetThread → List (ConfigBlock × Nat)
  | tcpServer => ConfigBlock.tcpPort.words
  | udpServer =>
    [ConfigBlock.udpRemoteIpv4, .udpRemoteIpv6, .rtuId, .heartBeat, .udpPort].flatMap
      ConfigBlock.words
  | rtuServer => ConfigBlock.serialPort.words
  | tcpClient => [ConfigBlock.remoteIpv4, .remoteIpv6].flatMap ConfigBlock.words

/-- Whatever it starts with, it reads again. -/
theorem perm_configWords (t : NetThread) : t.startWords.Perm t.configWords := by
  cases t <;> decide

end NetThread

/-- A message that a thread acts on. -/
def isConfigStart (m : Msg) : Bool := m = .configStart

/-- `PMSG_MAXMSG`. -/
def pmsgMaxmsg : Nat := 10

/-! ### The system -/

/-- The unit and the threads. -/
structure Network where
  rtu : Rtu
  listener : NetThread → Listener (ConfigBlock × Nat) UInt16 Msg

/-- What of the messages posted is for the thread. -/
def NetThread.mail (t : NetThread) (ps : List (Queue × Msg)) : List Msg :=
  (ps.filter (·.1 = t.queue)).map Prod.snd

/-- `mq_send` of each, which does not wait. -/
def NetThread.deliver (t : NetThread) (ps : List (Queue × Msg))
    (r : Listener (ConfigBlock × Nat) UInt16 Msg) : Listener (ConfigBlock × Nat) UInt16 Msg :=
  (t.mail ps).foldl (fun r m => r.post pmsgMaxmsg m) r

/-- The next step of a thread: it takes a message or reads a word. -/
def NetThread.work (env : Platform) (u : Rtu) (t : NetThread)
    (r : Listener (ConfigBlock × Nat) UInt16 Msg) : Listener (ConfigBlock × Nat) UInt16 Msg :=
  r.work (fun c u => c.1.word env u c.2) isConfigStart t.configWords u

/-- The store of one word, whoever stores it; a factory reset; a step of a thread; or anything that
happens to the unit besides. -/
inductive NetOp where
  | store (w i : Nat) (v : UInt16)
  | factoryReset
  | work (t : NetThread)
  | elsewhere
  deriving DecidableEq

inductive NetStep (env : Platform) : Network → NetOp → Network → Prop where
  | store (n : Network) (w i : Nat) (v : UInt16) {ps : List (Queue × Msg)} :
      (writeCell env w i v n.rtu).2.posted = n.rtu.posted ++ ps →
      NetStep env n (.store w i v)
        ⟨(writeCell env w i v n.rtu).2, fun t => t.deliver ps (n.listener t)⟩
  | factoryReset (n : Network) {ps : List (Queue × Msg)} :
      (resetFlash1ToDefault env n.rtu).2.posted = n.rtu.posted ++ ps →
      NetStep env n .factoryReset
        ⟨(resetFlash1ToDefault env n.rtu).2, fun t => t.deliver ps (n.listener t)⟩
  | work (n : Network) (t : NetThread) :
      NetStep env n (.work t)
        { n with listener := Function.update n.listener t (t.work env n.rtu (n.listener t)) }
  | elsewhere {n : Network} {u : Rtu} {ps : List (Queue × Msg)} :
      u.posted = n.rtu.posted ++ ps → (∀ t : NetThread, t.mail ps = []) →
      NetStep env n .elsewhere { n with rtu := u }

/-- The queues are empty, and each thread has everything to read. -/
def NetStarted (n : Network) : Prop :=
  ∀ t, (n.listener t).queue = [] ∧ (n.listener t).todo = t.startWords

/-! ### What is posted -/

/-- `rtu_reset_flash1` on a 1. -/
def configStartPosts : List (Queue × Msg) :=
  [.zigbee, .tcpServer, .udpServer, .rtuServer, .tcpClient, .rtuClient].map (·, .configStart)

/-- The store of a word: the notice, and two other cells that post. -/
def storePosts (kind : MapKind) (w i : Nat) (v : UInt16) : List (Queue × Msg) :=
  if kind ≠ .sys then []
  else if i = mapConfig1 then if v = 1 then configStartPosts else []
  else if i = mapConfig2ElecInterv ∨ i = mapConfig2ActInterv then [(.rtuClient, .config2Start)]
  else if i = mapGetHistory then [(.data, .requestHData w)]
  else []

section Posts

variable {env : Platform} {w i : Nat} {v : UInt16} {s : Rtu}

theorem mapItemRemap_posted {t : UInt16} : (mapItemRemap env w t s).2.posted = s.posted := by
  obtain ⟨-, hs⟩ | ⟨path, -, -, s', rfl, hs⟩ := mapItemRemap_cases env w t s
  · rw [hs]
  · rcases hs with hs | hs <;> rw [hs] <;> rfl

theorem gpioSetDo_posted : (gpioSetDo env i v s).posted = s.posted := by
  unfold gpioSetDo
  split <;> rfl

theorem rtuResetFlash1_posted : (rtuResetFlash1 v s).2.posted =
    s.posted ++ if v = 1 then configStartPosts else [] := by
  unfold rtuResetFlash1 configStartPosts
  split <;> simp [Rtu.post]

theorem storePosts_of_plain (h1 : i ≠ mapConfig1)
    (h2 : ¬ (i = mapConfig2ElecInterv ∨ i = mapConfig2ActInterv)) (h3 : i ≠ mapGetHistory) :
    storePosts .sys w i v = [] := by
  unfold storePosts
  rw [if_neg (not_not_intro rfl), if_neg h1, if_neg h2, if_neg h3]

/-- **What the store of a word posts.** -/
theorem writeCell_posted : (writeCell env w i v s).2.posted =
    s.posted ++ storePosts (s.map.ramXMapType (s.map.xBase w + i)) w i v := by
  cases ht : s.map.ramXMapType (s.map.xBase w + i) with
  | flash1 =>
      rw [writeCell_flash1 ht]
      simp [storePosts, Rtu.onMap, Rtu.msync]
  | flash2 =>
      rw [writeCell_flash2 ht]
      simp [storePosts, Rtu.onMap, Rtu.msync]
  | sys =>
      simp only [writeCell, ht]
      split
      · rename_i v' s' hf
        show s'.posted = _
        by_cases h0 : i = mapChangeWellType
        · subst h0
          rw [mapMapFunWrite_change] at hf
          obtain ⟨rfl, rfl⟩ := Option.some.inj hf
          rw [mapItemRemap_posted, storePosts_of_plain (by decide) (by decide) (by decide),
            List.append_nil]
        · obtain ⟨hi, -, rfl⟩ | ⟨hi, -, rfl⟩ | ⟨hi, -, rfl⟩ | ⟨hi, -, rfl⟩ | ⟨hi, -, rfl⟩ :=
            mapMapFunWrite_cases hf h0
          · -- the clock
            unfold mapGetTimeHour mapGetTimeDay at hi
            rw [storePosts_of_plain (by unfold mapConfig1; omega)
              (by unfold mapConfig2ElecInterv mapConfig2ActInterv; omega)
              (by unfold mapGetHistory; omega), List.append_nil]
            rfl
          · subst hi
            exact rtuResetFlash1_posted
          · -- an interval
            unfold storePosts
            rw [if_neg (not_not_intro rfl), if_neg (by rcases hi with rfl | rfl <;> decide),
              if_pos hi]
            rfl
          · -- an output
            unfold mapGetDO0 at hi
            rw [storePosts_of_plain (by unfold mapConfig1; omega)
              (by unfold mapConfig2ElecInterv mapConfig2ActInterv; omega)
              (by unfold mapGetHistory; omega), List.append_nil]
            exact gpioSetDo_posted
          · subst hi
            rfl
      · -- no function
        rename_i hf
        show s.posted = _
        have hnone : i ≠ mapConfig1 ∧ ¬ (i = mapConfig2ElecInterv ∨ i = mapConfig2ActInterv) ∧
            i ≠ mapGetHistory := by
          unfold mapMapFunWrite at hf
          split_ifs at hf
          tauto
        rw [storePosts_of_plain hnone.1 hnone.2.1 hnone.2.2, List.append_nil]
  | _ => simp [writeCell, ht, storePosts, Rtu.onMap]

/-- A factory reset posts when it has loaded its file. -/
theorem resetFlash1ToDefault_posted : (resetFlash1ToDefault env s).2.posted = s.posted ++
    if (ramMapFlash1ValueInit env 0 0 true false pathMap1 false s.map).1 = some 0 then
      configStartPosts else [] := by
  unfold resetFlash1ToDefault
  split
  · rename_i m hload
    rw [if_pos (congrArg Prod.fst hload)]
    split <;>
      · rename_i hsync
        obtain ⟨-, rfl⟩ := Rtu.msync_eq hsync
        exact rtuResetFlash1_posted
  · rename_i rc m hrc hload
    have hfst : (ramMapFlash1ValueInit env 0 0 true false pathMap1 false s.map).1 = rc :=
      congrArg Prod.fst hload
    rw [if_neg fun h => hrc (hfst.symm.trans h), List.append_nil]
    rfl

theorem mail_configStartPosts (t : NetThread) : t.mail configStartPosts = [.configStart] := by
  cases t <;> rfl

/-- **Each thread is sent the notice, and nothing else.** -/
theorem mail_storePosts (t : NetThread) (kind : MapKind) (w i : Nat) (v : UInt16) :
    t.mail (storePosts kind w i v) =
      if kind = .sys ∧ i = mapConfig1 ∧ v = 1 then [.configStart] else [] := by
  unfold storePosts
  by_cases hsys : kind = .sys
  · rw [if_neg (not_not_intro hsys)]
    by_cases hi : i = mapConfig1
    · rw [if_pos hi]
      by_cases hv : v = 1
      · rw [if_pos hv, if_pos ⟨hsys, hi, hv⟩, mail_configStartPosts]
      · rw [if_neg hv, if_neg fun h => hv h.2.2]
        rfl
    · rw [if_neg hi, if_neg (show ¬ (kind = .sys ∧ i = mapConfig1 ∧ v = 1) from fun h => hi h.2.1)]
      split_ifs <;> cases t <;> rfl
  · rw [if_pos hsys, if_neg fun h => hsys h.1]
    rfl

end Posts

/-! ### A thread over a run -/

/-- The step posts the notice. -/
def NetOp.Notifies (env : Platform) (u : Rtu) : NetOp → Prop
  | store w i v => u.map.ramXMapType (u.map.xBase w + i) = .sys ∧ i = mapConfig1 ∧ v = 1
  | factoryReset => (ramMapFlash1ValueInit env 0 0 true false pathMap1 false u.map).1 = some 0
  | work _ | elsewhere => False

/-- A step of this kind may. -/
def NetOp.MayNotify : NetOp → Prop
  | store _ i v => i = mapConfig1 ∧ v = 1
  | factoryReset => True
  | work _ | elsewhere => False

theorem NetOp.Notifies.may {env : Platform} {u : Rtu} {op : NetOp} (h : op.Notifies env u) :
    op.MayNotify := by
  cases op with
  | store w i v => exact h.2
  | factoryReset => trivial
  | work t => exact h
  | elsewhere => exact h

/-- The registers give the thread these words, whatever its buffers held before. -/
def Rtu.Configured (env : Platform) (t : NetThread) (word : ConfigBlock × Nat → UInt16) (u : Rtu) :
    Prop :=
  ∀ c ∈ t.configWords, ∀ cur, c.1.word env u c.2 cur = word c

/-- No message but notices, no more of them than the queue takes, and no more to read than all. -/
structure NetThread.Tidy (t : NetThread) (r : Listener (ConfigBlock × Nat) UInt16 Msg) : Prop where
  notices : ∀ m ∈ r.queue, isConfigStart m = true
  queue : r.queue.length ≤ pmsgMaxmsg
  todo : r.todo.length ≤ t.configWords.length

/-- Steps that are enough for whatever a thread can have left. -/
def NetThread.patience (t : NetThread) : Nat :=
  t.configWords.length + pmsgMaxmsg * (t.configWords.length + 1)

section Threads

variable {env : Platform} {t : NetThread} {word : ConfigBlock × Nat → UInt16} {n n' : Network}
  {op : NetOp} {r : Listener (ConfigBlock × Nat) UInt16 Msg}

/-- **What a step does to a thread**: it is sent a notice, it takes a step of its own, or nothing
happens to it. -/
theorem NetStep.reader_cases (h : NetStep env n op n') (t : NetThread) :
    (op.Notifies env n.rtu ∧ n'.listener t = (n.listener t).post pmsgMaxmsg .configStart) ∨
    (op = .work t ∧ n'.listener t = t.work env n.rtu (n.listener t)) ∨
    (¬ op.Notifies env n.rtu ∧ op ≠ .work t ∧ n'.listener t = n.listener t) := by
  cases h with
  | store w i v hps =>
      obtain rfl := List.append_cancel_left (hps.symm.trans writeCell_posted)
      dsimp only [NetThread.deliver]
      rw [mail_storePosts]
      split
      · rename_i hnotice
        exact .inl ⟨hnotice, rfl⟩
      · rename_i hno
        exact .inr (.inr ⟨hno, nofun, rfl⟩)
  | factoryReset hps =>
      obtain rfl := List.append_cancel_left (hps.symm.trans resetFlash1ToDefault_posted)
      dsimp only [NetThread.deliver]
      split
      · rename_i hload
        rw [mail_configStartPosts]
        exact .inl ⟨hload, rfl⟩
      · rename_i hload
        exact .inr (.inr ⟨hload, nofun, rfl⟩)
  | work t' =>
      by_cases ht : t' = t
      · subst ht
        exact .inr (.inl ⟨rfl, Function.update_self _ _ _⟩)
      · refine .inr (.inr ⟨id, fun hop => ht (NetOp.work.inj hop), ?_⟩)
        exact Function.update_of_ne (Ne.symm ht) _ _
  | elsewhere hps hmail => exact .inr (.inr ⟨id, nofun, rfl⟩)

theorem NetThread.Tidy.post (h : t.Tidy r) : t.Tidy (r.post pmsgMaxmsg .configStart) where
  notices m hm := by
    rcases Notify.mem_or_eq_of_mem_enqueue hm with hm | rfl
    · exact h.notices m hm
    · rfl
  queue := Notify.enqueue_length_le h.queue
  todo := h.todo

theorem NetThread.Tidy.work {u : Rtu} (h : t.Tidy r) : t.Tidy (t.work env u r) := by
  unfold NetThread.work Listener.work
  split
  · -- a message
    unfold Listener.receive
    split
    · rename_i m q htodo hqueue
      have hq := h.queue
      rw [hqueue, List.length_cons] at hq
      refine ⟨fun m' hm' => h.notices m' (hqueue ▸ List.mem_cons_of_mem _ hm'), ?_, ?_⟩ <;>
        dsimp only
      · omega
      split
      · exact Nat.le_refl _
      · exact Nat.zero_le _
    · exact h
  · -- a word
    unfold Listener.read
    split
    · exact h
    · rename_i c todo htodo
      have hlen := h.todo
      rw [htodo, List.length_cons] at hlen
      exact ⟨h.notices, h.queue, Nat.le_of_succ_le hlen⟩

theorem NetStep.tidy (h : NetStep env n op n') (hn : ∀ t : NetThread, t.Tidy (n.listener t)) :
    ∀ t : NetThread, t.Tidy (n'.listener t) := by
  intro t
  rcases h.reader_cases t with ⟨-, hr⟩ | ⟨-, hr⟩ | ⟨-, -, hr⟩
  · exact hr ▸ (hn t).post
  · exact hr ▸ (hn t).work
  · exact hr ▸ hn t

theorem NetStarted.tidy (h : NetStarted n) : ∀ t : NetThread, t.Tidy (n.listener t) := by
  intro t
  obtain ⟨hqueue, htodo⟩ := h t
  refine ⟨?_, ?_, ?_⟩
  · rw [hqueue]
    exact nofun
  · rw [hqueue]
    exact Nat.zero_le _
  · rw [htodo, t.perm_configWords.length_eq]

theorem tidy_of_reach (h : Reach NetStarted (NetStep env) n) :
    ∀ t : NetThread, t.Tidy (n.listener t) :=
  h.invariant (P := fun n => ∀ t : NetThread, t.Tidy (n.listener t)) (fun _ h => h.tidy)
    fun _ _ _ hn hstep => hstep.tidy hn

/-- While the registers stay, a word that is right or will be read again stays so. -/
theorem NetStep.settling (h : NetStep env n op n') (hword : n.rtu.Configured env t word)
    {c : ConfigBlock × Nat} (hc : c ∈ t.configWords)
    (hn : (n.listener t).Settling isConfigStart (fun c v => v = word c) c) :
    (n'.listener t).Settling isConfigStart (fun c v => v = word c) c := by
  rcases h.reader_cases t with ⟨-, hr⟩ | ⟨-, hr⟩ | ⟨-, -, hr⟩
  · exact hr ▸ hn.post
  · exact hr ▸ hn.work hc (hword c hc)
  · exact hr ▸ hn

/-- A thread gets on with every step of its own, and only a notice sets it back. -/
theorem NetStep.backlog (h : NetStep env n op n') :
    (op = .work t → (n'.listener t).backlog t.configWords ≤
      (n.listener t).backlog t.configWords - 1) ∧
    (op ≠ .work t → ¬ op.MayNotify →
      (n'.listener t).backlog t.configWords ≤ (n.listener t).backlog t.configWords) := by
  rcases h.reader_cases t with ⟨hnotice, -⟩ | ⟨rfl, hr⟩ | ⟨-, hop, hr⟩
  · refine ⟨?_, fun _ hno => absurd hnotice.may hno⟩
    rintro rfl
    exact hnotice.elim
  · exact ⟨fun _ => hr ▸ Listener.backlog_work, fun hop => absurd rfl hop⟩
  · exact ⟨fun hop' => absurd hop' hop, fun _ _ => hr ▸ Nat.le_refl _⟩

/-- The thread has no message and nothing to read left. -/
theorem idle_of_quiet {ops : List NetOp} (hn : t.Tidy (n.listener t))
    (h : Trace (NetStep env) n ops n') (hquiet : ∀ op ∈ ops, ¬ op.MayNotify)
    (hcount : t.patience ≤ ops.count (.work t)) : (n'.listener t).Idle := by
  have hdown := (h.guard_labels hquiet).countdown
    (f := fun n => (n.listener t).backlog t.configWords)
    (l := (· == .work t)) (fun _ _ _ hstep hop => hstep.2.backlog.1 (eq_of_beq hop))
    fun _ _ _ hstep hop => hstep.2.backlog.2 (ne_of_beq_false hop) hstep.1
  have hstart : (n.listener t).backlog t.configWords ≤ t.patience :=
    Listener.backlog_le hn.todo hn.queue
  have hzero : (n'.listener t).backlog t.configWords = 0 :=
    Nat.le_zero.1 (hdown.trans (Nat.sub_eq_zero_of_le (hstart.trans hcount)).le)
  exact Listener.backlog_eq_zero_iff.1 hzero

/-- **The threads follow the registers.** From a notice on, in any order of steps that leaves the
thread's registers as they are: once the thread has no message and nothing to read left, its words
are those of the registers; and it gets there in `patience` steps of its own, unless there are more
notices. -/
theorem reconfigured {n₀ n₁ n₂ : Network} {ops : List NetOp}
    (hreach : Reach NetStarted (NetStep env) n₀) (hstep : NetStep env n₀ op n₁)
    (hnotice : op.Notifies env n₀.rtu)
    (hrun : Trace (guarded (fun n _ => n.rtu.Configured env t word) (NetStep env)) n₁ ops n₂) :
    ((n₂.listener t).Idle → ∀ c ∈ t.configWords, (n₂.listener t).copy c = word c) ∧
    ((∀ op ∈ ops, ¬ op.MayNotify) → t.patience ≤ ops.count (.work t) → (n₂.listener t).Idle) := by
  have htidy := tidy_of_reach hreach
  constructor
  · intro hidle c hc
    have hposted : (n₁.listener t).Settling isConfigStart (fun c v => v = word c) c := by
      rcases hstep.reader_cases t with ⟨-, hr⟩ | ⟨rfl, -⟩ | ⟨hno, -⟩
      · rw [hr]
        exact Listener.post_settling (by decide) (htidy t).notices rfl
      · exact hnotice.elim
      · exact absurd hnotice hno
    have hsettling := hrun.invariant
      (P := fun n => (n.listener t).Settling isConfigStart (fun c v => v = word c) c)
      (fun _ _ _ hn hstep => hstep.2.settling hstep.1 hc hn) hposted
    exact Listener.fresh_of_idle hsettling hidle
  · intro hquiet hcount
    exact idle_of_quiet (hstep.tidy htidy t) (hrun.mono fun _ _ _ _ hstep => hstep.2) hquiet hcount

end Threads

/-! ### A change of the port -/

/-- Register 58 has this port, and 16 takes the notice. -/
def tcpPortUnit (port : UInt16) : Rtu :=
  .start { emptyMap 60 (fun _ => 0) (fun _ => 0) with
    ramX := fun k => if k = mapAddrTcpPort then port else 0
    ramXMapType := fun k => if k = mapConfig1 then .sys else .null }

/-- The threads as they start. -/
def startedOver (u : Rtu) : Network :=
  ⟨u, fun t => ⟨[], t.startWords, fun _ => 0⟩⟩

/-- Any number of steps of one thread. -/
theorem trace_works {env : Platform} {t : NetThread} {word : ConfigBlock × Nat → UInt16} (k : Nat) :
    ∀ n : Network, n.rtu.Configured env t word →
      ∃ n', Trace (guarded (fun n _ => n.rtu.Configured env t word) (NetStep env)) n
        (.replicate k (.work t)) n' := by
  induction k with
  | zero => exact fun n _ => ⟨n, .nil n⟩
  | succ k ih =>
      intro n hn
      obtain ⟨n', hn'⟩ := ih { n with listener := Function.update n.listener t _ } hn
      exact ⟨n', .cons ⟨hn, .work n t⟩ hn'⟩

/-- The unit and the threads after the notice. -/
def noticedUnit : Rtu := (writeCell (.bare fun _ => none) 1 mapConfig1 1 (tcpPortUnit 502)).2

def noticed : Network :=
  ⟨noticedUnit, fun t => t.deliver (storePosts .sys 1 mapConfig1 1)
    ((startedOver (tcpPortUnit 502)).listener t)⟩

theorem noticedUnit_configured :
    noticedUnit.Configured (.bare fun _ => none) .tcpServer fun _ => 502 := by
  intro c hc cur
  obtain rfl := List.mem_singleton.1 hc
  rfl

/-- The server on port 502: the notice comes before it has read its port at all. -/
theorem tcpPort_reconfigured : ∃ n₂ : Network,
    (n₂.listener .tcpServer).copy (.tcpPort, 0) = 502 ∧ (n₂.listener .tcpServer).Idle := by
  obtain ⟨n₂, hrun⟩ := trace_works (NetThread.patience .tcpServer) noticed noticedUnit_configured
  have hnotice : NetStep (.bare fun _ => none) (startedOver (tcpPortUnit 502))
      (.store 1 mapConfig1 1) noticed := .store _ 1 mapConfig1 1 writeCell_posted
  have h := reconfigured (.start fun _ => ⟨rfl, rfl⟩) hnotice ⟨rfl, rfl, rfl⟩ hrun
  have hquiet : ∀ op ∈ List.replicate (NetThread.patience .tcpServer) (NetOp.work .tcpServer),
      ¬ op.MayNotify := by
    intro op hop
    obtain rfl := List.eq_of_mem_replicate hop
    exact id
  have hidle := h.2 hquiet (List.count_replicate_self ..).ge
  exact ⟨n₂, h.1 hidle _ (List.mem_singleton_self _), hidle⟩
end RtuA118
