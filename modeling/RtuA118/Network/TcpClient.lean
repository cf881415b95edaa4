import Mathlib.Data.Finset.Basic
import RtuA118.Lib.Run

/-!
# RtuA118.Network.TcpClient

The **descriptors of the TCP client**: `ctx->s`, the set `fdset0` that is given to
`select`, and the bound `max_fd`. Connecting, two ways of closing and a change of the
configuration each update the three on their own.

`modbus_connect` returns what `getaddrinfo` returns, and the loop takes every code but
`-1` for a connection; and it takes descriptor 0 for none. In runs without either the
bookkeeping is right in every state (`client_bookkept`). The addresses of the server
come from registers; all that matters of them here is what the resolver says.
-/

namespace RtuA118

open Run (Reach guarded)

/-! ### The client -/

/-- Where the loop is: before it connects, before `select`, and with the set that
`select` returned before the socket and before the message queue is looked at. -/
inductive ClientPhase where
  | connecting
  | selecting
  | serving (ready : Finset Int)
  | messages (ready : Finset Int)
  | left
  deriving DecidableEq

/-- The client's variables, and the sockets it has opened and not closed. -/
structure TcpClient where
  phase : ClientPhase
  s : Int
  fdset0 : Finset Int
  maxFd : Int
  j : Nat
  opened : Finset Int
  deriving DecidableEq

/-- An address the resolver found: what `socket` and `connect` return for it. -/
structure AddressOutcome where
  socket : Int
  connect : Int
  deriving DecidableEq

/-- An attempt to connect: what `getaddrinfo` returns, and its addresses. -/
structure ConnectOutcome where
  resolver : Int
  addresses : List AddressOutcome
  deriving DecidableEq

/-- The socket of the first address that accepts. The sockets of those that do not are
closed again. -/
def ConnectOutcome.connected (o : ConnectOutcome) : Option Int :=
  (o.addresses.find? fun a => 0 ≤ a.socket ∧ a.connect = 0).map AddressOutcome.socket

namespace TcpClient

variable (msgFd : Int) (c : TcpClient)

/-- `_modbus_tcp_pi_connect`: its return code, and `ctx->s`. -/
def piConnect (o : ConnectOutcome) : Int × Int :=
  if o.resolver ≠ 0 then (o.resolver, c.s)
  else
    let s := o.connected.getD c.s
    if s < 0 then (-1, s) else (0, s)

/-- The head of the loop: an unconnected client connects. -/
def connect (o : ConnectOutcome) : TcpClient :=
  if c.s ≤ 0 then
    let (rc, s) := c.piConnect o
    let opened :=
      if o.resolver = 0 then o.connected.elim c.opened (insert · c.opened) else c.opened
    if rc = -1 then { c with s := s, opened := opened }
    else
      { c with
        s := s
        fdset0 := insert s c.fdset0
        maxFd := if msgFd < s then s else msgFd
        j := 0
        opened := opened }
  else c

/-- The socket is taken out of the set, closed and forgotten. -/
def closeSocket : TcpClient :=
  { c with
    s := -1
    fdset0 := c.fdset0.erase c.s
    maxFd := if c.s = c.maxFd then msgFd else c.maxFd
    opened := c.opened.erase c.s }

/-- Nothing for two seconds: after 200 times the socket is closed. -/
def idle : TcpClient :=
  let c := { c with j := c.j + 1 }
  if c.j > 200 ∧ c.s > 0 then c.closeSocket msgFd else c

/-- The socket is looked at; `ok` is `modbus_receive` returning a request. -/
def serve (ready : Finset Int) (ok : Bool) : TcpClient :=
  if c.s > 0 ∧ c.s ∈ ready then
    if ok then { c with j := 0 } else c.closeSocket msgFd
  else c

/-- `msg_handler` on `MSG_CONFIG_START`: a new context, and the set from the beginning. -/
def reconfigure : TcpClient :=
  let opened := if c.s > 0 then c.opened.erase c.s else c.opened
  let c := { c with s := -1, fdset0 := ∅, opened := opened }
  if msgFd > 0 then { c with fdset0 := {msgFd}, maxFd := msgFd } else c

/-- The message queue is looked at. -/
def message (ready : Finset Int) (configStart : Bool) : TcpClient :=
  if msgFd > 0 ∧ msgFd ∈ ready then
    if configStart then c.reconfigure msgFd else c
  else c

end TcpClient

/-! ### Runs -/

/-- What happens to the client next. -/
inductive ClientEvent where
  | connect (o : ConnectOutcome)
  | timeout
  | ready (ready : Finset Int)
  | failed
  | receive (ok : Bool)
  | message (configStart : Bool)

/-- The client before its first turn. The bound is set with the message queue only. -/
structure ClientStart (msgFd : Int) (c : TcpClient) : Prop where
  phase : c.phase = .connecting
  s : c.s = -1
  fdset0 : c.fdset0 = if msgFd > 0 then {msgFd} else ∅
  maxFd : msgFd > 0 → c.maxFd = msgFd
  opened : c.opened = ∅

/-- One step. A new socket is a descriptor that is not open, and `select` returns
members of the set it is given. -/
inductive ClientStep (msgFd : Int) (c : TcpClient) : ClientEvent → TcpClient → Prop where
  | connect {o : ConnectOutcome} (hphase : c.phase = .connecting)
      (hnew : ∀ a ∈ o.addresses, a.socket ∉ c.opened ∧ (0 ≤ a.socket → a.socket ≠ msgFd)) :
      ClientStep msgFd c (.connect o) { c.connect msgFd o with phase := .selecting }
  | timeout (hphase : c.phase = .selecting) :
      ClientStep msgFd c .timeout { c.idle msgFd with phase := .connecting }
  | ready {ready : Finset Int} (hphase : c.phase = .selecting) (hsub : ready ⊆ c.fdset0) :
      ClientStep msgFd c (.ready ready) { c with phase := .serving ready }
  | failed (hphase : c.phase = .selecting) :
      ClientStep msgFd c .failed { c with phase := .left }
  | receive {ready : Finset Int} {ok : Bool} (hphase : c.phase = .serving ready) :
      ClientStep msgFd c (.receive ok) { c.serve msgFd ready ok with phase := .messages ready }
  | message {ready : Finset Int} {configStart : Bool} (hphase : c.phase = .messages ready) :
      ClientStep msgFd c (.message configStart)
        { c.message msgFd ready configStart with phase := .connecting }

/-- The bookkeeping of descriptors. -/
structure TcpClient.Bookkept (msgFd : Int) (c : TcpClient) : Prop where
  nonneg : ∀ fd ∈ c.fdset0, 0 ≤ fd
  only : ∀ fd ∈ c.fdset0, fd = msgFd ∨ fd = c.s ∧ c.s ∈ c.opened
  listed : c.s ∈ c.opened → c.s ∈ c.fdset0
  bounded : ∀ fd ∈ c.fdset0, fd ≤ c.maxFd

/-- The resolver succeeds or fails with `-1`, and no socket is descriptor 0. -/
def ClientEvent.Regular : ClientEvent → Prop
  | .connect o => (o.resolver = 0 ∨ o.resolver = -1) ∧ ∀ a ∈ o.addresses, a.socket ≠ 0
  | _ => True

/-! ### The invariant -/

/-- What a regular run keeps: the client is unconnected or has one socket, and the set
is that of the message queue and this socket. -/
structure TcpClient.Sound (msgFd : Int) (c : TcpClient) : Prop where
  socket : c.s = -1 ∧ c.opened = ∅ ∨ 0 < c.s ∧ c.opened = {c.s} ∧ c.s ≠ msgFd
  members : ∀ fd, fd ∈ c.fdset0 ↔ fd = msgFd ∧ 0 < msgFd ∨ fd = c.s ∧ 0 < c.s
  bounded : ∀ fd ∈ c.fdset0, fd ≤ c.maxFd

section Invariant

variable {msgFd : Int} {c : TcpClient}

theorem TcpClient.Sound.bookkept (h : c.Sound msgFd) : c.Bookkept msgFd := by
  refine ⟨fun fd hfd => ?_, fun fd hfd => ?_, fun hopen => ?_, h.bounded⟩
  · rcases (h.members fd).1 hfd with ⟨rfl, hpos⟩ | ⟨rfl, hpos⟩
    · exact Int.le_of_lt hpos
    · exact Int.le_of_lt hpos
  · rcases (h.members fd).1 hfd with ⟨rfl, -⟩ | ⟨rfl, hpos⟩
    · exact .inl rfl
    · rcases h.socket with ⟨hs, -⟩ | ⟨-, hopened, -⟩
      · omega
      · exact .inr ⟨rfl, by simp [hopened]⟩
  · rcases h.socket with ⟨-, hnone⟩ | ⟨hpos, -, -⟩
    · simp [hnone] at hopen
    · exact (h.members c.s).2 (.inr ⟨rfl, hpos⟩)

/-- A change of the phase alone. -/
theorem TcpClient.Sound.phase (h : c.Sound msgFd) (p : ClientPhase) :
    TcpClient.Sound msgFd { c with phase := p } := ⟨h.socket, h.members, h.bounded⟩

/-- So is one of the counter. -/
theorem TcpClient.Sound.counter (h : c.Sound msgFd) (j : Nat) :
    TcpClient.Sound msgFd { c with j := j } := ⟨h.socket, h.members, h.bounded⟩

/-- An attempt that fails leaves the socket field as it was. -/
theorem TcpClient.Sound.withSocket (h : c.Sound msgFd) (hs : c.s = -1) :
    TcpClient.Sound msgFd { c with s := -1 } := by
  cases c
  subst hs
  exact h

theorem TcpClient.Sound.closeSocket (h : c.Sound msgFd) (hs : 0 < c.s) :
    (c.closeSocket msgFd).Sound msgFd := by
  obtain ⟨hneg, -⟩ | ⟨-, hopened, hne⟩ := h.socket
  · omega
  have hmembers : ∀ fd, fd ∈ (c.closeSocket msgFd).fdset0 ↔ fd = msgFd ∧ 0 < msgFd := by
    intro fd
    simp only [TcpClient.closeSocket, Finset.mem_erase, h.members]
    constructor
    · rintro ⟨hfd, hmsg | ⟨rfl, -⟩⟩
      · exact hmsg
      · exact absurd rfl hfd
    · rintro ⟨rfl, hpos⟩
      exact ⟨fun heq => hne heq.symm, .inl ⟨rfl, hpos⟩⟩
  refine ⟨.inl ⟨rfl, by simp [TcpClient.closeSocket, hopened]⟩, fun fd => ?_, fun fd hfd => ?_⟩
  · rw [hmembers]
    simp [TcpClient.closeSocket]
  · obtain ⟨rfl, hpos⟩ := (hmembers fd).1 hfd
    have hbound := h.bounded fd ((h.members fd).2 (.inl ⟨rfl, hpos⟩))
    simp only [TcpClient.closeSocket]
    split
    · exact Int.le_refl _
    · exact hbound

theorem TcpClient.Sound.reconfigure (h : c.Sound msgFd) : (c.reconfigure msgFd).Sound msgFd := by
  have hclosed : (if c.s > 0 then c.opened.erase c.s else c.opened) = ∅ := by
    obtain ⟨hs, hnone⟩ | ⟨hs, hopened, -⟩ := h.socket
    · simp [hs, hnone]
    · simp [hs, hopened]
  unfold TcpClient.reconfigure
  dsimp only
  rw [hclosed]
  split
  · rename_i hmsg
    exact ⟨.inl ⟨rfl, rfl⟩, fun fd => by simp [hmsg], fun fd hfd => by simp_all⟩
  · rename_i hmsg
    exact ⟨.inl ⟨rfl, rfl⟩, fun fd => by simp [hmsg], fun fd hfd => by simp at hfd⟩

theorem ConnectOutcome.mem_of_connected {o : ConnectOutcome} {fd : Int}
    (h : o.connected = some fd) : ∃ a ∈ o.addresses, a.socket = fd ∧ 0 ≤ fd := by
  obtain ⟨a, ha, rfl⟩ := Option.map_eq_some_iff.1 h
  have hok := List.find?_some ha
  exact ⟨a, List.mem_of_find?_eq_some ha, rfl, (of_decide_eq_true hok).1⟩

/-- A new socket of a client that had none. -/
theorem TcpClient.Sound.insert {fd : Int} (h : c.Sound msgFd) (hs : c.s = -1) (hpos : 0 < fd)
    (hne : fd ≠ msgFd) : TcpClient.Sound msgFd
      { c with
        s := fd
        fdset0 := insert fd c.fdset0
        maxFd := if msgFd < fd then fd else msgFd
        j := 0
        opened := {fd} } := by
  have hold : ∀ x ∈ c.fdset0, x = msgFd ∧ 0 < msgFd := by
    intro x hx
    rcases (h.members x).1 hx with hmsg | ⟨-, hpos'⟩
    · exact hmsg
    · omega
  refine ⟨.inr ⟨hpos, rfl, hne⟩, fun x => ?_, fun x hx => ?_⟩
  · simp only [Finset.mem_insert, h.members, hs]
    constructor
    · rintro (rfl | hmsg | ⟨-, hneg⟩)
      · exact .inr ⟨rfl, hpos⟩
      · exact .inl hmsg
      · omega
    · rintro (hmsg | ⟨rfl, -⟩)
      · exact .inr (.inl hmsg)
      · exact .inl rfl
  · have hx : x = fd ∨ x = msgFd := (Finset.mem_insert.1 hx).imp_right fun h => (hold x h).1
    dsimp only
    split <;> omega

theorem TcpClient.Sound.connect {o : ConnectOutcome} (h : c.Sound msgFd)
    (hnew : ∀ a ∈ o.addresses, a.socket ∉ c.opened ∧ (0 ≤ a.socket → a.socket ≠ msgFd))
    (hreg : (ClientEvent.connect o).Regular) : (c.connect msgFd o).Sound msgFd := by
  obtain ⟨hres, hzero⟩ := hreg
  unfold TcpClient.connect
  split
  · rename_i hle
    obtain ⟨hs, hnone⟩ | ⟨hs, -, -⟩ := h.socket
    · unfold TcpClient.piConnect
      rcases hres with hres | hres
      · cases hfd : o.connected with
        | none => simpa [hres, hs] using h.withSocket hs
        | some fd =>
            obtain ⟨a, ha, rfl, hfd⟩ := o.mem_of_connected hfd
            have hpos : 0 < a.socket := by have := hzero a ha; omega
            simpa [hres, hnone, Int.not_lt.2 hfd] using h.insert hs hpos ((hnew a ha).2 hfd)
      · simpa [hres, hs] using h.withSocket hs
    · omega
  · exact h

theorem ClientStep.sound {c' : TcpClient} {e : ClientEvent} (h : ClientStep msgFd c e c')
    (hreg : e.Regular) (hc : c.Sound msgFd) : c'.Sound msgFd := by
  cases h with
  | connect hphase hnew => exact (hc.connect hnew hreg).phase _
  | timeout hphase =>
      refine TcpClient.Sound.phase ?_ _
      unfold TcpClient.idle
      dsimp only
      split
      · rename_i hidle
        exact (hc.counter _).closeSocket hidle.2
      · exact hc.counter _
  | ready hphase hsub => exact hc.phase _
  | failed hphase => exact hc.phase _
  | receive hphase =>
      refine TcpClient.Sound.phase ?_ _
      unfold TcpClient.serve
      split
      · rename_i hready
        split
        · exact hc.counter _
        · exact hc.closeSocket hready.1
      · exact hc
  | message hphase =>
      refine TcpClient.Sound.phase ?_ _
      unfold TcpClient.message
      split
      · split
        · exact hc.reconfigure
        · exact hc
      · exact hc

theorem ClientStart.sound (h : ClientStart msgFd c) : c.Sound msgFd := by
  refine ⟨.inl ⟨h.s, h.opened⟩, fun fd => ?_, fun fd hfd => ?_⟩
  · rw [h.fdset0, h.s]
    split
    · rename_i hmsg
      simp [hmsg]
    · rename_i hmsg
      simp [hmsg]
  · rw [h.fdset0] at hfd
    split at hfd
    · rename_i hmsg
      rw [Finset.mem_singleton.1 hfd, h.maxFd hmsg]
    · simp at hfd

/-- Any other code of the resolver puts `-1` into the set. -/
theorem connect_of_resolver {o : ConnectOutcome} (hs : c.s = -1) (h0 : o.resolver ≠ 0)
    (h1 : o.resolver ≠ -1) : -1 ∈ (c.connect msgFd o).fdset0 := by
  simp [TcpClient.connect, TcpClient.piConnect, hs, h0, h1]

end Invariant

/-- **The client's bookkeeping** is right in every state of a regular run. -/
theorem client_bookkept (msgFd : Int) (c : TcpClient)
    (h : Reach (ClientStart msgFd) (guarded (fun _ e => e.Regular) (ClientStep msgFd)) c) :
    c.Bookkept msgFd := by
  have hsound : c.Sound msgFd :=
    h.invariant (fun _ hc => hc.sound) fun _ _ _ hc hstep => hstep.2.sound hstep.1 hc
  exact hsound.bookkept

/-! ### Two attempts -/

/-- A client with message queue 3. -/
def freshClient : TcpClient := ⟨.connecting, -1, {3}, 3, 0, ∅⟩

theorem freshClient_start : ClientStart 3 freshClient := ⟨rfl, rfl, rfl, fun _ => rfl, rfl⟩

/-- A server that accepts on descriptor 4. -/
def accepting : ConnectOutcome := ⟨0, [⟨4, 0⟩]⟩

theorem accepting_bookkept :
    TcpClient.Bookkept 3 { freshClient.connect 3 accepting with phase := .selecting } :=
  client_bookkept 3 _ (.step (.start freshClient_start)
    ⟨by simp [ClientEvent.Regular, accepting],
      .connect rfl (by simp [accepting, freshClient])⟩)

/-- A resolver that does not know the name, `EAI_NONAME`. -/
def unknownName : ConnectOutcome := ⟨-2, []⟩

theorem not_client_bookkept : ¬ ∀ (msgFd : Int) (c : TcpClient),
    Reach (ClientStart msgFd) (ClientStep msgFd) c → c.Bookkept msgFd := by
  intro h
  have hstep : ClientStep 3 freshClient (.connect unknownName)
      { freshClient.connect 3 unknownName with phase := .selecting } :=
    .connect rfl fun _ ha => absurd ha List.not_mem_nil
  have hbad := (h 3 _ (.step (.start freshClient_start) hstep)).nonneg (-1)
    (connect_of_resolver rfl (by decide) (by decide))
  exact absurd hbad (by decide)

end RtuA118
