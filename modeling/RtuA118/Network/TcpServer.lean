import Mathlib.Data.Finset.Basic
import RtuA118.Lib.Run

/-!
# RtuA118.Network.TcpServer

The **descriptors of the TCP server**: its listening socket, its clients, the set
`refset` that every round starts from and the bound `fdmax` of the scan.

A message that changes the port resets all of them in the middle of a scan. It closes
the clients that are ready in this round and clears the set: any other client stays open
in no set, and is never served again (`not_bookkept_of_left`). Without such a message,
and with a socket to listen on, the bookkeeping is right in every state, in the middle
of a round as between two (`server_bookkept`).
-/

namespace RtuA118

open Run (Reach Steps guarded)

/-! ### The server -/

/-- Between two rounds, or in a scan at a descriptor. -/
inductive ServerPhase where
  | between
  | scanning (masterSocket : Int)
  deriving DecidableEq

/-- The server's variables, and the clients accepted and not closed yet. -/
structure TcpServer where
  phase : ServerPhase
  port : UInt16
  serverSocket : Int
  refset : Finset Int
  rdset : Finset Int
  fdmax : Int
  clients : Finset Int
  deriving DecidableEq

namespace TcpServer

variable (msgFd : Int) (c : TcpServer)

/-- `refset` and `fdmax` from the beginning, with a new listening socket. -/
def listenOn (serverSocket : Int) : TcpServer :=
  let c := { c with serverSocket := serverSocket, refset := {serverSocket}, fdmax := serverSocket }
  if msgFd > 0 then
    { c with
      refset := insert msgFd c.refset
      fdmax := if msgFd > serverSocket then msgFd else serverSocket }
  else c

/-- The clients that `msg_handler` closes: those ready in this round. -/
def closing : Finset Int :=
  c.rdset.filter fun fd => 0 ≤ fd ∧ fd ≤ c.fdmax ∧ c.serverSocket ≠ fd ∧ fd ≠ msgFd

/-- `msg_handler` on a message, `MSG_CONFIG_START` with the port then in the register or
another; `listen` is what `modbus_tcp_pi_listen` returns. Its loop over the descriptors
uses the variable of the scan. -/
def msgHandler (config : Option UInt16) (listen : Int) : TcpServer :=
  match config with
  | none => c
  | some port =>
    if port = c.port then c
    else
      { c.listenOn msgFd listen with
        phase := .scanning (c.fdmax + 1)
        port := port
        clients := c.clients \ c.closing msgFd }

/-- `accept` on the listening socket. -/
def accept (newFd : Int) : TcpServer :=
  if newFd = -1 then c
  else
    { c with
      refset := insert newFd c.refset
      fdmax := if newFd > c.fdmax then newFd else c.fdmax
      clients := insert newFd c.clients }

/-- A client that is ready; `ok` is `modbus_receive` returning a request. -/
def serve (fd : Int) (ok : Bool) : TcpServer :=
  if ok then c
  else
    { c with
      refset := c.refset.erase fd
      fdmax := if fd = c.fdmax then c.fdmax - 1 else c.fdmax
      clients := c.clients.erase fd }

/-- The scan goes on behind the descriptor its variable holds. -/
def next : TcpServer :=
  match c.phase with
  | .between => c
  | .scanning fd => { c with phase := .scanning (fd + 1) }

end TcpServer

/-! ### Runs -/

inductive ServerEvent where
  | select (ready : Finset Int)
  | skip
  | accept (newFd : Int)
  | message (config : Option UInt16) (listen : Int)
  | serve (ok : Bool)
  | finish

/-- A descriptor the kernel hands out: none of those the server has open. -/
def TcpServer.Unused (msgFd : Int) (c : TcpServer) (fd : Int) : Prop :=
  0 ≤ fd ∧ fd ≠ msgFd ∧ fd ∉ c.clients

/-- The server before its first round. -/
structure ServerStart (msgFd : Int) (c : TcpServer) : Prop where
  phase : c.phase = .between
  sets : c.refset = insert c.serverSocket (if msgFd > 0 then {msgFd} else ∅)
  fdmax : c.fdmax = if msgFd > 0 ∧ msgFd > c.serverSocket then msgFd else c.serverSocket
  clients : c.clients = ∅
  listening : c.serverSocket = -1 ∨ c.Unused msgFd c.serverSocket

/-- One step: `select` leaves some members of its set, and the scan passes over a
descriptor that is not among them, accepts, receives a message or serves a client. -/
inductive ServerStep (msgFd : Int) (c : TcpServer) : ServerEvent → TcpServer → Prop where
  | select {ready : Finset Int} (hphase : c.phase = .between) (hsub : ready ⊆ c.refset) :
      ServerStep msgFd c (.select ready) { c with phase := .scanning 0, rdset := ready }
  | skip {fd : Int} (hphase : c.phase = .scanning fd) (hfd : fd ≤ c.fdmax) (hno : fd ∉ c.rdset) :
      ServerStep msgFd c .skip c.next
  | accept {fd newFd : Int} (hphase : c.phase = .scanning fd) (hfd : fd ≤ c.fdmax)
      (hready : fd ∈ c.rdset) (hserver : fd = c.serverSocket)
      (hnew : newFd = -1 ∨ c.Unused msgFd newFd ∧ newFd ≠ c.serverSocket) :
      ServerStep msgFd c (.accept newFd) (c.accept newFd).next
  | message {fd listen : Int} {config : Option UInt16} (hphase : c.phase = .scanning fd)
      (hfd : fd ≤ c.fdmax) (hready : fd ∈ c.rdset) (hserver : fd ≠ c.serverSocket)
      (hmsg : fd = msgFd)
      (hnew : listen = -1 ∨
        TcpServer.Unused msgFd { c with clients := c.clients \ c.closing msgFd } listen) :
      ServerStep msgFd c (.message config listen) (c.msgHandler msgFd config listen).next
  | serve {fd : Int} {ok : Bool} (hphase : c.phase = .scanning fd) (hfd : fd ≤ c.fdmax)
      (hready : fd ∈ c.rdset) (hserver : fd ≠ c.serverSocket) (hmsg : fd ≠ msgFd) :
      ServerStep msgFd c (.serve ok) (c.serve fd ok).next
  | finish {fd : Int} (hphase : c.phase = .scanning fd) (hfd : c.fdmax < fd) :
      ServerStep msgFd c .finish { c with phase := .between }

/-- The bookkeeping of descriptors: open are the clients, the message queue, and the
listening socket when there is one. -/
structure TcpServer.Bookkept (msgFd : Int) (c : TcpServer) : Prop where
  served : ∀ fd ∈ c.clients, fd ∈ c.refset
  opened : ∀ fd ∈ c.refset,
    fd ∈ c.clients ∨ fd = msgFd ∧ 0 < msgFd ∨ fd = c.serverSocket ∧ 0 ≤ c.serverSocket
  bounded : ∀ fd ∈ c.refset, fd ≤ c.fdmax

/-- A message that changes the port finds all clients ready, and the new port can be
listened on. -/
def ServerEvent.Clean (c : TcpServer) : ServerEvent → Prop
  | .message (some port) listen => port ≠ c.port → c.clients ⊆ c.rdset ∧ listen ≠ -1
  | _ => True

/-! ### The invariant -/

/-- What a clean run keeps: the server listens, and its set is that of the listening
socket, the message queue and the clients. -/
structure TcpServer.Sound (msgFd : Int) (c : TcpServer) : Prop where
  listening : 0 ≤ c.serverSocket
  clients : ∀ fd ∈ c.clients, 0 ≤ fd ∧ fd ≠ msgFd ∧ fd ≠ c.serverSocket
  members : ∀ fd, fd ∈ c.refset ↔
    fd = c.serverSocket ∨ fd = msgFd ∧ 0 < msgFd ∨ fd ∈ c.clients
  bounded : ∀ fd ∈ c.refset, fd ≤ c.fdmax

section Invariant

variable {msgFd : Int} {c : TcpServer}

theorem TcpServer.Sound.bookkept (h : c.Sound msgFd) : c.Bookkept msgFd := by
  refine ⟨fun fd hfd => (h.members fd).2 (.inr (.inr hfd)), fun fd hfd => ?_, h.bounded⟩
  rcases (h.members fd).1 hfd with rfl | hmsg | hclient
  · exact .inr (.inr ⟨rfl, h.listening⟩)
  · exact .inr (.inl hmsg)
  · exact .inl hclient

theorem TcpServer.Sound.next (h : c.Sound msgFd) : c.next.Sound msgFd := by
  unfold TcpServer.next
  split
  · exact h
  · exact ⟨h.listening, h.clients, h.members, h.bounded⟩

theorem TcpServer.Sound.accept {newFd : Int} (h : c.Sound msgFd)
    (hnew : newFd = -1 ∨ c.Unused msgFd newFd ∧ newFd ≠ c.serverSocket) :
    (c.accept newFd).Sound msgFd := by
  unfold TcpServer.accept
  split
  · exact h
  · rename_i hfail
    obtain ⟨⟨hpos, hmsg, -⟩, hserver⟩ := hnew.resolve_left hfail
    refine ⟨h.listening, fun fd hfd => ?_, fun fd => ?_, fun fd hfd => ?_⟩
    · rcases Finset.mem_insert.1 hfd with rfl | hfd
      · exact ⟨hpos, hmsg, hserver⟩
      · exact h.clients fd hfd
    · simp only [Finset.mem_insert, h.members]
      tauto
    · have hle : fd = newFd ∨ fd ≤ c.fdmax := (Finset.mem_insert.1 hfd).imp_right (h.bounded fd)
      dsimp only
      split <;> omega

theorem TcpServer.Sound.serve {fd : Int} {ok : Bool} (h : c.Sound msgFd)
    (hserver : fd ≠ c.serverSocket) (hmsg : fd ≠ msgFd) : (c.serve fd ok).Sound msgFd := by
  unfold TcpServer.serve
  split
  · exact h
  · refine ⟨h.listening, fun x hx => h.clients x (Finset.mem_of_mem_erase hx), fun x => ?_,
      fun x hx => ?_⟩
    · simp only [Finset.mem_erase, h.members]
      constructor
      · rintro ⟨hne, hx | hx | hx⟩
        · exact .inl hx
        · exact .inr (.inl hx)
        · exact .inr (.inr ⟨hne, hx⟩)
      · rintro (rfl | ⟨rfl, hpos⟩ | ⟨hne, hx⟩)
        · exact ⟨hserver.symm, .inl rfl⟩
        · exact ⟨hmsg.symm, .inr (.inl ⟨rfl, hpos⟩)⟩
        · exact ⟨hne, .inr (.inr hx)⟩
    · obtain ⟨hne, hx⟩ := Finset.mem_erase.1 hx
      have hle := h.bounded x hx
      dsimp only
      split <;> omega

/-- A new listening socket, and no clients. -/
theorem TcpServer.sound_listenOn {listen : Int} {phase : ServerPhase} {port : UInt16}
    (hpos : 0 ≤ listen) : TcpServer.Sound msgFd
      { c.listenOn msgFd listen with phase := phase, port := port, clients := ∅ } := by
  unfold TcpServer.listenOn
  dsimp only
  split
  · rename_i hmsg
    refine ⟨hpos, by simp, fun fd => ?_, fun fd hfd => ?_⟩
    · simp [hmsg, or_comm]
    · have hfd : fd = msgFd ∨ fd = listen := by simpa using hfd
      dsimp only
      split <;> omega
  · rename_i hmsg
    exact ⟨hpos, by simp, fun fd => by simp [hmsg], fun fd hfd => by simp_all⟩

/-- Clients that are ready are all closed. -/
theorem TcpServer.Sound.closing_all (h : c.Sound msgFd) (hready : c.clients ⊆ c.rdset) :
    c.clients \ c.closing msgFd = ∅ := by
  rw [Finset.sdiff_eq_empty_iff_subset]
  intro fd hfd
  obtain ⟨hpos, hmsg, hserver⟩ := h.clients fd hfd
  have hle := h.bounded fd ((h.members fd).2 (.inr (.inr hfd)))
  exact Finset.mem_filter.2 ⟨hready hfd, hpos, hle, hserver.symm, hmsg⟩

theorem TcpServer.Sound.msgHandler {config : Option UInt16} {listen : Int} (h : c.Sound msgFd)
    (hnew : listen = -1 ∨
      TcpServer.Unused msgFd { c with clients := c.clients \ c.closing msgFd } listen)
    (hclean : (ServerEvent.message config listen).Clean c) :
    (c.msgHandler msgFd config listen).Sound msgFd := by
  unfold TcpServer.msgHandler
  cases config with
  | none => exact h
  | some port =>
      dsimp only
      split
      · exact h
      · rename_i hport
        obtain ⟨hready, hlisten⟩ := hclean hport
        have hnone := h.closing_all hready
        rw [hnone]
        exact TcpServer.sound_listenOn (hnew.resolve_left hlisten).1

theorem ServerStep.sound {c' : TcpServer} {e : ServerEvent} (h : ServerStep msgFd c e c')
    (hclean : e.Clean c) (hc : c.Sound msgFd) : c'.Sound msgFd := by
  cases h with
  | select hphase hsub => exact ⟨hc.listening, hc.clients, hc.members, hc.bounded⟩
  | skip hphase hfd hno => exact hc.next
  | accept hphase hfd hready hserver hnew => exact (hc.accept hnew).next
  | message hphase hfd hready hserver hmsg hnew => exact (hc.msgHandler hnew hclean).next
  | serve hphase hfd hready hserver hmsg => exact (hc.serve hserver hmsg).next
  | finish hphase hfd => exact ⟨hc.listening, hc.clients, hc.members, hc.bounded⟩

theorem ServerStart.sound (h : ServerStart msgFd c) (hlisten : c.serverSocket ≠ -1) :
    c.Sound msgFd := by
  obtain ⟨hpos, -, -⟩ := h.listening.resolve_left hlisten
  refine ⟨hpos, by simp [h.clients], fun fd => ?_, fun fd hfd => ?_⟩
  · rw [h.sets, h.clients]
    by_cases hmsg : msgFd > 0 <;> simp [hmsg]
  · rw [h.sets] at hfd
    have hfd : fd = c.serverSocket ∨ msgFd > 0 ∧ fd = msgFd := by
      by_cases hmsg : msgFd > 0 <;> simpa [hmsg] using hfd
    rw [h.fdmax]
    split <;> omega

/-- **A client left open in no set**: the port changes while a client is not ready. -/
theorem not_bookkept_of_left {port : UInt16} {listen fd : Int} (h : c.Sound msgFd)
    (hport : port ≠ c.port) (hfd : fd ∈ c.clients) (hready : fd ∉ c.rdset)
    (hnew : TcpServer.Unused msgFd { c with clients := c.clients \ c.closing msgFd } listen) :
    ¬ (c.msgHandler msgFd (some port) listen).Bookkept msgFd := by
  have hleft : fd ∈ c.clients \ c.closing msgFd :=
    Finset.mem_sdiff.2 ⟨hfd, fun hclosed => hready (Finset.mem_filter.1 hclosed).1⟩
  have hne : fd ≠ listen := by
    rintro rfl
    exact hnew.2.2 hleft
  have hmsg := (h.clients fd hfd).2.1
  intro hbook
  have hserved : fd ∈ (c.msgHandler msgFd (some port) listen).refset := by
    refine hbook.served fd ?_
    simpa [TcpServer.msgHandler, hport] using Finset.mem_sdiff.1 hleft
  by_cases hpos : msgFd > 0
  · simp [TcpServer.msgHandler, TcpServer.listenOn, hport, hpos, hne, hmsg] at hserved
  · simp [TcpServer.msgHandler, TcpServer.listenOn, hport, hpos, hne] at hserved

end Invariant

/-- **The server's bookkeeping** is right in every state of a clean run. -/
theorem server_bookkept (msgFd : Int) (c : TcpServer)
    (h : Reach (fun c => ServerStart msgFd c ∧ c.serverSocket ≠ -1)
      (guarded (fun c e => e.Clean c) (ServerStep msgFd)) c) :
    c.Bookkept msgFd := by
  have hsound : c.Sound msgFd :=
    h.invariant (fun _ hc => hc.1.sound hc.2) fun _ _ _ hc hstep => hstep.2.sound hstep.1 hc
  exact hsound.bookkept

/-! ### Two rounds -/

/-- A scan passes over descriptors that are not ready. -/
theorem skips {msgFd : Int} {c : TcpServer} {fd : Int} (hphase : c.phase = .scanning fd) :
    ∀ n : Nat, (∀ k < n, fd + (k : Int) ≤ c.fdmax ∧ fd + (k : Int) ∉ c.rdset) →
      Steps (guarded (fun c e => e.Clean c) (ServerStep msgFd)) c
        { c with phase := .scanning (fd + n) } := by
  intro n
  induction n with
  | zero =>
      intro _
      rw [Int.natCast_zero, Int.add_zero, ← hphase]
      exact .refl
  | succ n ih =>
      intro hskip
      obtain ⟨hle, hno⟩ := hskip n (Nat.lt_succ_self n)
      have hturn : ServerStep msgFd { c with phase := .scanning (fd + n) } .skip
          { c with phase := .scanning (fd + n + 1) } := .skip rfl hle hno
      have hfd : fd + ((n + 1 : Nat) : Int) = fd + n + 1 := by omega
      rw [hfd]
      exact (ih fun k hk => hskip k (Nat.lt_succ_of_lt hk)).trans
        (.one (a := .skip) ⟨trivial, hturn⟩)

/-- A server with message queue 3 that listens on 4, and one with client 5. -/
def newServer : TcpServer := ⟨.between, 10086, 4, {4, 3}, ∅, 4, ∅⟩

def servingServer : TcpServer := ⟨.between, 10086, 4, {5, 4, 3}, {4}, 5, {5}⟩

theorem newServer_start : ServerStart 3 newServer where
  phase := rfl
  sets := rfl
  fdmax := rfl
  clients := rfl
  listening := .inr ⟨by decide, by decide, by decide⟩

/-- The first round accepts the client. -/
theorem newServer_accepts :
    Steps (guarded (fun c e => e.Clean c) (ServerStep 3)) newServer servingServer := by
  have hselect : ServerStep 3 newServer (.select {4})
      { newServer with phase := .scanning 0, rdset := {4} } := .select rfl (by decide)
  have haccept : ServerStep 3 { newServer with phase := .scanning 4, rdset := {4} } (.accept 5)
      { servingServer with phase := .scanning 5 } :=
    .accept rfl (by decide) (by decide) rfl (.inr ⟨⟨by decide, by decide, by decide⟩, by decide⟩)
  have hfinish : ServerStep 3 { servingServer with phase := .scanning 6 } .finish servingServer :=
    .finish rfl (by decide)
  refine Steps.trans (.one (a := .select {4}) ⟨trivial, hselect⟩) ?_
  refine Steps.trans (skips rfl 4 (by decide)) ?_
  refine Steps.trans (.one (a := .accept 5) ⟨trivial, haccept⟩) ?_
  exact Steps.trans (skips rfl 1 (by decide)) (.one (a := .finish) ⟨trivial, hfinish⟩)

theorem servingServer_bookkept : servingServer.Bookkept 3 :=
  server_bookkept 3 servingServer (Reach.steps (.start ⟨newServer_start, by decide⟩)
    newServer_accepts)

/-- In the second round the port changes while the client is silent. -/
theorem not_server_bookkept : ¬ ∀ (msgFd : Int) (c : TcpServer),
    Reach (fun c => ServerStart msgFd c ∧ c.serverSocket ≠ -1) (ServerStep msgFd) c →
    c.phase = .between → c.Bookkept msgFd := by
  intro h
  have hserving : Reach (fun c => ServerStart 3 c ∧ c.serverSocket ≠ -1) (ServerStep 3)
      servingServer :=
    (Reach.steps (.start ⟨newServer_start, by decide⟩) newServer_accepts).of_guarded
  have hselect : ServerStep 3 servingServer (.select {3})
      { servingServer with phase := .scanning 0, rdset := {3} } := .select rfl (by decide)
  have hscan : Steps (guarded (fun c e => e.Clean c) (ServerStep 3))
      { servingServer with phase := .scanning 0, rdset := {3} }
      { servingServer with phase := .scanning 3, rdset := {3} } :=
    skips (c := { servingServer with phase := .scanning 0, rdset := {3} }) rfl 3 (by decide)
  have hmessage : ServerStep 3 { servingServer with phase := .scanning 3, rdset := {3} }
      (.message (some 502) 4)
      ⟨.scanning 7, 502, 4, {3, 4}, {3}, 4, {5}⟩ :=
    .message rfl (by decide) (by decide) (by decide) rfl
      (.inr ⟨by decide, by decide, by decide⟩)
  have hfinish : ServerStep 3 ⟨.scanning 7, 502, 4, {3, 4}, {3}, 4, {5}⟩ .finish
      ⟨.between, 502, 4, {3, 4}, {3}, 4, {5}⟩ := .finish rfl (by decide)
  have hround := (((hserving.step hselect).steps hscan.of_guarded).step hmessage).step hfinish
  have hleft := (h 3 _ hround rfl).served 5 (by decide)
  exact absurd hleft (by decide)

end RtuA118
