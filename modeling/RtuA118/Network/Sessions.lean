import RtuA118.Lib.Framing
import RtuA118.Lib.Run
import RtuA118.Modbus.Decodable
import RtuA118.Modbus.LineErrors

/-!
# RtuA118.Network.Sessions

The **clients of the TCP server**.

The server serves whichever connection is ready, one request at a time, from one buffer, over one
unit; the clients do not wait for it, and their bytes come in whatever pieces. All the same each of
them has a session of its own (`sessions_linear`): there is one order of all the requests in which
the unit has carried them out, each client's own requests are in it in the order in which it made
them, and what a client has got are the replies to these, one after the other, and nothing else.
-/

namespace RtuA118

open Run (Reach)
open View (AgreesOn)

/-! ### Requests in a stream -/

section Cut

variable {r : FrameRule} {s frame rest : List UInt8}

theorem cut_eq_some_iff : r.cut s = some (frame, rest) ↔
    r.headLength s ≤ s.length ∧ r.frameLength s ≤ r.maxAduLength ∧ r.frameLength s ≤ s.length ∧
      s.take (r.frameLength s) = frame ∧ s.drop (r.frameLength s) = rest := by
  unfold FrameRule.cut
  split_ifs with hhead hmax hlen
  · simp [Nat.not_le.2 hhead]
  · simp [Nat.not_le.2 hmax]
  · simp [Nat.not_le.2 hlen]
  · simp [Nat.not_lt.1 hhead, Nat.not_lt.1 hmax, Nat.not_lt.1 hlen]

/-- A frame is cut where it ends, whatever comes behind it. -/
theorem cut_settled (h : r.cut s = some (frame, rest)) (t : List UInt8) :
    r.cut (frame ++ t) = some (frame, t) := by
  obtain ⟨-, hmax, hlen, rfl, -⟩ := cut_eq_some_iff.1 h
  have hlength : (s.take (r.frameLength s)).length = r.frameLength s := List.length_take_of_le hlen
  have htake : (s.take (r.frameLength s) ++ t).take (r.frameLength s) = s.take (r.frameLength s) :=
    List.take_left' hlength
  have hdrop : (s.take (r.frameLength s) ++ t).drop (r.frameLength s) = t := List.drop_left' hlength
  have hle : r.headLength s ≤ r.frameLength s := Nat.le_add_right _ _
  have hhead : r.headLength (s.take (r.frameLength s)) ≤ r.frameLength s := by
    rw [r.headLength_take s hle]
    exact hle
  have hsize : r.frameLength (s.take (r.frameLength s) ++ t) = r.frameLength s := by
    have hpart := r.frameLength_take_of_head (s.take (r.frameLength s) ++ t) (htake.symm ▸ hhead)
    rw [htake, r.frameLength_take s (Nat.le_refl _)] at hpart
    exact hpart.symm
  have hle' : r.headLength (s.take (r.frameLength s) ++ t) ≤
      r.frameLength (s.take (r.frameLength s) ++ t) := Nat.le_add_right _ _
  rw [cut_eq_some_iff, hsize, List.length_append, hlength]
  exact ⟨by omega, hmax, by omega, htake, hdrop⟩

end Cut

theorem cut_ne_nil {s frame rest : List UInt8}
    (h : (msgRule .tcp .indication).cut s = some (frame, rest)) : frame ≠ [] := by
  obtain ⟨-, -, hlen, rfl, -⟩ := cut_eq_some_iff.1 h
  rw [frameLength_msgRule] at hlen ⊢
  intro hnil
  have hzero := congrArg List.length hnil
  rw [List.length_take, List.length_nil] at hzero
  omega

/-- The requests that `modbus_receive` takes off a connection. -/
def tcpRequests : Cutter UInt8 where
  cut := (msgRule .tcp .indication).cut
  whole h := by
    obtain ⟨-, -, -, rfl, rfl⟩ := cut_eq_some_iff.1 h
    exact (List.take_append_drop ..).symm
  nonempty := cut_ne_nil
  settled := cut_settled

theorem receiveLoop_tcpRequests {arrive : Nat → Nat} {stream : List UInt8} :
    receiveLoop (msgRule .tcp .indication) arrive ⟨.stepFunction, [], 8⟩ stream =
      tcpRequests.cut stream :=
  receiveLoop_eq_cut (Nat.succ_pos _) (show Step.stepFunction ≠ Step.stepData by decide)

theorem receiveMsg_tcpRequests {arrive : Nat → Nat} {stream frame : List UInt8} :
    receiveMsg .tcp .indication arrive stream = some frame ↔
      ∃ rest, tcpRequests.cut stream = some (frame, rest) := by
  have hcut : (msgRule .tcp .indication).cut stream = tcpRequests.cut stream := rfl
  rw [receiveMsg_eq, hcut]
  cases tcpRequests.cut stream with
  | none => simp
  | some p => simp [Backend.checkIntegrity, Prod.ext_iff]

/-- The server accepts whole requests. -/
theorem accepts_tcp_iff {frame : List UInt8} :
    FrontEnd.tcp.Accepts frame ↔ tcpRequests.Complete frame := by
  constructor
  · rintro ⟨arrive, stream, h⟩
    obtain ⟨rest, hcut⟩ := receiveMsg_tcpRequests.1 h
    exact Cutter.complete_of_cut hcut
  · intro h
    exact ⟨fun _ => 1, frame, receiveMsg_tcpRequests.2 ⟨[], h⟩⟩

/-! ### The server and its connections -/

/-- A connection: what its client has still to send, what the server has not read yet, and what the
server has sent back. -/
structure Connection where
  unsent : List UInt8
  inbox : List UInt8
  outbox : List UInt8
  isOpen : Bool

namespace Connection

/-- `n` more bytes reach the server. -/
def receive (n : Nat) (conn : Connection) : Connection :=
  { conn with unsent := conn.unsent.drop n, inbox := conn.inbox ++ conn.unsent.take n }

/-- The server has read up to `rest` and sends back `reply`. -/
def answer (rest reply : List UInt8) (conn : Connection) : Connection :=
  { conn with inbox := rest, outbox := conn.outbox ++ reply }

def close (conn : Connection) : Connection := { conn with isOpen := false }

end Connection

structure TcpSessions (ι : Type) where
  rtu : Rtu
  conn : ι → Connection

variable {ι : Type}

namespace TcpSessions

/-- One connection changes. -/
def set [DecidableEq ι] (s : TcpSessions ι) (c : ι) (conn : Connection) : TcpSessions ι :=
  { s with conn := Function.update s.conn c conn }

/-- Nothing has been sent of what each client will send. -/
def start (rtu : Rtu) (stream : ι → List UInt8) : TcpSessions ι :=
  ⟨rtu, fun c => ⟨stream c, [], [], true⟩⟩

end TcpSessions

inductive SessionEvent (ι : Type) where
  | send (c : ι) (n : Nat)
  | serve (c : ι)
  | close (c : ι)
  | other

/-- `n` bytes reach the server; the server serves a connection, with what the buffer `query` of the
thread happens to hold behind the request; a connection ends, whoever ends it; or something else
happens to the unit. -/
inductive SessionStep [DecidableEq ι] (env : Platform) (other : Rtu → Rtu → Prop)
    (s : TcpSessions ι) : SessionEvent ι → TcpSessions ι → Prop
  | send {c : ι} (n : Nat) (hopen : (s.conn c).isOpen = true) :
      SessionStep env other s (.send c n)
        (s.set c ((s.conn c).receive n))
  | serve {c : ι} {arrive : Nat → Nat} {frame rest : List UInt8} {query : Nat → UInt8}
      {reply : Option (List UInt8)} {u : Rtu} (hopen : (s.conn c).isOpen = true)
      (hrecv : receiveLoop (msgRule .tcp .indication) arrive ⟨.stepFunction, [], 8⟩
        (s.conn c).inbox = some (frame, rest))
      (hquery : AgreesOn frame query)
      (hreply : modbusReply env .tcp query frame.length s.rtu = (reply, u)) :
      SessionStep env other s (.serve c)
        { s.set c ((s.conn c).answer rest (reply.getD [])) with rtu := u }
  | close {c : ι} (hopen : (s.conn c).isOpen = true) :
      SessionStep env other s (.close c) (s.set c (s.conn c).close)
  | other {u : Rtu} (h : other s.rtu u) : SessionStep env other s .other { s with rtu := u }

/-! ### One request after the other -/

/-- A request carried out: whose it was, and what was sent back. -/
structure ServedRequest (ι : Type) where
  client : ι
  frame : List UInt8
  reply : List UInt8

/-- What the unit makes of whole requests, each at once, in this order. -/
inductive History (env : Platform) (other : Rtu → Rtu → Prop) (u₀ : Rtu) :
    List (ServedRequest ι) → Rtu → Prop
  | start : History env other u₀ [] u₀
  | serve {calls : List (ServedRequest ι)} {u u' : Rtu} (c : ι) {frame : List UInt8}
      {query : Nat → UInt8} {reply : Option (List UInt8)} (h : History env other u₀ calls u)
      (hquery : AgreesOn frame query)
      (hreply : modbusReply env .tcp query frame.length u = (reply, u')) :
      History env other u₀ (calls ++ [⟨c, frame, reply.getD []⟩]) u'
  | other {calls : List (ServedRequest ι)} {u u' : Rtu} (h : History env other u₀ calls u)
      (hother : other u u') : History env other u₀ calls u'

/-- A connection is where its client's bytes have brought it: the requests that were cut off them
are answered, and the rest is on its way. -/
structure Session (stream : List UInt8) (calls : List (ServedRequest ι)) (conn : Connection) :
    Prop where
  answered : conn.outbox = calls.flatMap (·.reply)
  taken : (calls.map (·.frame)).flatten ++ (conn.inbox ++ conn.unsent) = stream
  complete : ∀ call ∈ calls, tcpRequests.Complete call.frame

section Session

variable {stream : List UInt8} {calls : List (ServedRequest ι)} {conn : Connection}

theorem Session.receive (h : Session stream calls conn) (n : Nat) :
    Session stream calls (conn.receive n) := by
  refine ⟨h.answered, ?_, h.complete⟩
  rw [Connection.receive, List.append_assoc, List.take_append_drop, h.taken]

theorem Session.close (h : Session stream calls conn) : Session stream calls conn.close :=
  ⟨h.answered, h.taken, h.complete⟩

theorem Session.answer (h : Session stream calls conn) {frame rest : List UInt8}
    (hcut : tcpRequests.cut conn.inbox = some (frame, rest)) (c : ι) (reply : List UInt8) :
    Session stream (calls ++ [⟨c, frame, reply⟩]) (conn.answer rest reply) := by
  refine ⟨by simp [Connection.answer, h.answered], ?_, fun call hcall => ?_⟩
  · rw [← h.taken, tcpRequests.whole hcut]
    simp [Connection.answer]
  · rcases List.mem_append.1 hcall with hcall | hcall
    · exact h.complete call hcall
    · obtain rfl := List.mem_singleton.1 hcall
      exact Cutter.complete_of_cut hcut

/-- A client that sends requests only has the first of them answered, and all of them when nothing
is on its way. -/
theorem Session.requests (h : Session stream calls conn) {fs : List (List UInt8)}
    (hfs : ∀ f ∈ fs, tcpRequests.Complete f) (hstream : stream = fs.flatten) :
    calls.map (·.frame) <+: fs ∧
      (conn.inbox = [] → conn.unsent = [] → calls.map (·.frame) = fs) := by
  have hcalls : ∀ f ∈ calls.map (·.frame), tcpRequests.Complete f := by
    intro f hf
    obtain ⟨call, hcall, rfl⟩ := List.mem_map.1 hf
    exact h.complete call hcall
  obtain ⟨left, hleft, hrest⟩ := Cutter.prefix_code hcalls hfs (h.taken.trans hstream)
  refine ⟨⟨left, hleft⟩, fun hinbox hunsent => ?_⟩
  rw [hinbox, hunsent, List.append_nil, eq_comm, List.flatten_eq_nil_iff] at hrest
  cases left with
  | nil => rw [← hleft, List.append_nil]
  | cons f left =>
      -- no request is empty
      have hf : tcpRequests.Complete f := hfs f (hleft ▸ List.mem_append_right _ List.mem_cons_self)
      exact absurd (hrest f List.mem_cons_self) hf.ne_nil

end Session

/-! ### The clients -/

variable [DecidableEq ι]

/-- The requests of one client. -/
def callsOf (c : ι) (calls : List (ServedRequest ι)) : List (ServedRequest ι) :=
  calls.filter (·.client = c)

theorem callsOf_append_self (c : ι) (calls : List (ServedRequest ι)) (frame reply : List UInt8) :
    callsOf c (calls ++ [⟨c, frame, reply⟩]) = callsOf c calls ++ [⟨c, frame, reply⟩] := by
  simp [callsOf]

theorem callsOf_append_other {c d : ι} (h : d ≠ c) (calls : List (ServedRequest ι))
    (frame reply : List UInt8) : callsOf c (calls ++ [⟨d, frame, reply⟩]) = callsOf c calls := by
  simp [callsOf, h]

/-- Every connection has its session, in one history of the unit. -/
def Linear (env : Platform) (other : Rtu → Rtu → Prop) (u₀ : Rtu) (stream : ι → List UInt8)
    (s : TcpSessions ι) : Prop :=
  ∃ calls, History env other u₀ calls s.rtu ∧ ∀ c, Session (stream c) (callsOf c calls) (s.conn c)

section Linear

variable {env : Platform} {other : Rtu → Rtu → Prop} {u₀ : Rtu} {stream : ι → List UInt8}
  {s s' : TcpSessions ι} {e : SessionEvent ι}

theorem linear_start : Linear env other u₀ stream (TcpSessions.start u₀ stream) :=
  ⟨[], .start, fun _ => ⟨rfl, rfl, fun _ hcall => nomatch hcall⟩⟩

/-- Sessions go on where one connection changes. -/
theorem sessions_set {calls : List (ServedRequest ι)} {conn : Connection} {d : ι}
    (h : ∀ c, Session (stream c) (callsOf c calls) (s.conn c))
    (hd : Session (stream d) (callsOf d calls) conn) (c : ι) :
    Session (stream c) (callsOf c calls) ((s.set d conn).conn c) := by
  by_cases hc : c = d
  · subst hc
    simpa only [TcpSessions.set, Function.update_self] using hd
  · simpa only [TcpSessions.set, Function.update_of_ne hc] using h c

theorem Linear.step (h : Linear env other u₀ stream s) (hstep : SessionStep env other s e s') :
    Linear env other u₀ stream s' := by
  obtain ⟨calls, hhist, hsess⟩ := h
  cases hstep with
  | send n hopen => exact ⟨calls, hhist, sessions_set hsess ((hsess _).receive n)⟩
  | close hopen => exact ⟨calls, hhist, sessions_set hsess (hsess _).close⟩
  | other hother => exact ⟨calls, hhist.other hother, hsess⟩
  | @serve d arrive frame rest query reply u hopen hrecv hquery hreply =>
      rw [receiveLoop_tcpRequests] at hrecv
      refine ⟨_, hhist.serve d hquery hreply, fun c => ?_⟩
      by_cases hc : d = c
      · subst hc
        rw [callsOf_append_self]
        have hserve := (hsess d).answer hrecv d (reply.getD [])
        simpa only [TcpSessions.set, Function.update_self] using hserve
      · rw [callsOf_append_other hc]
        simpa only [TcpSessions.set, Function.update_of_ne (Ne.symm hc)] using hsess c

/-- **Every client has a session of its own**, however its bytes come and whatever the others
send. -/
theorem sessions_linear
    (h : Reach (· = TcpSessions.start u₀ stream) (SessionStep env other) s) :
    ∃ calls, History env other u₀ calls s.rtu ∧ ∀ c,
      (s.conn c).outbox = (callsOf c calls).flatMap (·.reply) ∧
      ((callsOf c calls).map (·.frame)).flatten ++ ((s.conn c).inbox ++ (s.conn c).unsent) =
        stream c ∧
      ∀ fs : List (List UInt8), (∀ f ∈ fs, FrontEnd.tcp.Accepts f) → stream c = fs.flatten →
        (callsOf c calls).map (·.frame) <+: fs ∧
          ((s.conn c).inbox = [] → (s.conn c).unsent = [] →
            (callsOf c calls).map (·.frame) = fs) := by
  have hlinear : Linear env other u₀ stream s :=
    h.invariant (fun s hs => hs ▸ linear_start) fun _ _ _ hs hstep => hs.step hstep
  obtain ⟨calls, hhist, hsess⟩ := hlinear
  refine ⟨calls, hhist, fun c => ⟨(hsess c).answered, (hsess c).taken, fun fs hfs hstream => ?_⟩⟩
  exact (hsess c).requests (fun f hf => accepts_tcp_iff.1 (hfs f hf)) hstream

end Linear

/-! ### Two clients -/

/-- Two clients that read the same registers. -/
def twoClients : TcpSessions Bool := .start unmappedUnit fun _ => longRead

theorem longRead_received : receiveLoop (msgRule .tcp .indication) (fun _ => 1)
    ⟨.stepFunction, [], 8⟩ longRead = some (longRead, []) := by
  rw [receiveLoop_tcpRequests]
  decide

theorem longRead_replied : modbusReply (.bare fun _ => none) .tcp (View.extend longRead zeros)
    longRead.length unmappedUnit = (some longReply, unmappedUnit) := by
  rw [modbusReply_read (by decide) (by decide)]
  rfl

/-- One of them is served while the other has sent five bytes of its request. -/
theorem sessions_linear_twoClients : ∃ calls : List (ServedRequest Bool),
    History (.bare fun _ => none) (fun _ _ => False) unmappedUnit calls unmappedUnit ∧
      ∀ c, (callsOf c calls).map (·.frame) = [longRead] := by
  have hquery : AgreesOn longRead (View.extend longRead zeros) := View.agreesOn_extend _ _
  have h₀ : Reach (· = TcpSessions.start unmappedUnit fun _ : Bool => longRead)
      (SessionStep (.bare fun _ => none) fun _ _ => False) twoClients := .start rfl
  have h₁ := h₀.step (.send (c := true) 5 rfl)
  have h₂ := h₁.step (.send (c := false) 12 rfl)
  have h₃ := h₂.step (.serve (c := false) rfl longRead_received hquery longRead_replied)
  have h₄ := h₃.step (.send (c := true) 7 rfl)
  have h₅ := h₄.step (.serve (c := true) rfl longRead_received hquery longRead_replied)
  obtain ⟨calls, hhist, hcalls⟩ := sessions_linear h₅
  refine ⟨calls, hhist, fun c => ?_⟩
  obtain ⟨-, -, hframes⟩ := hcalls c
  have hlong : ∀ f ∈ [longRead], FrontEnd.tcp.Accepts f := by
    simpa using longRead_accepted
  refine (hframes [longRead] hlong (by simp)).2 ?_ ?_
  · cases c <;> rfl
  · cases c <;> rfl

end RtuA118
