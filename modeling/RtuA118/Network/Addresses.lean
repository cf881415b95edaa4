import Mathlib.Data.List.Forall2
import RtuA118.Lib.Numeral
import RtuA118.Map.Access

/-!
# RtuA118.Network.Addresses

The **addresses** that the network threads give to the resolver.

The TCP client has two servers, one of each address family, the UDP server five; and both
servers have a port of their own. All of it is printed from registers. `parseNode` and
`parsePort` say what such a text means, and `netStrings_faithful_iff` that it means the
registers just when no port is printed with a sign: `%hd` takes its word for a `short`.
-/

namespace RtuA118

open Numeral

/-! ### What the threads print -/

/-- `MAP_ADDR_UDP_PORT` to `MAP_ADDR_UDP_REMOTE_IPV6_ADDR`. -/
def mapAddrUdpPort : Nat := 57
def mapAddrTcpPort : Nat := 58
def mapAddrRemoteIpv4Addr : Nat := 59
def mapAddrRemoteIpv6Addr : Nat := 85
def mapAddrUdpRemoteIpv4Addr : Nat := 108
def mapAddrUdpRemoteIpv6Addr : Nat := 153

def maxRemoteUdp4ServerNum : Nat := 3
def maxRemoteUdp6ServerNum : Nat := 2

/-- A node and a service for `getaddrinfo`. -/
structure Endpoint where
  node : List Char
  service : List Char
  deriving DecidableEq, Repr

/-- `"::ffff:%hd.%hd.%hd.%hd"`, and `"%hd"` of the word behind. -/
def ipv4Endpoint (info : Nat → UInt16) : Endpoint where
  node := "::ffff:".toList ++ ['.'].intercalate ((List.range 4).map fun k => printHd 0 (info k))
  service := printHd 0 (info 4)

/-- `"%hx:%hx:%hx:%hx:%hx:%hx:%hx:%hx"`, the client's with its interface, and `"%hd"`. -/
def ipv6Endpoint (scope : List Char) (info : Nat → UInt16) : Endpoint where
  node := [':'].intercalate ((List.range 8).map fun k => printHx (info k)) ++ scope
  service := printHd 0 (info 8)

/-- The buffer after `zigbee_read_registers(buf, len, 1, addr)`. -/
def readInto (env : Platform) (s : Rtu) (buf : Nat → UInt16) (len addr : Nat) (k : Nat) : UInt16 :=
  match zigbeeReadRegisters env s buf len 1 addr with
  | some words => words.getD k (buf k)
  | none => buf k

/-- What goes to the resolver: the client's servers, the two ports that are listened on, and the
servers that the heartbeat is sent to. -/
structure NetStrings where
  client : List Endpoint
  tcpServer : Endpoint
  udpServer : Endpoint
  remotes : List Endpoint

/-- The three threads, `node` being the configured one. Each prints the same way when it starts
and on `MSG_CONFIG_START`. -/
def netStrings (env : Platform) (s : Rtu) (node : List Char) (buf : Nat → UInt16) : NetStrings :=
  let addrInfo := readInto env s buf (5 * maxRemoteUdp4ServerNum) mapAddrUdpRemoteIpv4Addr
  let addr6Info := readInto env s buf (9 * maxRemoteUdp6ServerNum) mapAddrUdpRemoteIpv6Addr
  { client :=
      [ipv4Endpoint (readInto env s buf 5 mapAddrRemoteIpv4Addr),
        ipv6Endpoint "%eth1".toList (readInto env s buf 9 mapAddrRemoteIpv6Addr)]
    tcpServer := ⟨node, printHd 0 (readInto env s buf 1 mapAddrTcpPort 0)⟩
    udpServer := ⟨node, printHd 0 (readInto env s buf 1 mapAddrUdpPort 0)⟩
    remotes :=
      ((List.range maxRemoteUdp4ServerNum).map fun a0 =>
        ipv4Endpoint fun k => addrInfo (k + a0 * 5)) ++
      (List.range maxRemoteUdp6ServerNum).map fun a0 =>
        ipv6Endpoint [] fun k => addr6Info (k + a0 * 9) }

/-! ### What such a text means -/

/-- An address: four octets, or eight groups. -/
inductive Address where
  | ipv4 (octets : List Nat)
  | ipv6 (groups : List Nat)
  deriving DecidableEq, Repr

/-- An unsigned decimal of 16 bits. -/
def parsePort (cs : List Char) : Option Nat :=
  (readNumeral (digitVal 10) 10 cs).filter (· < 65536)

/-- The field of a dotted quad, and of an IPv6 address. -/
def parseOctet (cs : List Char) : Option Nat :=
  (readNumeral (digitVal 10) 10 cs).filter (· < 256)

def parseGroup (cs : List Char) : Option Nat :=
  (readNumeral (digitVal 16) 16 cs).filter (· < 65536)

/-- A dotted quad behind the prefix that maps it, or groups, with an interface or without. -/
def parseNode (cs : List Char) : Option Address :=
  if "::ffff:".toList <+: cs then
    ((readFields '.' parseOctet (cs.drop 7)).filter (·.length = 4)).map .ipv4
  else
    ((readFields ':' parseGroup (cs.takeWhile (· ≠ '%'))).filter (·.length = 8)).map .ipv6

/-- The endpoint is this address and this port. -/
structure Endpoint.Says (e : Endpoint) (peer : Address × Nat) : Prop where
  node : parseNode e.node = some peer.1
  service : parsePort e.service = some peer.2

/-- A server as five registers have it, or nine. -/
def ipv4Peer (reg : Nat → UInt16) (addr : Nat) : Address × Nat :=
  (.ipv4 ((List.range 4).map fun k => (reg (addr + k)).toNat), (reg (addr + 4)).toNat)

def ipv6Peer (reg : Nat → UInt16) (addr : Nat) : Address × Nat :=
  (.ipv6 ((List.range 8).map fun k => (reg (addr + k)).toNat), (reg (addr + 8)).toNat)

/-- Everything that is printed says what the registers say. -/
structure NetStrings.Faithful (reg : Nat → UInt16) (n : NetStrings) : Prop where
  client : List.Forall₂ Endpoint.Says n.client
    [ipv4Peer reg mapAddrRemoteIpv4Addr, ipv6Peer reg mapAddrRemoteIpv6Addr]
  tcpServer : parsePort n.tcpServer.service = some (reg mapAddrTcpPort).toNat
  udpServer : parsePort n.udpServer.service = some (reg mapAddrUdpPort).toNat
  remotes : List.Forall₂ Endpoint.Says n.remotes
    (((List.range maxRemoteUdp4ServerNum).map fun a0 =>
      ipv4Peer reg (mapAddrUdpRemoteIpv4Addr + a0 * 5)) ++
    (List.range maxRemoteUdp6ServerNum).map fun a0 =>
      ipv6Peer reg (mapAddrUdpRemoteIpv6Addr + a0 * 9))

/-! ### Printed and read back -/

theorem digits_decimal : Digits (digitVal 10) 10 := by decide

theorem digits_hexadecimal : Digits (digitVal 16) 16 := by decide

section Fields

variable {v : UInt16}

theorem printHd_of_lt (h : v.toNat < 32768) : printHd 0 v = Nat.toDigits 10 v.toNat := by
  rw [printHd, if_pos h]
  simp [List.leftpad]

/-- **A port reads back** unless it is printed with a sign. -/
theorem parsePort_printHd_iff : parsePort (printHd 0 v) = some v.toNat ↔ v.toNat < 32768 := by
  constructor
  · intro h
    by_contra hneg
    rw [printHd, if_neg hneg, parsePort, readNumeral_cons_of_none _ rfl] at h
    cases h
  · intro h
    rw [printHd_of_lt h, parsePort, readNumeral_toDigits digits_decimal (by decide)]
    simp [Option.filter]
    omega

theorem parseOctet_printHd (h : v.toNat ≤ 255) : parseOctet (printHd 0 v) = some v.toNat := by
  rw [printHd_of_lt (by omega), parseOctet, readNumeral_toDigits digits_decimal (by decide)]
  simp [Option.filter]
  omega

theorem parseGroup_printHx : parseGroup (printHx v) = some v.toNat := by
  have hlt := v.toNat_lt
  rw [printHx, parseGroup, readNumeral_toDigits digits_hexadecimal (by decide)]
  simp [Option.filter]
  omega

/-- No digit separates fields. -/
theorem not_mem_toDigits {base n : Nat} (hb : 1 < base) {c : Char}
    (hc : ∀ d < base, c ≠ Nat.digitChar d) : c ∉ Nat.toDigits base n := by
  intro h
  obtain ⟨d, hd, rfl⟩ := digit_of_mem_toDigits hb h
  exact hc d hd rfl

theorem dot_not_mem_printHd (h : v.toNat ≤ 255) : '.' ∉ printHd 0 v := by
  rw [printHd_of_lt (by omega)]
  exact not_mem_toDigits (by decide) (by decide)

theorem not_mem_printHx {c : Char} (hc : ∀ d < 16, c ≠ Nat.digitChar d) : c ∉ printHx v :=
  not_mem_toDigits (by decide) hc

end Fields

/-! ### Endpoints -/

section Endpoints

variable {info reg : Nat → UInt16} {addr : Nat}

theorem parseNode_ipv4Endpoint (hinfo : ∀ k < 5, info k = reg (addr + k))
    (hoctet : ∀ k < 4, (reg (addr + k)).toNat ≤ 255) :
    parseNode (ipv4Endpoint info).node =
      some (.ipv4 ((List.range 4).map fun k => (reg (addr + k)).toNat)) := by
  have hle : ∀ k ∈ List.range 4, (info k).toNat ≤ 255 := by
    intro k hk
    have hk4 := List.mem_range.1 hk
    rw [hinfo k (by omega)]
    exact hoctet k hk4
  have hsep : ∀ k ∈ List.range 4, '.' ∉ printHd 0 (info k) := fun k hk =>
    dot_not_mem_printHd (hle k hk)
  have hread : ∀ k ∈ List.range 4, parseOctet (printHd 0 (info k)) = some (info k).toNat :=
    fun k hk => parseOctet_printHd (hle k hk)
  have hfields := readFields_intercalate (by simp) hsep hread
  have hreg : ((List.range 4).map fun k => (info k).toNat) =
      (List.range 4).map fun k => (reg (addr + k)).toNat :=
    List.map_congr_left fun k hk => by
      have hk4 := List.mem_range.1 hk
      rw [hinfo k (by omega)]
  have hnode : (ipv4Endpoint info).node = "::ffff:".toList ++
      ['.'].intercalate ((List.range 4).map fun k => printHd 0 (info k)) := rfl
  have hdrop (text : List Char) : ("::ffff:".toList ++ text).drop 7 = text := rfl
  rw [parseNode, hnode, if_pos (List.prefix_append _ _), hdrop, hfields, hreg]
  simp [Option.filter]

/-- **An IPv4 server** reads back unless its port is printed with a sign. -/
theorem ipv4Endpoint_says_iff (hinfo : ∀ k < 5, info k = reg (addr + k))
    (hoctet : ∀ k < 4, (reg (addr + k)).toNat ≤ 255) :
    (ipv4Endpoint info).Says (ipv4Peer reg addr) ↔ (reg (addr + 4)).toNat < 32768 := by
  have hport : (ipv4Endpoint info).service = printHd 0 (reg (addr + 4)) := by
    rw [← hinfo 4 (by decide)]
    rfl
  constructor
  · intro h
    exact parsePort_printHd_iff.1 (hport ▸ h.service)
  · intro h
    exact ⟨parseNode_ipv4Endpoint hinfo hoctet, hport ▸ parsePort_printHd_iff.2 h⟩

/-- The text of a group starts with a digit, so that it is not taken for the prefix. -/
theorem not_prefix_printHx (v : UInt16) (text : List Char) :
    ¬ "::ffff:".toList <+: printHx v ++ text := by
  intro h
  obtain ⟨c, cs, hc⟩ := List.exists_cons_of_ne_nil (Nat.toDigits_ne_nil (b := 16) (n := v.toNat))
  have hcolon : ':' ∉ printHx v := not_mem_printHx (by decide)
  rw [printHx, hc] at hcolon
  rw [printHx, hc, List.cons_append] at h
  exact hcolon ((List.cons_prefix_cons.1 h).1 ▸ List.mem_cons_self)

theorem parseNode_ipv6Endpoint {scope : List Char} (hscope : scope.takeWhile (· ≠ '%') = [])
    (hinfo : ∀ k < 9, info k = reg (addr + k)) :
    parseNode (ipv6Endpoint scope info).node =
      some (.ipv6 ((List.range 8).map fun k => (reg (addr + k)).toNat)) := by
  have hsep : ∀ k ∈ List.range 8, ':' ∉ printHx (info k) := fun k _ => not_mem_printHx (by decide)
  have hread : ∀ k ∈ List.range 8, parseGroup (printHx (info k)) = some (info k).toNat :=
    fun k _ => parseGroup_printHx
  have hfields := readFields_intercalate (by simp) hsep hread
  have hreg : ((List.range 8).map fun k => (info k).toNat) =
      (List.range 8).map fun k => (reg (addr + k)).toNat :=
    List.map_congr_left fun k hk => by
      have hk8 := List.mem_range.1 hk
      rw [hinfo k (by omega)]
  have hnode : (ipv6Endpoint scope info).node =
      [':'].intercalate ((List.range 8).map fun k => printHx (info k)) ++ scope := rfl
  have hhead : ∃ text, [':'].intercalate ((List.range 8).map fun k => printHx (info k)) =
      printHx (info 0) ++ text := ⟨_, rfl⟩
  -- no group holds the `%` that a scope begins with
  have hpercent : ∀ c ∈ [':'].intercalate ((List.range 8).map fun k => printHx (info k)),
      decide (c ≠ '%') = true := by
    intro c hc
    have hne : c ≠ '%' := by
      rintro rfl
      rcases mem_intercalate hc with h | ⟨field, hfield, h⟩
      · cases h
      · obtain ⟨k, -, rfl⟩ := List.mem_map.1 hfield
        exact not_mem_printHx (by decide) h
    simpa using hne
  have htake : ([':'].intercalate ((List.range 8).map fun k => printHx (info k)) ++
      scope).takeWhile (· ≠ '%') =
        [':'].intercalate ((List.range 8).map fun k => printHx (info k)) := by
    rw [List.takeWhile_append_of_pos hpercent, hscope, List.append_nil]
  rw [parseNode, hnode, htake, hfields, hreg]
  obtain ⟨text, htext⟩ := hhead
  rw [htext, List.append_assoc, if_neg (not_prefix_printHx _ _)]
  simp [Option.filter]

/-- **An IPv6 server** likewise. -/
theorem ipv6Endpoint_says_iff {scope : List Char} (hscope : scope.takeWhile (· ≠ '%') = [])
    (hinfo : ∀ k < 9, info k = reg (addr + k)) :
    (ipv6Endpoint scope info).Says (ipv6Peer reg addr) ↔ (reg (addr + 8)).toNat < 32768 := by
  have hport : (ipv6Endpoint scope info).service = printHd 0 (reg (addr + 8)) := by
    rw [← hinfo 8 (by decide)]
    rfl
  constructor
  · intro h
    exact parsePort_printHd_iff.1 (hport ▸ h.service)
  · intro h
    exact ⟨parseNode_ipv6Endpoint hscope hinfo, hport ▸ parsePort_printHd_iff.2 h⟩

end Endpoints

/-! ### The registers -/

/-- Where the servers are, and where a port is. -/
def ipv4Registers : List Nat :=
  mapAddrRemoteIpv4Addr ::
    (List.range maxRemoteUdp4ServerNum).map (mapAddrUdpRemoteIpv4Addr + · * 5)

def ipv6Registers : List Nat :=
  mapAddrRemoteIpv6Addr ::
    (List.range maxRemoteUdp6ServerNum).map (mapAddrUdpRemoteIpv6Addr + · * 9)

def portRegisters : List Nat :=
  [mapAddrUdpPort, mapAddrTcpPort] ++ ipv4Registers.map (· + 4) ++ ipv6Registers.map (· + 8)

theorem forall_mem_portRegisters {P : Nat → Prop} :
    (∀ addr ∈ portRegisters, P addr) ↔
      (P mapAddrUdpPort ∧ P mapAddrTcpPort) ∧
      (P (mapAddrRemoteIpv4Addr + 4) ∧
        ∀ a0 < maxRemoteUdp4ServerNum, P (mapAddrUdpRemoteIpv4Addr + a0 * 5 + 4)) ∧
      P (mapAddrRemoteIpv6Addr + 8) ∧
        ∀ a0 < maxRemoteUdp6ServerNum, P (mapAddrUdpRemoteIpv6Addr + a0 * 9 + 8) := by
  simp [portRegisters, ipv4Registers, ipv6Registers, or_imp, forall_and, and_assoc]

/-- The map has these registers, and they read as `reg`, whatever the buffer holds. -/
structure AddressRegisters (env : Platform) (s : Rtu) (reg : Nat → UInt16) : Prop where
  xMax : mapAddrUdpRemoteIpv6Addr + 18 ≤ s.map.xMax
  reads : ∀ i, mapAddrUdpPort ≤ i → i < mapAddrUdpRemoteIpv6Addr + 18 →
    ∀ cur, readCell env s cur 1 i = reg i

section Registers

variable {env : Platform} {s : Rtu} {reg : Nat → UInt16}

theorem AddressRegisters.readInto_eq (h : AddressRegisters env s reg) (buf : Nat → UInt16)
    {len addr k : Nat} (haddr : mapAddrUdpPort ≤ addr)
    (hend : addr + len ≤ mapAddrUdpRemoteIpv6Addr + 18) (hk : k < len) :
    readInto env s buf len addr k = reg (addr + k) := by
  have hmax := h.xMax
  have hok : cellArgsOk s.map len 1 addr = true := cellArgsOk_iff.2 (by omega)
  rw [readInto, zigbeeReadRegisters, if_pos hok]
  have hcell := h.reads (addr + k) (by omega) (by omega) (buf k)
  simpa [List.getD_eq_getElem?_getD, hk] using hcell

theorem forall₂_append_iff {α β : Type} {R : α → β → Prop} {as as' : List α} {bs bs' : List β}
    (hlen : as.length = bs.length) :
    List.Forall₂ R (as ++ as') (bs ++ bs') ↔ List.Forall₂ R as bs ∧ List.Forall₂ R as' bs' := by
  constructor
  · intro h
    have htake := List.forall₂_take_append _ _ _ h
    have hdrop := List.forall₂_drop_append _ _ _ h
    rw [← hlen, List.take_left] at htake
    rw [← hlen, List.drop_left] at hdrop
    exact ⟨htake, hdrop⟩
  · exact fun ⟨h, h'⟩ => List.rel_append h h'

theorem AddressRegisters.client_says_iff (h : AddressRegisters env s reg)
    (hoctet : ∀ k < 4, (reg (mapAddrRemoteIpv4Addr + k)).toNat ≤ 255) (node : List Char)
    (buf : Nat → UInt16) :
    List.Forall₂ Endpoint.Says (netStrings env s node buf).client
      [ipv4Peer reg mapAddrRemoteIpv4Addr, ipv6Peer reg mapAddrRemoteIpv6Addr] ↔
    (reg (mapAddrRemoteIpv4Addr + 4)).toNat < 32768 ∧
      (reg (mapAddrRemoteIpv6Addr + 8)).toNat < 32768 := by
  have h4 : (ipv4Endpoint (readInto env s buf 5 mapAddrRemoteIpv4Addr)).Says
      (ipv4Peer reg mapAddrRemoteIpv4Addr) ↔ (reg (mapAddrRemoteIpv4Addr + 4)).toNat < 32768 :=
    ipv4Endpoint_says_iff (fun k hk => h.readInto_eq buf (by decide) (by decide) hk) hoctet
  have h6 : (ipv6Endpoint "%eth1".toList (readInto env s buf 9 mapAddrRemoteIpv6Addr)).Says
      (ipv6Peer reg mapAddrRemoteIpv6Addr) ↔ (reg (mapAddrRemoteIpv6Addr + 8)).toNat < 32768 :=
    ipv6Endpoint_says_iff (by decide) fun k hk => h.readInto_eq buf (by decide) (by decide) hk
  rw [netStrings, List.forall₂_cons, List.forall₂_cons, h4, h6]
  simp

theorem AddressRegisters.remotes_says_iff (h : AddressRegisters env s reg)
    (hoctet : ∀ a0 < maxRemoteUdp4ServerNum, ∀ k < 4,
      (reg (mapAddrUdpRemoteIpv4Addr + a0 * 5 + k)).toNat ≤ 255) (node : List Char)
    (buf : Nat → UInt16) :
    List.Forall₂ Endpoint.Says (netStrings env s node buf).remotes
      (((List.range maxRemoteUdp4ServerNum).map fun a0 =>
        ipv4Peer reg (mapAddrUdpRemoteIpv4Addr + a0 * 5)) ++
      (List.range maxRemoteUdp6ServerNum).map fun a0 =>
        ipv6Peer reg (mapAddrUdpRemoteIpv6Addr + a0 * 9)) ↔
    (∀ a0 < maxRemoteUdp4ServerNum,
      (reg (mapAddrUdpRemoteIpv4Addr + a0 * 5 + 4)).toNat < 32768) ∧
    ∀ a0 < maxRemoteUdp6ServerNum,
      (reg (mapAddrUdpRemoteIpv6Addr + a0 * 9 + 8)).toNat < 32768 := by
  rw [netStrings, forall₂_append_iff (by simp)]
  simp only [List.forall₂_map_left_iff, List.forall₂_map_right_iff, List.forall₂_same,
    List.mem_range]
  refine and_congr (forall₂_congr fun a0 ha0 => ?_) (forall₂_congr fun a0 ha0 => ?_)
  · have h3 : a0 < 3 := ha0
    refine ipv4Endpoint_says_iff (fun k hk => ?_) (hoctet a0 ha0)
    rw [h.readInto_eq buf (by decide) (by decide) (by rw [maxRemoteUdp4ServerNum]; omega),
      Nat.add_comm k, Nat.add_assoc]
  · have h2 : a0 < 2 := ha0
    refine ipv6Endpoint_says_iff rfl fun k hk => ?_
    rw [h.readInto_eq buf (by decide) (by decide) (by rw [maxRemoteUdp6ServerNum]; omega),
      Nat.add_comm k, Nat.add_assoc]

/-- **The resolver gets what the registers say**, whatever they hold, unless a port is from 32768
on. -/
theorem netStrings_faithful_iff (h : AddressRegisters env s reg)
    (hoctet : ∀ addr ∈ ipv4Registers, ∀ k < 4, (reg (addr + k)).toNat ≤ 255)
    (node : List Char) (buf : Nat → UInt16) :
    (netStrings env s node buf).Faithful reg ↔
      ∀ addr ∈ portRegisters, (reg addr).toNat < 32768 := by
  have hport {addr : Nat} (h57 : mapAddrUdpPort ≤ addr)
      (hend : addr + 1 ≤ mapAddrUdpRemoteIpv6Addr + 18) :
      parsePort (printHd 0 (readInto env s buf 1 addr 0)) = some (reg addr).toNat ↔
        (reg addr).toNat < 32768 := by
    rw [h.readInto_eq buf h57 hend (by decide)]
    exact parsePort_printHd_iff
  have hclient := h.client_says_iff (hoctet _ (by decide)) node buf
  have hremotes := h.remotes_says_iff (fun a0 ha0 =>
    hoctet _ (List.mem_cons_of_mem _ (List.mem_map_of_mem (List.mem_range.2 ha0)))) node buf
  rw [forall_mem_portRegisters]
  constructor
  · intro hf
    obtain ⟨hclient4, hclient6⟩ := hclient.1 hf.client
    obtain ⟨hremote4, hremote6⟩ := hremotes.1 hf.remotes
    have hudp := (hport (by decide) (by decide)).1 hf.udpServer
    have htcp := (hport (by decide) (by decide)).1 hf.tcpServer
    exact ⟨⟨hudp, htcp⟩, ⟨hclient4, hremote4⟩, hclient6, hremote6⟩
  · intro hports
    obtain ⟨⟨hudp, htcp⟩, ⟨hclient4, hremote4⟩, hclient6, hremote6⟩ := hports
    exact
      { client := hclient.2 ⟨hclient4, hclient6⟩
        tcpServer := (hport (by decide) (by decide)).2 htcp
        udpServer := (hport (by decide) (by decide)).2 hudp
        remotes := hremotes.2 ⟨hremote4, hremote6⟩ }

end Registers

/-- A unit whose cells of the first well hold these words. -/
def registerUnit (reg : Nat → UInt16) : Rtu :=
  .start { emptyMap 300 (fun _ => 0) (fun _ => 0) with ramX := reg }

theorem addressRegisters_registerUnit (env : Platform) (reg : Nat → UInt16) :
    AddressRegisters env (registerUnit reg) reg where
  xMax := (by decide : mapAddrUdpRemoteIpv6Addr + 18 ≤ 300)
  reads := fun i _ _ _ => congrArg reg (Nat.zero_add i)

/-- Every server is at port 10086. -/
theorem port10086_faithful :
    (netStrings (.bare fun _ => none)
      (registerUnit fun addr => if addr ∈ portRegisters then 10086 else 192) [] fun _ => 0).Faithful
      fun addr => if addr ∈ portRegisters then 10086 else 192 :=
  (netStrings_faithful_iff (addressRegisters_registerUnit _ _) (by decide) [] fun _ => 0).2
    (by decide)

/-- Port 40000 is printed `-25536`. -/
theorem not_netStrings_faithful :
    ¬ ∀ (env : Platform) (s : Rtu) (reg : Nat → UInt16) (node : List Char) (buf : Nat → UInt16),
      AddressRegisters env s reg →
      (∀ addr ∈ ipv4Registers, ∀ k < 4, (reg (addr + k)).toNat ≤ 255) →
      (netStrings env s node buf).Faithful reg := by
  intro h
  have hfaithful := h (.bare fun _ => none)
    (registerUnit fun addr => if addr = mapAddrTcpPort then 40000 else 192) _ [] (fun _ => 0)
    (addressRegisters_registerUnit _ _) (by decide)
  exact absurd hfaithful.tcpServer (by decide)

end RtuA118
