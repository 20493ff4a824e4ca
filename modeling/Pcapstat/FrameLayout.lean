import Pcapstat.FrameWriter

/-! # Frames of the supported header stacks

A `FrameLayout` is an Ethernet frame with up to two VLAN tags, an IPv4 packet or an IPv6 packet with up
to eight extension headers, a TCP, UDP, ICMP or ICMPv6 header and a payload.  `FrameLayout.bytes` lays it
out, each next-header field naming what follows, and `FrameLayout.info` is what the headers say. -/

namespace Pcapstat

/-- `n` bytes. -/
abbrev Bytes (n : ℕ) := { bs : List UInt8 // bs.length = n }

/-! ### Link layer -/

/-- A VLAN tag; the priority includes the drop eligible bit. -/
structure VlanTag where
  tpid : UInt16
  priority : Fin 16
  vid : Fin 4096
  isTag : isVlanType tpid = true

/-- The tag control information. -/
def VlanTag.tci (t : VlanTag) : UInt16 := UInt16.ofNat (t.priority * 4096 + t.vid)

theorem VlanTag.tci_vid (t : VlanTag) : t.tci &&& 0x0FFF = UInt16.ofNat t.vid := by
  have hp := t.priority.isLt
  have hv := t.vid.isLt
  apply UInt16.toNat_inj.mp
  rw [UInt16.toNat_and, VlanTag.tci, UInt16.toNat_ofNat_of_lt' (by show _ < 65536; omega),
    UInt16.toNat_ofNat_of_lt' (by show _ < 65536; omega)]
  show ((t.priority : ℕ) * 4096 + t.vid) &&& (2 ^ 12 - 1) = (t.vid : ℕ)
  rw [Nat.and_two_pow_sub_one_eq_mod]
  omega

/-- The type field in front of the tags. -/
def firstTpid : List VlanTag → UInt16 → UInt16
  | [], ethertype => ethertype
  | t :: _, _ => t.tpid

def putTags : List VlanTag → UInt16 → List UInt8
  | [], _ => []
  | t :: ts, ethertype => vlanBytes t.tci (firstTpid ts ethertype) ++ putTags ts ethertype

/-! ### Network layer -/

structure Ipv4Header where
  tos : UInt8
  id : UInt16
  /-- the flags and the offset -/
  frag : UInt16
  ttl : UInt8
  checksum : UInt16
  src : Bytes 4
  dst : Bytes 4
  optWords : ℕ
  options : Bytes (4 * optWords)
  optWords_le : optWords ≤ 10

def Ipv4Header.length (h : Ipv4Header) : ℕ := 20 + 4 * h.optWords

def Ipv4Header.bytes (h : Ipv4Header) (proto : UInt8) (payloadLen : ℕ) : List UInt8 :=
  ipv4Bytes (0x40 ||| (UInt8.ofNat (5 + h.optWords) &&& 0x0F)) h.tos (UInt16.ofNat (h.length + payloadLen))
    h.id h.frag h.ttl proto h.checksum h.src.1 h.dst.1 h.options.1

structure Ipv6Header where
  /-- the class and the flow label -/
  label : Fin (2 ^ 28)
  hopLimit : UInt8
  src : Bytes 16
  dst : Bytes 16

def Ipv6Header.bytes (h : Ipv6Header) (next : UInt8) (payloadLen : ℕ) : List UInt8 :=
  ipv6Bytes (UInt32.ofNat (0x60000000 + h.label)) (UInt16.ofNat payloadLen) next h.hopLimit h.src.1 h.dst.1

/-- An IPv6 extension header that the decoder steps over. -/
inductive Ipv6Ext where
  /-- hop-by-hop, routing or destination options; the length byte counts 8-byte units after the first -/
  | options (type len : UInt8) (content : Bytes (6 + 8 * len.toNat))
      (isOptions : type = ip6ExtHopopts ∨ type = ip6ExtRouting ∨ type = ip6ExtDstopts)
  | fragment (reserved : UInt8) (offFlags : UInt16) (id : UInt32)

namespace Ipv6Ext

def type : Ipv6Ext → UInt8
  | options type _ _ _ => type
  | fragment _ _ _ => ip6ExtFragment

def bytes (next : UInt8) : Ipv6Ext → List UInt8
  | options _ len content _ => next :: len :: content.1
  | fragment reserved offFlags id => next :: reserved :: (bbBe16 offFlags ++ bbBe32 id)

/-- The header belongs to a later fragment. -/
def isLater : Ipv6Ext → Bool
  | options _ _ _ _ => false
  | fragment _ offFlags _ => offFlags >>> 3 ≠ 0

/-- The header belongs to a first fragment. -/
def isFirst : Ipv6Ext → Bool
  | options _ _ _ _ => false
  | fragment _ offFlags _ => offFlags >>> 3 = 0 && offFlags &&& 1 ≠ 0

def fragId? : Ipv6Ext → Option UInt32
  | options _ _ _ _ => none
  | fragment _ _ id => some id

end Ipv6Ext

/-- The next-header field in front of the chain. -/
def firstExt : List Ipv6Ext → UInt8 → UInt8
  | [], proto => proto
  | e :: _, _ => e.type

def putChain : List Ipv6Ext → UInt8 → List UInt8
  | [], _ => []
  | e :: es, proto => e.bytes (firstExt es proto) ++ putChain es proto

/-- The headers in front of a later fragment's payload, or all of them. -/
def walkedExts : List Ipv6Ext → List Ipv6Ext
  | [] => []
  | e :: es => if e.isLater then [e] else e :: walkedExts es

/-- What the last of the walked headers names. -/
def chainProto : List Ipv6Ext → UInt8 → UInt8
  | [], proto => proto
  | e :: es, proto => if e.isLater then firstExt es proto else chainProto es proto

def chainFrag (exts : List Ipv6Ext) : FragKind :=
  if exts.any Ipv6Ext.isLater then .later else if exts.any Ipv6Ext.isFirst then .first else .none

def chainFragId (exts : List Ipv6Ext) : UInt32 :=
  ((walkedExts exts).filterMap Ipv6Ext.fragId?).getLast?.getD 0

/-- The network layer of a frame. -/
inductive Network where
  | ipv4 (header : Ipv4Header)
  | ipv6 (header : Ipv6Header) (exts : List Ipv6Ext) (exts_le : exts.length ≤ ipv6MaxExtHeaders)

namespace Network

def ethertype : Network → UInt16
  | ipv4 _ => ethertypeIpv4
  | ipv6 _ _ _ => ethertypeIpv6

/-- The packet around an upper layer of protocol `proto`. -/
def bytes (proto : UInt8) (upper : List UInt8) : Network → List UInt8
  | ipv4 h => h.bytes proto upper.length ++ upper
  | ipv6 h exts _ => h.bytes (firstExt exts proto) (putChain exts proto ++ upper).length ++
      (putChain exts proto ++ upper)

/-- What the length field of the IP header says. -/
def lengthField (proto : UInt8) (upper : List UInt8) : Network → ℕ
  | ipv4 h => h.length + upper.length
  | ipv6 _ exts _ => (putChain exts proto ++ upper).length

end Network

/-! ### Transport layer -/

structure TcpHeader where
  srcPort : UInt16
  dstPort : UInt16
  seq : UInt32
  ack : UInt32
  reserved : Fin 16
  flags : UInt8
  window : UInt16
  checksum : UInt16
  urgent : UInt16
  optWords : ℕ
  options : Bytes (4 * optWords)
  optWords_le : optWords ≤ 10

def TcpHeader.bytes (h : TcpHeader) : List UInt8 :=
  tcpBytes h.srcPort h.dstPort h.seq h.ack (UInt8.ofNat ((5 + h.optWords) * 16 + h.reserved)) h.flags h.window
    h.checksum h.urgent h.options.1

structure UdpHeader where
  srcPort : UInt16
  dstPort : UInt16
  checksum : UInt16

def UdpHeader.bytes (h : UdpHeader) (payloadLen : ℕ) : List UInt8 :=
  udpBytes h.srcPort h.dstPort (UInt16.ofNat (8 + payloadLen)) h.checksum

structure IcmpHeader where
  type : UInt8
  code : UInt8
  checksum : UInt16

def IcmpHeader.bytes (h : IcmpHeader) : List UInt8 := icmpBytes h.type h.code h.checksum

inductive Transport where
  | tcp (header : TcpHeader)
  | udp (header : UdpHeader)
  | icmp (header : IcmpHeader)
  | icmpv6 (header : IcmpHeader)

namespace Transport

def proto : Transport → UInt8
  | tcp _ => ipprotoTcp
  | udp _ => ipprotoUdp
  | icmp _ => ipprotoIcmp
  | icmpv6 _ => ipprotoIcmpv6

def bytes (payload : List UInt8) : Transport → List UInt8
  | tcp h => h.bytes ++ payload
  | udp h => h.bytes payload.length ++ payload
  | icmp h => h.bytes ++ payload
  | icmpv6 h => h.bytes ++ payload

/-- `pi` with what the header says. -/
def info (pi : PacketInfo) : Transport → PacketInfo
  | tcp h => { pi with hasL4 := true, srcPort := h.srcPort, dstPort := h.dstPort, tcpFlags := h.flags }
  | udp h => { pi with hasL4 := true, srcPort := h.srcPort, dstPort := h.dstPort }
  | icmp h => { pi with hasL4 := true, icmpType := h.type, icmpCode := h.code }
  | icmpv6 h => { pi with hasL4 := true, icmpType := h.type, icmpCode := h.code }

end Transport

/-! ### Frames -/

/-- An IPv4 address, padded to sixteen bytes. -/
def Addr.ofIpv4 (a : Bytes 4) : Addr :=
  ⟨a.1 ++ List.replicate 12 0, by rw [List.length_append, a.2, List.length_replicate]⟩

/-- An IPv6 address. -/
def Addr.ofIpv6 (a : Bytes 16) : Addr := ⟨a.1, a.2⟩

/-- `pi` with what the network layer says, for an upper layer of protocol `proto`. -/
def Network.info (pi : PacketInfo) (proto : UInt8) : Network → PacketInfo
  | ipv4 h =>
      { pi with
        hasL3 := true
        ipVersion := 4
        ipProto := proto
        srcAddr := .ofIpv4 h.src
        dstAddr := .ofIpv4 h.dst
        frag := if h.frag &&& 0x1FFF ≠ 0 then .later else if h.frag &&& 0x2000 ≠ 0 then .first else .none
        fragId := h.id.toUInt32 }
  | ipv6 h exts _ =>
      { pi with
        hasL3 := true
        ipVersion := 6
        ipProto := chainProto exts proto
        srcAddr := .ofIpv6 h.src
        dstAddr := .ofIpv6 h.dst
        frag := chainFrag exts
        fragId := chainFragId exts }

/-- An Ethernet frame of a supported header stack; the trailer is Ethernet padding. -/
structure FrameLayout where
  dst : Bytes 6
  src : Bytes 6
  tags : List VlanTag
  network : Network
  transport : Transport
  payload : List UInt8
  trailer : List UInt8
  tags_le : tags.length ≤ decodeMaxVlans
  fits : network.lengthField transport.proto (transport.bytes payload) < 2 ^ 16

namespace FrameLayout

variable (l : FrameLayout)

/-- The IP payload behind the network headers. -/
def upper : List UInt8 := l.transport.bytes l.payload

def bytes : List UInt8 :=
  ethBytes l.dst.1 l.src.1 (firstTpid l.tags l.network.ethertype) ++
    (putTags l.tags l.network.ethertype ++ (l.network.bytes l.transport.proto l.upper ++ l.trailer))

/-- What the link header says. -/
def linkInfo : PacketInfo :=
  { hasL2 := true
    ethertype := l.network.ethertype
    vlanCount := l.tags.length
    vlanIds := (l.tags.map (fun t : VlanTag => UInt16.ofNat t.vid) ++ [0, 0]).take decodeMaxVlans }

/-- What the link and network headers say. -/
def networkInfo : PacketInfo := l.network.info l.linkInfo l.transport.proto

/-- What the headers say; a later fragment has no transport header. -/
def info : PacketInfo :=
  if l.networkInfo.frag = .later then l.networkInfo else l.transport.info l.networkInfo

end FrameLayout

/-! ### The frames of the test suite -/

section tests

variable (src dst : Bytes 4) (src6 dst6 : Bytes 16) (sport dport : UInt16) (flags : UInt8) (payload : ℕ)

/-- The addresses that `put_eth` writes. -/
def testMacs : Bytes 6 × Bytes 6 :=
  (⟨[0x02, 0x00, 0x00, 0x00, 0x00, 0x02], rfl⟩, ⟨[0x02, 0x00, 0x00, 0x00, 0x00, 0x01], rfl⟩)

/-- The IPv4 header that `put_ipv4` writes without options. -/
def testIpv4 (frag : UInt16) : Ipv4Header :=
  ⟨0, 0x1234, frag, 64, 0, src, dst, 0, ⟨[], rfl⟩, by decide⟩

/-- The IPv6 header that `put_ipv6` writes. -/
def testIpv6 : Ipv6Header := ⟨0, 64, src6, dst6⟩

/-- The TCP header that `put_tcp` writes. -/
def testTcp : TcpHeader := ⟨sport, dport, 1000, 2000, 0, flags, 65535, 0, 0, 0, ⟨[], rfl⟩, by decide⟩

/-- The ICMP header that `put_icmp` writes. -/
theorem bytes_putIcmp (type code : UInt8) (data : List UInt8) :
    putIcmp type code ++ data = (Transport.icmp ⟨type, code, 0⟩).bytes (bbBe16 0x0042 ++ (bbBe16 1 ++ data)) :=
  rfl

theorem length_testTcp (data : List UInt8) :
    ((Transport.tcp (testTcp sport dport flags)).bytes data).length = 20 + data.length := by
  rw [Transport.bytes, List.length_append]
  rfl

theorem length_testUdp (data : List UInt8) :
    ((Transport.udp ⟨sport, dport, 0⟩).bytes data).length = 8 + data.length := by
  rw [Transport.bytes, List.length_append]
  rfl

/-- `frame_v4_tcp` writes such a frame. -/
theorem exists_frameV4Tcp (hfits : 40 + payload < 2 ^ 16) :
    ∃ l : FrameLayout, l.bytes = frameV4Tcp src.1 dst.1 sport dport flags payload := by
  have hlen := length_testTcp sport dport flags (List.replicate payload 0xAB)
  rw [List.length_replicate] at hlen
  refine ⟨⟨testMacs.1, testMacs.2, [], .ipv4 (testIpv4 src dst 0x4000), .tcp (testTcp sport dport flags),
    List.replicate payload 0xAB, [], by decide, ?_⟩, ?_⟩
  · show 20 + _ < 2 ^ 16
    omega
  · unfold FrameLayout.bytes FrameLayout.upper Network.bytes Ipv4Header.bytes frameV4Tcp putIpv4
    dsimp only
    rw [hlen, List.append_nil]
    rfl

/-- So does `frame_v4_udp`. -/
theorem exists_frameV4Udp (hfits : 28 + payload < 2 ^ 16) :
    ∃ l : FrameLayout, l.bytes = frameV4Udp src.1 dst.1 sport dport payload := by
  have hdata : (List.replicate payload (0xCD : UInt8)).length = payload := List.length_replicate
  have hlen := length_testUdp sport dport (List.replicate payload 0xCD)
  rw [hdata] at hlen
  refine ⟨⟨testMacs.1, testMacs.2, [], .ipv4 (testIpv4 src dst 0), .udp ⟨sport, dport, 0⟩,
    List.replicate payload 0xCD, [], by decide, ?_⟩, ?_⟩
  · show 20 + _ < 2 ^ 16
    omega
  · unfold FrameLayout.bytes FrameLayout.upper Network.bytes Ipv4Header.bytes frameV4Udp putIpv4
    dsimp only
    rw [hlen, List.append_nil, Transport.bytes, hdata]
    rfl

/-- So does `frame_v6_tcp`. -/
theorem exists_frameV6Tcp (hfits : 20 + payload < 2 ^ 16) :
    ∃ l : FrameLayout, l.bytes = frameV6Tcp src6.1 dst6.1 sport dport flags payload := by
  have hlen := length_testTcp sport dport flags (List.replicate payload 0xEF)
  rw [List.length_replicate] at hlen
  refine ⟨⟨testMacs.1, testMacs.2, [], .ipv6 (testIpv6 src6 dst6) [] (by decide), .tcp (testTcp sport dport flags),
    List.replicate payload 0xEF, [], by decide, ?_⟩, ?_⟩
  · show ([] ++ _ : List UInt8).length < 2 ^ 16
    rw [List.nil_append]
    omega
  · unfold FrameLayout.bytes FrameLayout.upper Network.bytes Ipv6Header.bytes frameV6Tcp putIpv6
    dsimp only [putChain]
    rw [List.nil_append, hlen, List.append_nil]
    rfl

end tests

end Pcapstat
