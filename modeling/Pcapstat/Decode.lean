import Pcapstat.Bytes

/-! # The frame decoder (`decode.h`, `decode.c`)

`decodeFrame` decodes one Ethernet frame: Ethernet header, VLAN tags, IPv4 or IPv6 with its
extension chain, TCP / UDP / ICMP and, on UDP port 2152, one GTP-U message with the user
packet it carries.

A decoder of the source has the form `decode_x(struct span *s, struct packet_info *pi)` and
returns a status.  Here it is a `Walk` over the span with out-parameter `PacketInfo`: normal
end is `DEC_OK`, `return st` for another status is an early exit.  Loops recurse on the number
of headers they may still step over. -/

namespace Pcapstat

open SpanWalk SpanWalk.Walk

/-! ### Constants -/

def decodeMaxVlans : ℕ := 2

def ethertypeIpv4 : UInt16 := 0x0800
def ethertypeVlan : UInt16 := 0x8100
def ethertypeQinq : UInt16 := 0x88A8
def ethertypeQinqLegacy : UInt16 := 0x9100
def ethertypeIpv6 : UInt16 := 0x86DD

def ipprotoIcmp : UInt8 := 1
def ipprotoTcp : UInt8 := 6
def ipprotoUdp : UInt8 := 17
def ipprotoIcmpv6 : UInt8 := 58

def gtpuPort : UInt16 := 2152

def gtpuFlagPt : UInt8 := 0x10
def gtpuFlagE : UInt8 := 0x04
def gtpuFlagS : UInt8 := 0x02
def gtpuFlagPn : UInt8 := 0x01

def gtpuMsgEchoRequest : UInt8 := 1
def gtpuMsgEchoResponse : UInt8 := 2
def gtpuMsgErrorIndication : UInt8 := 26
def gtpuMsgEndMarker : UInt8 := 254
def gtpuMsgGpdu : UInt8 := 255

def gtpuMaxExtHeaders : ℕ := 16

def ethHdrLen : ℕ := 14
def vlanTagLen : ℕ := 4
def ipv4MinHdr : ℕ := 20
def ipv6HdrLen : ℕ := 40
def ipv6FragLen : ℕ := 8
def tcpMinHdr : ℕ := 20
def udpHdrLen : ℕ := 8
def icmpMinHdr : ℕ := 4
def gtpuHdrLen : ℕ := 8
def gtpuOptLen : ℕ := 4

def ip6ExtHopopts : UInt8 := 0
def ip6ExtRouting : UInt8 := 43
def ip6ExtFragment : UInt8 := 44
def ip6ExtDstopts : UInt8 := 60

def ipv6MaxExtHeaders : ℕ := 8

/-! ### Data -/

/-- `enum decode_status`, in the order of the source. -/
inductive DecodeStatus where
  | ok
  | truncEthernet | truncVlan | truncIpv4 | truncIpv6 | truncIpv6Ext
  | truncTcp | truncUdp | truncIcmp | truncGtpu | truncGtpuExt | truncGtpuInner
  | badShortFrame | badVlanDepth | badIpv4Version | badIpv4Ihl | badIpv4TotalLen
  | badIpv6Version | badIpv6PayloadLen | badIpv6Ext | badL4Len | badTcpDoff | badUdpLen
  | badGtpuLen | badGtpuExtLen | badGtpuExt | badGtpuInner | badGtpuInnerShort
deriving DecidableEq, Repr

/-- The values below `DEC_STATUS_COUNT`. -/
def DecodeStatus.all : List DecodeStatus :=
  [.ok, .truncEthernet, .truncVlan, .truncIpv4, .truncIpv6, .truncIpv6Ext, .truncTcp, .truncUdp,
    .truncIcmp, .truncGtpu, .truncGtpuExt, .truncGtpuInner, .badShortFrame, .badVlanDepth,
    .badIpv4Version, .badIpv4Ihl, .badIpv4TotalLen, .badIpv6Version, .badIpv6PayloadLen,
    .badIpv6Ext, .badL4Len, .badTcpDoff, .badUdpLen, .badGtpuLen, .badGtpuExtLen, .badGtpuExt,
    .badGtpuInner, .badGtpuInnerShort]

instance : Fintype DecodeStatus := Fintype.ofList DecodeStatus.all (by intro s; cases s <;> decide)

/-- `decode_status_is_truncation`: the truncation values form a range of the enum. -/
def decodeStatusIsTruncation (s : DecodeStatus) : Bool :=
  DecodeStatus.truncEthernet.ctorIdx ≤ s.ctorIdx && s.ctorIdx ≤ DecodeStatus.truncGtpuInner.ctorIdx

/-- The status a decoder returns. -/
def DecodeStatus.ofRes : Except DecodeStatus Unit → DecodeStatus
  | .ok () => .ok
  | .error st => st

/-- `enum frag_kind` -/
inductive FragKind where
  | none
  | first
  | later
deriving DecidableEq, Repr

/-- `struct packet_info` -/
structure PacketInfo where
  status : DecodeStatus := .ok
  hasL2 : Bool := false
  hasL3 : Bool := false
  hasL4 : Bool := false
  ethertype : UInt16 := 0
  vlanCount : ℕ := 0
  vlanIds : List UInt16 := [0, 0]
  ipVersion : UInt8 := 0
  ipProto : UInt8 := 0
  srcAddr : Addr := .zero
  dstAddr : Addr := .zero
  frag : FragKind := .none
  fragId : UInt32 := 0
  srcPort : UInt16 := 0
  dstPort : UInt16 := 0
  tcpFlags : UInt8 := 0
  icmpType : UInt8 := 0
  icmpCode : UInt8 := 0
  isGtpu : Bool := false
  gtpStatus : DecodeStatus := .ok
  gtpV1u : Bool := false
  gtpFlags : UInt8 := 0
  gtpMsgType : UInt8 := 0
  gtpMsgOk : Bool := false
  gtpSeq : UInt16 := 0
  teid : UInt32 := 0
  gtpExtCount : ℕ := 0
  hasInner : Bool := false
  innerHasL4 : Bool := false
  gtpNested : Bool := false
  innerVersion : UInt8 := 0
  innerProto : UInt8 := 0
  innerSrc : Addr := .zero
  innerDst : Addr := .zero
  innerSrcPort : UInt16 := 0
  innerDstPort : UInt16 := 0
deriving DecidableEq, Repr

/-- A function of `decode.c` that returns a status. -/
abbrev Decoder (α : Type) := Walk PacketInfo DecodeStatus α

/-! ### Transport layer -/

def decodeTcp : Decoder Unit := do
  need tcpMinHdr .truncTcp .badL4Len
  let srcPort ← be16At 0
  let dstPort ← be16At 2
  let tcpFlags ← load8 13
  modifyOut fun pi => { pi with srcPort := srcPort, dstPort := dstPort, tcpFlags := tcpFlags }
  let doff ← load8 12
  let hlen := (doff >>> 4).toNat * 4
  let wire ← wireLeft
  exitIf (hlen < tcpMinHdr ∨ hlen > wire) .badTcpDoff
  requireCap hlen .truncTcp
  modifyOut fun pi => { pi with hasL4 := true }

def decodeUdp (frag : FragKind) : Decoder Unit := do
  need udpHdrLen .truncUdp .badL4Len
  let srcPort ← be16At 0
  let dstPort ← be16At 2
  modifyOut fun pi => { pi with srcPort := srcPort, dstPort := dstPort }
  let ulen ← be16At 4
  let wire ← wireLeft
  exitIf (ulen.toNat < udpHdrLen ∨ (frag = .none ∧ ulen.toNat > wire)) .badUdpLen
  -- only an unfragmented packet holds the whole datagram
  if frag = .none then clip ulen.toNat else pure ()
  modifyOut fun pi => { pi with hasL4 := true }

def decodeIcmp : Decoder Unit := do
  need icmpMinHdr .truncIcmp .badL4Len
  let icmpType ← load8 0
  let icmpCode ← load8 1
  modifyOut fun pi => { pi with icmpType := icmpType, icmpCode := icmpCode, hasL4 := true }

/-- `decode_l4`, one `decodeX` per case of its `switch`. -/
def decodeL4 : Decoder Unit := do
  let pi ← getOut
  if pi.ipProto = ipprotoTcp then decodeTcp
  else if pi.ipProto = ipprotoUdp then decodeUdp pi.frag
  else if pi.ipProto = ipprotoIcmp ∨ pi.ipProto = ipprotoIcmpv6 then decodeIcmp
  else pure ()

/-! ### Network layer -/

/-- What `decode_ipv4` makes of the header fields it reads. -/
def PacketInfo.setIpv4 (pi : PacketInfo) (proto : UInt8) (src dst : List UInt8)
    (id flagsOff : UInt16) : PacketInfo :=
  { pi with
    ipVersion := 4
    ipProto := proto
    srcAddr := pi.srcAddr.copyFrom src
    dstAddr := pi.dstAddr.copyFrom dst
    fragId := id.toUInt32
    frag := if flagsOff &&& 0x1FFF ≠ 0 then .later
      else if flagsOff &&& 0x2000 ≠ 0 then .first else pi.frag
    hasL3 := true }

/-- `decode_ipv4` up to its last step. -/
def decodeIpv4Header : Decoder Unit := do
  need ipv4MinHdr .truncIpv4 .badShortFrame
  let ip0 ← load8 0
  exitIf (ip0 >>> 4 ≠ 4) .badIpv4Version
  let hlen := (ip0 &&& 0x0F).toNat * 4
  exitIf (hlen < ipv4MinHdr) .badIpv4Ihl
  let totalLen ← be16At 2
  let wire ← wireLeft
  -- total length 0: segmentation offload, the packet runs to the end of the frame
  let total := if totalLen.toNat = 0 then wire else totalLen.toNat
  exitIf (total < hlen ∨ total > wire) .badIpv4TotalLen
  requireCap hlen .truncIpv4
  let proto ← load8 9
  let src ← loadBytes 12 4
  let dst ← loadBytes 16 4
  let id ← be16At 4
  let flagsOff ← be16At 6
  modifyOut fun pi => pi.setIpv4 proto src dst id flagsOff
  clip total
  advance hlen

def decodeIpv4 : Decoder Unit := do
  decodeIpv4Header
  let pi ← getOut
  if pi.frag = .later then pure () else decodeL4

def isIpv6Ext (next : UInt8) : Bool :=
  next = ip6ExtHopopts || next = ip6ExtRouting || next = ip6ExtFragment || next = ip6ExtDstopts

/-- What `decode_ipv6` makes of a Fragment header. -/
def PacketInfo.setFragment (pi : PacketInfo) (offFlags : UInt16) (id : UInt32) : PacketInfo :=
  { pi with
    fragId := id
    frag := if offFlags >>> 3 ≠ 0 then .later
      else if offFlags &&& 1 ≠ 0 then .first else pi.frag }

/-- After the extension chain: `next` names the upper-layer protocol. -/
def decodeUpper (next : UInt8) : Decoder Unit := do
  modifyOut fun pi => { pi with ipProto := next }
  decodeL4

/-- The `while` loop of `decode_ipv6` and what follows it; `IPV6_MAX_EXT_HEADERS - left`
extension headers have been stepped over. -/
def decodeIpv6Chain : ℕ → UInt8 → Decoder Unit
  | 0, next => if isIpv6Ext next then fail .badIpv6Ext else decodeUpper next
  | left + 1, next =>
      if isIpv6Ext next then
        if next = ip6ExtFragment then do
          need ipv6FragLen .truncIpv6Ext .badIpv6Ext
          let offFlags ← be16At 2
          let id ← be32At 4
          modifyOut fun pi => pi.setFragment offFlags id
          let next' ← load8 0
          advance ipv6FragLen
          let pi ← getOut
          if pi.frag = .later then modifyOut fun pi => { pi with ipProto := next' }
          else decodeIpv6Chain left next'
        else do
          need 2 .truncIpv6Ext .badIpv6Ext
          let len8 ← load8 1
          need ((len8.toNat + 1) * 8) .truncIpv6Ext .badIpv6Ext
          let next' ← load8 0
          advance ((len8.toNat + 1) * 8)
          decodeIpv6Chain left next'
      else decodeUpper next

/-- `decode_ipv6` up to its loop; the value is the header's next-header byte. -/
def decodeIpv6Header : Decoder UInt8 := do
  need ipv6HdrLen .truncIpv6 .badShortFrame
  let ip0 ← load8 0
  exitIf (ip0 >>> 4 ≠ 6) .badIpv6Version
  let payload ← be16At 4
  let room ← wireMinus ipv6HdrLen
  exitIf (payload.toNat > room) .badIpv6PayloadLen
  let next ← load8 6
  let src ← loadBytes 8 16
  let dst ← loadBytes 24 16
  modifyOut fun pi =>
    { pi with
      ipVersion := 6
      srcAddr := pi.srcAddr.copyFrom src
      dstAddr := pi.dstAddr.copyFrom dst
      hasL3 := true }
  advance ipv6HdrLen
  clip payload.toNat
  pure next

def decodeIpv6 : Decoder Unit := do
  let next ← decodeIpv6Header
  decodeIpv6Chain ipv6MaxExtHeaders next

/-! ### GTP-U -/

def decodeIsGtpuPort (pi : PacketInfo) : Bool :=
  pi.hasL4 && pi.ipProto = ipprotoUdp && (pi.srcPort = gtpuPort || pi.dstPort = gtpuPort)

/-- What `decode_gtpu_inner` copies out of its scratch `packet_info`. -/
def PacketInfo.setInner (pi inn : PacketInfo) : PacketInfo :=
  { pi with
    hasInner := pi.hasInner || inn.hasL3
    innerVersion := if inn.hasL3 then inn.ipVersion else pi.innerVersion
    innerProto := if inn.hasL3 then inn.ipProto else pi.innerProto
    innerSrc := if inn.hasL3 then inn.srcAddr else pi.innerSrc
    innerDst := if inn.hasL3 then inn.dstAddr else pi.innerDst
    innerHasL4 := pi.innerHasL4 || inn.hasL4
    innerSrcPort := if inn.hasL4 then inn.srcPort else pi.innerSrcPort
    innerDstPort := if inn.hasL4 then inn.dstPort else pi.innerDstPort
    gtpNested := if inn.hasL4 then decodeIsGtpuPort inn else pi.gtpNested }

/-- `return st;` -/
def exitWith (st : DecodeStatus) : Decoder Unit := exitIf (st ≠ .ok) st

def decodeGtpuInner : Decoder Unit := do
  need 1 .truncGtpuInner .badGtpuInner
  let b ← load8 0
  exitIf (b >>> 4 ≠ 4 ∧ b >>> 4 ≠ 6) .badGtpuInner
  let r ← scratch (if b >>> 4 = 4 then decodeIpv4 else decodeIpv6) {}
  modifyOut fun pi => pi.setInner r.2
  let st := DecodeStatus.ofRes r.1
  exitWith (if st = .badShortFrame then .badGtpuInnerShort else st)

/-- The loop of `decode_gtpu` over the extension headers; `hops` have been stepped over and
`left` more are allowed. -/
def decodeGtpuExts : (left hops : ℕ) → UInt8 → Decoder Unit
  | 0, _, next => exitIf (next ≠ 0) .badGtpuExt
  | left + 1, hops, next =>
      if next = 0 then pure ()
      else do
        need 1 .truncGtpuExt .badGtpuExt
        let len4 ← load8 0
        let elen := len4.toNat * 4
        exitIf (elen = 0) .badGtpuExtLen
        need elen .truncGtpuExt .badGtpuExt
        let next' ← load8 (elen - 1)
        advance elen
        modifyOut fun pi => { pi with gtpExtCount := hops + 1 }
        decodeGtpuExts left (hops + 1) next'

/-- The optional fields of `decode_gtpu`; the value is the type of the first extension header. -/
def decodeGtpuOpt (flags : UInt8) : Decoder UInt8 :=
  if flags &&& (gtpuFlagE ||| gtpuFlagS ||| gtpuFlagPn) ≠ 0 then do
    need gtpuOptLen .truncGtpu .badGtpuLen
    if flags &&& gtpuFlagS ≠ 0 then do
      let seq ← be16At 0
      modifyOut fun pi => { pi with gtpSeq := seq }
    else pure ()
    let next ← if flags &&& gtpuFlagE ≠ 0 then load8 3 else pure 0
    advance gtpuOptLen
    pure next
  else pure 0

/-- `decode_gtpu` up to its last step; the value says whether a user packet follows. -/
def decodeGtpuHeaders : Decoder Bool := do
  need gtpuHdrLen .truncGtpu .badGtpuLen
  let flags ← load8 0
  if flags >>> 5 ≠ 1 ∨ flags &&& gtpuFlagPt = 0 then pure false
  else do
    let msgType ← load8 1
    let len ← be16At 2
    let teid ← be32At 4
    modifyOut fun pi =>
      { pi with gtpV1u := true, gtpFlags := flags, gtpMsgType := msgType, teid := teid }
    let room ← wireMinus gtpuHdrLen
    exitIf (len.toNat > room) .badGtpuLen
    advance gtpuHdrLen
    clip len.toNat
    let next ← decodeGtpuOpt flags
    decodeGtpuExts gtpuMaxExtHeaders 0 next
    modifyOut fun pi => { pi with gtpMsgOk := true }
    pure (msgType = gtpuMsgGpdu)

def decodeGtpu : Decoder Unit := do
  let userPacket ← decodeGtpuHeaders
  if userPacket then decodeGtpuInner else pure ()

/-! ### Frame -/

def isVlanType (type : UInt16) : Bool :=
  type = ethertypeVlan || type = ethertypeQinq || type = ethertypeQinqLegacy

/-- The loop over the VLAN tags; `left` more tags are allowed.  The value is the ethertype. -/
def decodeVlans : ℕ → UInt16 → Decoder UInt16
  | 0, type => if isVlanType type then fail .badVlanDepth else pure type
  | left + 1, type =>
      if isVlanType type then do
        need vlanTagLen .truncVlan .badShortFrame
        let tci ← be16At 0
        modifyOut fun pi =>
          { pi with
            vlanIds := pi.vlanIds.set pi.vlanCount (tci &&& 0x0FFF)
            vlanCount := pi.vlanCount + 1 }
        let type' ← be16At 2
        advance vlanTagLen
        decodeVlans left type'
      else pure type

/-- The Ethernet header and the VLAN tags. -/
def decodeL2 : Decoder UInt16 := do
  need ethHdrLen .truncEthernet .badShortFrame
  let type ← be16At 12
  advance ethHdrLen
  let type ← decodeVlans decodeMaxVlans type
  modifyOut fun pi => { pi with ethertype := type, hasL2 := true }
  pure type

/-- `decode_frame` up to the outer packet's last layer. -/
def decodeOuter : Decoder Unit := do
  let type ← decodeL2
  if type = ethertypeIpv4 then decodeIpv4
  else if type = ethertypeIpv6 then decodeIpv6
  else pure ()

/-- The GTP-U message of a cleanly decoded, unfragmented datagram. -/
def decodeTunnel : Decoder Unit := do
  let pi ← getOut
  let wire ← wireLeft
  if pi.status = .ok ∧ pi.frag = .none ∧ decodeIsGtpuPort pi ∧ wire ≥ udpHdrLen + gtpuHdrLen then do
    modifyOut fun pi => { pi with isGtpu := true }
    advance udpHdrLen
    let r ← attempt decodeGtpu
    modifyOut fun pi => { pi with gtpStatus := .ofRes r }
  else pure ()

/-- The whole of `decode_frame`. -/
def frameWalk : Decoder Unit := do
  let r ← attempt decodeOuter
  modifyOut fun pi => { pi with status := .ofRes r }
  decodeTunnel

/-- The span `decode_frame` starts from. -/
def frameSpan (caplen wirelen : ℕ) : Span :=
  ⟨0, caplen, if wirelen > caplen then wirelen else caplen⟩

/-- `decode_frame(frame, caplen, wirelen, pi)`: the `packet_info` it fills in. -/
def decodeFrame (frame : Mem) (caplen wirelen : ℕ) : PacketInfo :=
  (frameWalk.run frame (frameSpan caplen wirelen) {}).out

/-- What `decode_frame` reads, subtracts and stands on, in order. -/
def decodeLog (frame : Mem) (caplen wirelen : ℕ) : List Event :=
  .at (frameSpan caplen wirelen) :: (frameWalk.run frame (frameSpan caplen wirelen) {}).log

end Pcapstat
