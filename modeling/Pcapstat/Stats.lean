import Pcapstat.Decode

/-! # Counters (`stats.h`, `stats.c`) -/

namespace Pcapstat

/-- An array of counters indexed by a status. -/
abbrev ByStatus := DecodeStatus → UInt64

/-- `by_status[st]++` -/
def ByStatus.bump (b : ByStatus) (st : DecodeStatus) : ByStatus := Function.update b st (b st + 1)

/-- `struct gtpu_stats` -/
structure GtpuStats where
  packets : UInt64 := 0
  fragmented : UInt64 := 0
  notV1u : UInt64 := 0
  gpdu : UInt64 := 0
  echoRequest : UInt64 := 0
  echoResponse : UInt64 := 0
  errorIndication : UInt64 := 0
  endMarker : UInt64 := 0
  otherType : UInt64 := 0
  withSeq : UInt64 := 0
  withExt : UInt64 := 0
  innerIpv4 : UInt64 := 0
  innerIpv6 : UInt64 := 0
  innerTcp : UInt64 := 0
  innerUdp : UInt64 := 0
  innerIcmp : UInt64 := 0
  innerIcmpv6 : UInt64 := 0
  innerOther : UInt64 := 0
  nested : UInt64 := 0
  truncated : UInt64 := 0
  malformed : UInt64 := 0
  userTruncated : UInt64 := 0
  userMalformed : UInt64 := 0
  byStatus : ByStatus := fun _ => 0

/-- `struct stats` -/
structure Stats where
  packets : UInt64 := 0
  wireBytes : UInt64 := 0
  capturedBytes : UInt64 := 0
  firstTsNs : UInt64 := 0
  lastTsNs : UInt64 := 0
  ipv4 : UInt64 := 0
  ipv6 : UInt64 := 0
  nonIp : UInt64 := 0
  vlanTagged : UInt64 := 0
  tcp : UInt64 := 0
  udp : UInt64 := 0
  icmp : UInt64 := 0
  icmpv6 : UInt64 := 0
  otherL4 : UInt64 := 0
  fragFirst : UInt64 := 0
  fragLater : UInt64 := 0
  fragMatched : UInt64 := 0
  truncated : UInt64 := 0
  malformed : UInt64 := 0
  byStatus : ByStatus := fun _ => 0
  gtpu : GtpuStats := {}

/-- `stats_init` -/
def statsInit : Stats := {}

/-! ### GTP-U -/

/-- The first part of `add_gtpu`: the verdict. -/
def GtpuStats.addVerdict (g : GtpuStats) (pi : PacketInfo) : GtpuStats :=
  let g := { g with packets := g.packets + 1, byStatus := g.byStatus.bump pi.gtpStatus }
  if pi.gtpStatus ≠ .ok then
    if decodeStatusIsTruncation pi.gtpStatus then
      let g := { g with truncated := g.truncated + 1 }
      if pi.gtpMsgOk then { g with userTruncated := g.userTruncated + 1 } else g
    else
      let g := { g with malformed := g.malformed + 1 }
      if pi.gtpMsgOk then { g with userMalformed := g.userMalformed + 1 } else g
  else g

/-- The second part of `add_gtpu`: type and options of a GTPv1-U header. -/
def GtpuStats.addHeader (g : GtpuStats) (pi : PacketInfo) : GtpuStats :=
  let g :=
    if pi.gtpMsgType = gtpuMsgGpdu then { g with gpdu := g.gpdu + 1 }
    else if pi.gtpMsgType = gtpuMsgEchoRequest then { g with echoRequest := g.echoRequest + 1 }
    else if pi.gtpMsgType = gtpuMsgEchoResponse then { g with echoResponse := g.echoResponse + 1 }
    else if pi.gtpMsgType = gtpuMsgErrorIndication then
      { g with errorIndication := g.errorIndication + 1 }
    else if pi.gtpMsgType = gtpuMsgEndMarker then { g with endMarker := g.endMarker + 1 }
    else { g with otherType := g.otherType + 1 }
  let g := if pi.gtpFlags &&& gtpuFlagS ≠ 0 then { g with withSeq := g.withSeq + 1 } else g
  if pi.gtpExtCount > 0 then { g with withExt := g.withExt + 1 } else g

/-- The third part of `add_gtpu`: the user packet. -/
def GtpuStats.addInner (g : GtpuStats) (pi : PacketInfo) : GtpuStats :=
  if !pi.hasInner then g
  else
    let g := if pi.innerVersion = 4 then { g with innerIpv4 := g.innerIpv4 + 1 }
      else { g with innerIpv6 := g.innerIpv6 + 1 }
    if pi.gtpStatus = .truncIpv6Ext || pi.gtpStatus = .badIpv6Ext then g
    else
      let g :=
        if pi.innerProto = ipprotoTcp then { g with innerTcp := g.innerTcp + 1 }
        else if pi.innerProto = ipprotoUdp then { g with innerUdp := g.innerUdp + 1 }
        else if pi.innerProto = ipprotoIcmp then { g with innerIcmp := g.innerIcmp + 1 }
        else if pi.innerProto = ipprotoIcmpv6 then { g with innerIcmpv6 := g.innerIcmpv6 + 1 }
        else { g with innerOther := g.innerOther + 1 }
      if pi.gtpNested then { g with nested := g.nested + 1 } else g

/-- `add_gtpu` -/
def addGtpu (g : GtpuStats) (pi : PacketInfo) : GtpuStats :=
  if pi.frag = .first && decodeIsGtpuPort pi then { g with fragmented := g.fragmented + 1 }
  else if !pi.isGtpu then g
  else
    let g := g.addVerdict pi
    if !pi.gtpV1u then
      if pi.gtpStatus = .ok then { g with notV1u := g.notV1u + 1 } else g
    else (g.addHeader pi).addInner pi

/-! ### Frames -/

/-- The first part of `stats_add`: sizes, times and the verdict. -/
def Stats.addFrame (s : Stats) (pi : PacketInfo) (caplen wirelen : UInt32) (tsNs : UInt64) : Stats :=
  let s := if s.packets = 0 || tsNs < s.firstTsNs then { s with firstTsNs := tsNs } else s
  let s := if s.packets = 0 || tsNs > s.lastTsNs then { s with lastTsNs := tsNs } else s
  let s := { s with
    packets := s.packets + 1
    wireBytes := s.wireBytes + wirelen.toUInt64
    capturedBytes := s.capturedBytes + caplen.toUInt64
    byStatus := s.byStatus.bump pi.status }
  let s :=
    if pi.status ≠ .ok then
      if decodeStatusIsTruncation pi.status then { s with truncated := s.truncated + 1 }
      else { s with malformed := s.malformed + 1 }
    else s
  if pi.vlanCount > 0 then { s with vlanTagged := s.vlanTagged + 1 } else s

/-- The last part of `stats_add`: network and transport layer. -/
def Stats.addIp (s : Stats) (pi : PacketInfo) : Stats :=
  if !pi.hasL3 then
    if pi.hasL2 && pi.ethertype ≠ ethertypeIpv4 && pi.ethertype ≠ ethertypeIpv6 then
      { s with nonIp := s.nonIp + 1 }
    else s
  else
    let s := if pi.ipVersion = 4 then { s with ipv4 := s.ipv4 + 1 } else { s with ipv6 := s.ipv6 + 1 }
    let s :=
      if pi.frag = .first then { s with fragFirst := s.fragFirst + 1 }
      else if pi.frag = .later then { s with fragLater := s.fragLater + 1 }
      else s
    if pi.status = .truncIpv6Ext || pi.status = .badIpv6Ext then s
    else if pi.ipProto = ipprotoTcp then { s with tcp := s.tcp + 1 }
    else if pi.ipProto = ipprotoUdp then { s with udp := s.udp + 1 }
    else if pi.ipProto = ipprotoIcmp then { s with icmp := s.icmp + 1 }
    else if pi.ipProto = ipprotoIcmpv6 then { s with icmpv6 := s.icmpv6 + 1 }
    else { s with otherL4 := s.otherL4 + 1 }

/-- `stats_add` -/
def statsAdd (s : Stats) (pi : PacketInfo) (caplen wirelen : UInt32) (tsNs : UInt64) : Stats :=
  let s := s.addFrame pi caplen wirelen tsNs
  let s := { s with gtpu := addGtpu s.gtpu pi }
  s.addIp pi

end Pcapstat
