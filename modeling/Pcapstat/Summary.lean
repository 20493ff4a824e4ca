import Pcapstat.Stats
import Pcapstat.Teids
import Pcapstat.Utc

/-! # The summary (`report.c`, `decode.c`, `pcap_reader.c`)

* What `printf` makes of a `double` is a parameter (`FloatTexts`): percentages and rates.
* The answer of `malloc` is an argument (`ok`). -/

namespace Pcapstat

/-! ### Names -/

/-- `decode_status_str` -/
def decodeStatusStr : DecodeStatus → Text
  | .ok => "ok".toList
  | .truncEthernet => "truncated Ethernet header".toList
  | .truncVlan => "truncated VLAN tag".toList
  | .truncIpv4 => "truncated IPv4 header".toList
  | .truncIpv6 => "truncated IPv6 header".toList
  | .truncIpv6Ext => "truncated IPv6 extension header".toList
  | .truncTcp => "truncated TCP header".toList
  | .truncUdp => "truncated UDP header".toList
  | .truncIcmp => "truncated ICMP header".toList
  | .truncGtpu => "truncated GTP-U header".toList
  | .truncGtpuExt => "truncated GTP-U extension header".toList
  | .truncGtpuInner => "G-PDU truncated before its IP packet".toList
  | .badShortFrame => "frame too short for its headers".toList
  | .badVlanDepth => "more than 2 VLAN tags".toList
  | .badIpv4Version => "IPv4 ethertype with wrong IP version".toList
  | .badIpv4Ihl => "IPv4 header length < 20".toList
  | .badIpv4TotalLen => "IPv4 total length invalid".toList
  | .badIpv6Version => "IPv6 ethertype with wrong IP version".toList
  | .badIpv6PayloadLen => "IPv6 payload length exceeds frame".toList
  | .badIpv6Ext => "IPv6 extension header invalid".toList
  | .badL4Len => "IP payload too short for L4 header".toList
  | .badTcpDoff => "TCP data offset invalid".toList
  | .badUdpLen => "UDP length invalid".toList
  | .badGtpuLen => "GTP-U length invalid".toList
  | .badGtpuExtLen => "GTP-U extension header length 0".toList
  | .badGtpuExt => "GTP-U extension header invalid".toList
  | .badGtpuInner => "G-PDU payload not IPv4 or IPv6".toList
  | .badGtpuInnerShort => "G-PDU payload too short for IP header".toList

/-- `pcap_status_str` -/
def pcapStatusStr : PcapStatus → Text
  | .ok => "ok".toList
  | .eof => "end of file".toList
  | .errOpen => "cannot open file".toList
  | .errIo => "read error".toList
  | .errNomem => "out of memory".toList
  | .errShortHeader => "file too short for a pcap global header".toList
  | .errBadMagic => "not a pcap file (unknown magic number)".toList
  | .errPcapng =>
      "pcapng files are not supported (convert with: editcap -F pcap in.pcapng out.pcap)".toList
  | .errBadVersion => "unsupported pcap version (expected 2.4)".toList
  | .errBadLinktype => "unsupported link type (only Ethernet, linktype 1, is supported)".toList
  | .errTruncRecordHdr => "truncated file: record header cut short".toList
  | .errTruncRecord => "truncated file: packet data cut short".toList
  | .errBadCaplen => "corrupt record: captured length exceeds 262144 bytes".toList

/-! ### Lines -/

/-- The texts of floating-point numbers. -/
structure FloatTexts where
  /-- `%.1f` of `pct(part, whole)` -/
  pct : (part whole : UInt64) → Text
  /-- `%.1f` of the packets per second -/
  packetRate : (packets spanNs : UInt64) → Text
  /-- `%.3f` of the megabits per second -/
  bitRate : (wireBytes spanNs : UInt64) → Text

/-- `%PRIu64` -/
def printU64 (n : UInt64) : Text := decimal n.toNat

/-- A line for every reason that occurred, with its name in a column of `width`. -/
def problemLines (indent : Text) (width : ℕ) (byStatus : ByStatus) : Text :=
  DecodeStatus.all.tail.flatMap fun st =>
    if byStatus st > 0 then
      indent ++ (decodeStatusStr st).rightpad width ' ' ++ ' ' :: (printU64 (byStatus st) ++ ['\n'])
    else []

/-- `First`, `Last` and `Duration` -/
def timeLines (floats : FloatTexts) (s : Stats) (spanNs : UInt64) : Text :=
  "First:       ".toList ++ printUtc s.firstTsNs ++ "\nLast:        ".toList ++ printUtc s.lastTsNs ++
    "\nDuration:    ".toList ++ printU64 (spanNs / nsPerSec) ++
    '.' :: (zeroPadded 6 (decimal (spanNs % nsPerSec / 1000).toNat) ++ " s".toList) ++
    -- `secs > 0`
    (if spanNs ≠ 0 then
      " (".toList ++ floats.packetRate s.packets spanNs ++ " packets/s, ".toList ++
        floats.bitRate s.wireBytes spanNs ++ " Mbit/s)".toList
    else []) ++ ['\n']

def reportSummary (floats : FloatTexts) (path : Text) (info : PcapFileInfo) (s : Stats) (flowCount : ℕ) : Text :=
  let spanNs := if s.packets ≠ 0 then s.lastTsNs - s.firstTsNs else 0
  let share (part : UInt64) : Text := " (".toList ++ floats.pct part s.packets ++ "%)".toList
  "File:        ".toList ++ path ++ ['\n'] ++
    "Format:      pcap ".toList ++ decimal info.versionMajor.toNat ++ '.' :: decimal info.versionMinor.toNat ++
    ", ".toList ++ (if info.bigEndian then "big" else "little").toList ++ "-endian, ".toList ++
    (if info.nsec then "nanosecond" else "microsecond").toList ++ " timestamps, snaplen ".toList ++
    decimal info.snaplen.toNat ++ ", Ethernet\n".toList ++
    "Packets:     ".toList ++ printU64 s.packets ++ ['\n'] ++
    "Bytes:       ".toList ++ printU64 s.wireBytes ++ " on the wire, ".toList ++ printU64 s.capturedBytes ++
    " captured\n".toList ++
    (if s.packets > 0 then timeLines floats s spanNs else []) ++
    "\nNetwork:     IPv4 ".toList ++ printU64 s.ipv4 ++ share s.ipv4 ++ ", IPv6 ".toList ++ printU64 s.ipv6 ++
    share s.ipv6 ++ ", non-IP ".toList ++ printU64 s.nonIp ++ share s.nonIp ++ ['\n'] ++
    "Transport:   TCP ".toList ++ printU64 s.tcp ++ ", UDP ".toList ++ printU64 s.udp ++ ", ICMP ".toList ++
    printU64 s.icmp ++ ", ICMPv6 ".toList ++ printU64 s.icmpv6 ++ ", other ".toList ++ printU64 s.otherL4 ++ ['\n'] ++
    "VLAN:        ".toList ++ printU64 s.vlanTagged ++ " tagged frames\n".toList ++
    "Fragments:   ".toList ++ printU64 s.fragFirst ++ " first, ".toList ++ printU64 s.fragLater ++
    " non-first (".toList ++ printU64 s.fragMatched ++ " matched to their first fragment's ports)\n".toList ++
    "Flows:       ".toList ++ decimal flowCount ++ ['\n'] ++
    "Problems:    ".toList ++ printU64 s.truncated ++ " truncated, ".toList ++ printU64 s.malformed ++
    " malformed (excluded from flows)\n".toList ++
    problemLines "  ".toList 40 s.byStatus

/-- What `report_gtpu` prints, if there is something to tell. -/
def gtpuLines (g : GtpuStats) (tunnelCount teids : ℕ) : Text :=
  "\nGTP-U:       ".toList ++ printU64 g.packets ++ " packets on UDP port ".toList ++ decimal gtpuPort.toNat ++
    "\n  Messages:  G-PDU ".toList ++ printU64 g.gpdu ++ ", echo request ".toList ++ printU64 g.echoRequest ++
    ", echo response ".toList ++ printU64 g.echoResponse ++ ", error indication ".toList ++
    printU64 g.errorIndication ++ ", end marker ".toList ++ printU64 g.endMarker ++ ", other ".toList ++
    printU64 g.otherType ++
    "\n  Options:   sequence number in ".toList ++ printU64 g.withSeq ++ ", extension headers in ".toList ++
    printU64 g.withExt ++
    "\n  Inner IP:  IPv4 ".toList ++ printU64 g.innerIpv4 ++ ", IPv6 ".toList ++ printU64 g.innerIpv6 ++
    "; TCP ".toList ++ printU64 g.innerTcp ++ ", UDP ".toList ++ printU64 g.innerUdp ++ ", ICMP ".toList ++
    printU64 g.innerIcmp ++ ", ICMPv6 ".toList ++ printU64 g.innerIcmpv6 ++ ", other ".toList ++
    printU64 g.innerOther ++
    "\n  Tunnels:   ".toList ++ decimal tunnelCount ++ " (".toList ++ decimal teids ++
    " distinct TEIDs)".toList ++
    "\n  Skipped:   ".toList ++ printU64 g.notV1u ++ " GTP' or other version, ".toList ++ printU64 g.nested ++
    " GTP-U in GTP-U, ".toList ++ printU64 g.fragmented ++ " fragmented datagrams on port ".toList ++
    decimal gtpuPort.toNat ++
    "\n  Problems:  ".toList ++ printU64 (g.truncated - g.userTruncated) ++ " truncated, ".toList ++
    printU64 (g.malformed - g.userMalformed) ++ " malformed in GTP-U headers (not added to tunnels)\n".toList ++
    "             ".toList ++ printU64 g.userTruncated ++ " truncated, ".toList ++ printU64 g.userMalformed ++
    " malformed in user packets (still added to tunnels)\n".toList ++
    problemLines "    ".toList 38 g.byStatus

/-- `report_gtpu`: what it prints, or `none` when it returns -1. -/
def reportGtpu (qsort : Qsort) (s : Stats) (tunnels : FlowTable) (ok : Bool) : Option Text :=
  if s.gtpu.packets = 0 ∧ s.gtpu.fragmented = 0 then some []
  else (flowTableDistinctTeids qsort tunnels ok).map (gtpuLines s.gtpu tunnels.count)

end Pcapstat
