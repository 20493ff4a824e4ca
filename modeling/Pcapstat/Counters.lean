import Pcapstat.Run

/-! # Counters as tallies

Every counter of `stats_add` counts the packets with a certain property (`Counter.hits`), so
that after a run it is the number of these packets modulo `2 ^ 64` (`AccountedAll.counter`).
Equations between counters then follow from equations about a single packet
(`tallies_eq`, `tallies_le`). -/

namespace Pcapstat

/-- 1 if `b` holds. -/
def tick (b : Bool) : UInt64 := if b then 1 else 0

@[simp] theorem tick_true : tick true = 1 := rfl

@[simp] theorem tick_false : tick false = 0 := rfl

/-! ### What is counted -/

namespace PacketInfo

/-- Is a problem counted as a truncation? -/
def truncated (st : DecodeStatus) : Bool := st ≠ .ok && decodeStatusIsTruncation st

/-- Is a problem counted as malformed? -/
def malformed (st : DecodeStatus) : Bool := st ≠ .ok && !decodeStatusIsTruncation st

/-- Is the status one of a broken extension chain? -/
def chainBroken (st : DecodeStatus) : Bool := st = .truncIpv6Ext || st = .badIpv6Ext

/-- Does the frame carry something other than IP? -/
def otherType (pi : PacketInfo) : Bool :=
  pi.hasL2 && pi.ethertype ≠ ethertypeIpv4 && pi.ethertype ≠ ethertypeIpv6

/-- Is the frame counted as non-IP? -/
def nonIp (pi : PacketInfo) : Bool := !pi.hasL3 && pi.otherType

/-- Is the transport protocol counted? -/
def transportKnown (pi : PacketInfo) : Bool := pi.hasL3 && !chainBroken pi.status

/-- Is the packet the first fragment of a GTP-U datagram? -/
def gtpuFragment (pi : PacketInfo) : Bool := pi.frag = .first && decodeIsGtpuPort pi

/-- Is the GTP-U message counted? -/
def gtpuSeen (pi : PacketInfo) : Bool := !pi.gtpuFragment && pi.isGtpu

/-- Is the GTPv1-U header counted? -/
def v1uSeen (pi : PacketInfo) : Bool := pi.gtpuSeen && pi.gtpV1u

/-- Is there a user packet whose transport protocol is known? -/
def userTransport (pi : PacketInfo) : Bool := pi.hasInner && !chainBroken pi.gtpStatus

/-- Is the message of a type that is counted by itself? -/
def namedType (type : UInt8) : Bool :=
  type = gtpuMsgGpdu || type = gtpuMsgEchoRequest || type = gtpuMsgEchoResponse ||
    type = gtpuMsgErrorIndication || type = gtpuMsgEndMarker

end PacketInfo

open PacketInfo

/-! ### Closed forms -/

theorem Stats.addFrame_eq (s : Stats) (pi : PacketInfo) (caplen wirelen : UInt32) (ts : UInt64) :
    s.addFrame pi caplen wirelen ts =
      { s with
        packets := s.packets + 1
        wireBytes := s.wireBytes + wirelen.toUInt64
        capturedBytes := s.capturedBytes + caplen.toUInt64
        firstTsNs := if s.packets = 0 || ts < s.firstTsNs then ts else s.firstTsNs
        lastTsNs := if s.packets = 0 || ts > s.lastTsNs then ts else s.lastTsNs
        vlanTagged := s.vlanTagged + tick (pi.vlanCount > 0)
        truncated := s.truncated + tick (PacketInfo.truncated pi.status)
        malformed := s.malformed + tick (PacketInfo.malformed pi.status)
        byStatus := s.byStatus.bump pi.status } := by
  unfold Stats.addFrame PacketInfo.truncated PacketInfo.malformed
  generalize (decide (s.packets = 0) || decide (ts < s.firstTsNs)) = early
  generalize hlate : (decide (s.packets = 0) || decide (ts > s.lastTsNs)) = late
  obtain htag | htag := Nat.eq_zero_or_pos pi.vlanCount <;> by_cases hst : pi.status = .ok <;>
    cases decodeStatusIsTruncation pi.status <;> cases early <;> cases late <;>
    simp [hst, hlate, htag]

theorem Stats.addIp_eq (s : Stats) (pi : PacketInfo) :
    s.addIp pi =
      { s with
        nonIp := s.nonIp + tick pi.nonIp
        ipv4 := s.ipv4 + tick (pi.hasL3 && pi.ipVersion = 4)
        ipv6 := s.ipv6 + tick (pi.hasL3 && pi.ipVersion ≠ 4)
        fragFirst := s.fragFirst + tick (pi.hasL3 && pi.frag = .first)
        fragLater := s.fragLater + tick (pi.hasL3 && pi.frag = .later)
        tcp := s.tcp + tick (pi.transportKnown && pi.ipProto = ipprotoTcp)
        udp := s.udp + tick (pi.transportKnown && pi.ipProto = ipprotoUdp)
        icmp := s.icmp + tick (pi.transportKnown && pi.ipProto = ipprotoIcmp)
        icmpv6 := s.icmpv6 + tick (pi.transportKnown && pi.ipProto = ipprotoIcmpv6)
        otherL4 := s.otherL4 + tick (pi.transportKnown && !isTransport pi.ipProto) } := by
  have hchain : (decide (pi.status = .truncIpv6Ext) || decide (pi.status = .badIpv6Ext)) =
    chainBroken pi.status := rfl
  have hother : (pi.hasL2 && decide (pi.ethertype ≠ ethertypeIpv4) &&
    decide (pi.ethertype ≠ ethertypeIpv6)) = pi.otherType := rfl
  simp only [Stats.addIp, PacketInfo.nonIp, PacketInfo.transportKnown, hchain, hother]
  cases hl3 : pi.hasL3 with
  | false => cases pi.otherType <;> simp
  | true =>
      cases chainBroken pi.status with
      | true => cases hfrag : pi.frag <;> by_cases hv : pi.ipVersion = 4 <;> simp [hv]
      | false =>
          by_cases htcp : pi.ipProto = ipprotoTcp
          · cases hfrag : pi.frag <;> by_cases hv : pi.ipVersion = 4 <;>
              simp [hv, htcp, isTransport, ipprotoTcp, ipprotoUdp, ipprotoIcmp, ipprotoIcmpv6]
          by_cases hudp : pi.ipProto = ipprotoUdp
          · cases hfrag : pi.frag <;> by_cases hv : pi.ipVersion = 4 <;>
              simp [hv, hudp, isTransport, ipprotoTcp, ipprotoUdp, ipprotoIcmp, ipprotoIcmpv6]
          by_cases hicmp : pi.ipProto = ipprotoIcmp
          · cases hfrag : pi.frag <;> by_cases hv : pi.ipVersion = 4 <;>
              simp [hv, hicmp, isTransport, ipprotoTcp, ipprotoUdp, ipprotoIcmp, ipprotoIcmpv6]
          by_cases hicmp6 : pi.ipProto = ipprotoIcmpv6
          · cases hfrag : pi.frag <;> by_cases hv : pi.ipVersion = 4 <;>
              simp [hv, hicmp6, isTransport, ipprotoTcp, ipprotoUdp, ipprotoIcmp, ipprotoIcmpv6]
          cases hfrag : pi.frag <;> by_cases hv : pi.ipVersion = 4 <;>
            simp [hv, htcp, hudp, hicmp, hicmp6, isTransport]

theorem GtpuStats.addVerdict_eq (g : GtpuStats) (pi : PacketInfo) :
    g.addVerdict pi =
      { g with
        packets := g.packets + 1
        byStatus := g.byStatus.bump pi.gtpStatus
        truncated := g.truncated + tick (PacketInfo.truncated pi.gtpStatus)
        userTruncated := g.userTruncated + tick (PacketInfo.truncated pi.gtpStatus && pi.gtpMsgOk)
        malformed := g.malformed + tick (PacketInfo.malformed pi.gtpStatus)
        userMalformed := g.userMalformed + tick (PacketInfo.malformed pi.gtpStatus && pi.gtpMsgOk) } := by
  unfold GtpuStats.addVerdict PacketInfo.truncated PacketInfo.malformed
  by_cases hst : pi.gtpStatus = .ok <;> cases decodeStatusIsTruncation pi.gtpStatus <;>
    cases pi.gtpMsgOk <;> simp [hst]

theorem GtpuStats.addHeader_eq (g : GtpuStats) (pi : PacketInfo) :
    g.addHeader pi =
      { g with
        gpdu := g.gpdu + tick (pi.gtpMsgType = gtpuMsgGpdu)
        echoRequest := g.echoRequest + tick (pi.gtpMsgType = gtpuMsgEchoRequest)
        echoResponse := g.echoResponse + tick (pi.gtpMsgType = gtpuMsgEchoResponse)
        errorIndication := g.errorIndication + tick (pi.gtpMsgType = gtpuMsgErrorIndication)
        endMarker := g.endMarker + tick (pi.gtpMsgType = gtpuMsgEndMarker)
        otherType := g.otherType + tick (!namedType pi.gtpMsgType)
        withSeq := g.withSeq + tick (pi.gtpFlags &&& gtpuFlagS ≠ 0)
        withExt := g.withExt + tick (pi.gtpExtCount > 0) } := by
  unfold GtpuStats.addHeader namedType
  generalize pi.gtpMsgType = type
  obtain hext | hext := Nat.eq_zero_or_pos pi.gtpExtCount <;> by_cases hs : pi.gtpFlags &&& gtpuFlagS = 0 <;>
    simp only [hext, hs, ne_eq, not_true, not_false_eq_true, if_true, if_false, gt_iff_lt, lt_irrefl,
      decide_true, decide_false, tick_true, tick_false, UInt64.add_zero]
  all_goals
    obtain rfl | h₁ := eq_or_ne type gtpuMsgGpdu
    · simp [gtpuMsgGpdu, gtpuMsgEchoRequest, gtpuMsgEchoResponse, gtpuMsgErrorIndication, gtpuMsgEndMarker]
    obtain rfl | h₂ := eq_or_ne type gtpuMsgEchoRequest
    · simp [gtpuMsgGpdu, gtpuMsgEchoRequest, gtpuMsgEchoResponse, gtpuMsgErrorIndication, gtpuMsgEndMarker]
    obtain rfl | h₃ := eq_or_ne type gtpuMsgEchoResponse
    · simp [gtpuMsgGpdu, gtpuMsgEchoRequest, gtpuMsgEchoResponse, gtpuMsgErrorIndication, gtpuMsgEndMarker]
    obtain rfl | h₄ := eq_or_ne type gtpuMsgErrorIndication
    · simp [gtpuMsgGpdu, gtpuMsgEchoRequest, gtpuMsgEchoResponse, gtpuMsgErrorIndication, gtpuMsgEndMarker]
    obtain rfl | h₅ := eq_or_ne type gtpuMsgEndMarker
    · simp [gtpuMsgGpdu, gtpuMsgEchoRequest, gtpuMsgEchoResponse, gtpuMsgErrorIndication, gtpuMsgEndMarker]
    simp [h₁, h₂, h₃, h₄, h₅]

theorem GtpuStats.addInner_eq (g : GtpuStats) (pi : PacketInfo) :
    g.addInner pi =
      { g with
        innerIpv4 := g.innerIpv4 + tick (pi.hasInner && pi.innerVersion = 4)
        innerIpv6 := g.innerIpv6 + tick (pi.hasInner && pi.innerVersion ≠ 4)
        innerTcp := g.innerTcp + tick (pi.userTransport && pi.innerProto = ipprotoTcp)
        innerUdp := g.innerUdp + tick (pi.userTransport && pi.innerProto = ipprotoUdp)
        innerIcmp := g.innerIcmp + tick (pi.userTransport && pi.innerProto = ipprotoIcmp)
        innerIcmpv6 := g.innerIcmpv6 + tick (pi.userTransport && pi.innerProto = ipprotoIcmpv6)
        innerOther := g.innerOther + tick (pi.userTransport && !isTransport pi.innerProto)
        nested := g.nested + tick (pi.userTransport && pi.gtpNested) } := by
  have hchain : (decide (pi.gtpStatus = .truncIpv6Ext) || decide (pi.gtpStatus = .badIpv6Ext)) =
    chainBroken pi.gtpStatus := rfl
  simp only [GtpuStats.addInner, PacketInfo.userTransport, hchain]
  cases pi.hasInner with
  | false => simp
  | true =>
      cases chainBroken pi.gtpStatus with
      | true => by_cases hv : pi.innerVersion = 4 <;> simp [hv]
      | false =>
          generalize pi.innerProto = proto
          by_cases hv : pi.innerVersion = 4 <;> cases pi.gtpNested <;>
            simp only [hv, Bool.not_true, Bool.not_false, Bool.and_true, Bool.true_and, Bool.and_false,
              Bool.false_eq_true, if_false, if_true, ne_eq, not_true, not_false_eq_true, decide_true,
              decide_false, tick_true, tick_false, UInt64.add_zero]
          all_goals
            obtain rfl | h₁ := eq_or_ne proto ipprotoTcp
            · simp [isTransport, ipprotoTcp, ipprotoUdp, ipprotoIcmp, ipprotoIcmpv6]
            obtain rfl | h₂ := eq_or_ne proto ipprotoUdp
            · simp [isTransport, ipprotoTcp, ipprotoUdp, ipprotoIcmp, ipprotoIcmpv6]
            obtain rfl | h₃ := eq_or_ne proto ipprotoIcmp
            · simp [isTransport, ipprotoTcp, ipprotoUdp, ipprotoIcmp, ipprotoIcmpv6]
            obtain rfl | h₄ := eq_or_ne proto ipprotoIcmpv6
            · simp [isTransport, ipprotoTcp, ipprotoUdp, ipprotoIcmp, ipprotoIcmpv6]
            simp [isTransport, h₁, h₂, h₃, h₄]

theorem ByStatus.bump_apply (b : ByStatus) (st st' : DecodeStatus) :
    b.bump st st' = b st' + tick (st = st') := by
  by_cases h : st = st'
  · subst h
    rw [ByStatus.bump, Function.update_self, decide_eq_true rfl, tick_true]
  · rw [ByStatus.bump, Function.update_of_ne (Ne.symm h), decide_eq_false h, tick_false, UInt64.add_zero]

theorem ByStatus.bump_eq (b : ByStatus) (st : DecodeStatus) :
    b.bump st = fun st' => b st' + tick (st = st') := funext (b.bump_apply st)

theorem addGtpu_eq (g : GtpuStats) (pi : PacketInfo) :
    addGtpu g pi =
      { packets := g.packets + tick pi.gtpuSeen
        fragmented := g.fragmented + tick pi.gtpuFragment
        notV1u := g.notV1u + tick (pi.gtpuSeen && (!pi.gtpV1u && pi.gtpStatus = .ok))
        gpdu := g.gpdu + tick (pi.v1uSeen && pi.gtpMsgType = gtpuMsgGpdu)
        echoRequest := g.echoRequest + tick (pi.v1uSeen && pi.gtpMsgType = gtpuMsgEchoRequest)
        echoResponse := g.echoResponse + tick (pi.v1uSeen && pi.gtpMsgType = gtpuMsgEchoResponse)
        errorIndication := g.errorIndication +
          tick (pi.v1uSeen && pi.gtpMsgType = gtpuMsgErrorIndication)
        endMarker := g.endMarker + tick (pi.v1uSeen && pi.gtpMsgType = gtpuMsgEndMarker)
        otherType := g.otherType + tick (pi.v1uSeen && !namedType pi.gtpMsgType)
        withSeq := g.withSeq + tick (pi.v1uSeen && pi.gtpFlags &&& gtpuFlagS ≠ 0)
        withExt := g.withExt + tick (pi.v1uSeen && pi.gtpExtCount > 0)
        innerIpv4 := g.innerIpv4 + tick (pi.v1uSeen && (pi.hasInner && pi.innerVersion = 4))
        innerIpv6 := g.innerIpv6 + tick (pi.v1uSeen && (pi.hasInner && pi.innerVersion ≠ 4))
        innerTcp := g.innerTcp + tick (pi.v1uSeen && (pi.userTransport && pi.innerProto = ipprotoTcp))
        innerUdp := g.innerUdp + tick (pi.v1uSeen && (pi.userTransport && pi.innerProto = ipprotoUdp))
        innerIcmp := g.innerIcmp + tick (pi.v1uSeen && (pi.userTransport && pi.innerProto = ipprotoIcmp))
        innerIcmpv6 := g.innerIcmpv6 +
          tick (pi.v1uSeen && (pi.userTransport && pi.innerProto = ipprotoIcmpv6))
        innerOther := g.innerOther + tick (pi.v1uSeen && (pi.userTransport && !isTransport pi.innerProto))
        nested := g.nested + tick (pi.v1uSeen && (pi.userTransport && pi.gtpNested))
        truncated := g.truncated + tick (pi.gtpuSeen && PacketInfo.truncated pi.gtpStatus)
        malformed := g.malformed + tick (pi.gtpuSeen && PacketInfo.malformed pi.gtpStatus)
        userTruncated := g.userTruncated +
          tick (pi.gtpuSeen && (PacketInfo.truncated pi.gtpStatus && pi.gtpMsgOk))
        userMalformed := g.userMalformed +
          tick (pi.gtpuSeen && (PacketInfo.malformed pi.gtpStatus && pi.gtpMsgOk))
        byStatus := fun st => g.byStatus st + tick (pi.gtpuSeen && pi.gtpStatus = st) } := by
  have hfrag : (decide (pi.frag = .first) && decodeIsGtpuPort pi) = pi.gtpuFragment := rfl
  have hverdict := g.addVerdict_eq pi
  simp only [ByStatus.bump_eq] at hverdict
  simp only [addGtpu, hfrag, PacketInfo.v1uSeen, PacketInfo.gtpuSeen, GtpuStats.addInner_eq,
    GtpuStats.addHeader_eq, hverdict]
  cases pi.gtpuFragment with
  | true => simp
  | false =>
      cases pi.isGtpu with
      | false => simp
      | true =>
          cases pi.gtpV1u with
          | true => simp
          | false => by_cases hst : pi.gtpStatus = .ok <;> simp [hst]

/-! ### Counters -/

/-- The counters of the capture that count packets. -/
inductive Counter where
  | packets | ipv4 | ipv6 | nonIp | vlanTagged | tcp | udp | icmp | icmpv6 | otherL4 | fragFirst
  | fragLater | fragMatched | truncated | malformed
  | byStatus (st : DecodeStatus)
  | gtpPackets | fragmented | notV1u | gpdu | echoRequest | echoResponse | errorIndication | endMarker
  | otherType | withSeq | withExt | innerIpv4 | innerIpv6 | innerTcp | innerUdp | innerIcmp
  | innerIcmpv6 | innerOther | nested | gtpTruncated | gtpMalformed | userTruncated | userMalformed
  | gtpByStatus (st : DecodeStatus)
deriving DecidableEq, Repr

namespace Counter

/-- The value of a counter. -/
def get (s : Stats) : Counter → UInt64
  | packets => s.packets
  | ipv4 => s.ipv4
  | ipv6 => s.ipv6
  | nonIp => s.nonIp
  | vlanTagged => s.vlanTagged
  | tcp => s.tcp
  | udp => s.udp
  | icmp => s.icmp
  | icmpv6 => s.icmpv6
  | otherL4 => s.otherL4
  | fragFirst => s.fragFirst
  | fragLater => s.fragLater
  | fragMatched => s.fragMatched
  | truncated => s.truncated
  | malformed => s.malformed
  | byStatus st => s.byStatus st
  | gtpPackets => s.gtpu.packets
  | fragmented => s.gtpu.fragmented
  | notV1u => s.gtpu.notV1u
  | gpdu => s.gtpu.gpdu
  | echoRequest => s.gtpu.echoRequest
  | echoResponse => s.gtpu.echoResponse
  | errorIndication => s.gtpu.errorIndication
  | endMarker => s.gtpu.endMarker
  | otherType => s.gtpu.otherType
  | withSeq => s.gtpu.withSeq
  | withExt => s.gtpu.withExt
  | innerIpv4 => s.gtpu.innerIpv4
  | innerIpv6 => s.gtpu.innerIpv6
  | innerTcp => s.gtpu.innerTcp
  | innerUdp => s.gtpu.innerUdp
  | innerIcmp => s.gtpu.innerIcmp
  | innerIcmpv6 => s.gtpu.innerIcmpv6
  | innerOther => s.gtpu.innerOther
  | nested => s.gtpu.nested
  | gtpTruncated => s.gtpu.truncated
  | gtpMalformed => s.gtpu.malformed
  | userTruncated => s.gtpu.userTruncated
  | userMalformed => s.gtpu.userMalformed
  | gtpByStatus st => s.gtpu.byStatus st

/-- Is the packet counted? -/
def hits (s : Seen) : Counter → Bool
  | packets => true
  | ipv4 => s.pi.hasL3 && s.pi.ipVersion = 4
  | ipv6 => s.pi.hasL3 && s.pi.ipVersion ≠ 4
  | nonIp => s.pi.nonIp
  | vlanTagged => s.pi.vlanCount > 0
  | tcp => s.pi.transportKnown && s.pi.ipProto = ipprotoTcp
  | udp => s.pi.transportKnown && s.pi.ipProto = ipprotoUdp
  | icmp => s.pi.transportKnown && s.pi.ipProto = ipprotoIcmp
  | icmpv6 => s.pi.transportKnown && s.pi.ipProto = ipprotoIcmpv6
  | otherL4 => s.pi.transportKnown && !isTransport s.pi.ipProto
  | fragFirst => s.pi.hasL3 && s.pi.frag = .first
  | fragLater => s.pi.hasL3 && s.pi.frag = .later
  | fragMatched => s.matched
  | truncated => PacketInfo.truncated s.pi.status
  | malformed => PacketInfo.malformed s.pi.status
  | byStatus st => s.pi.status = st
  | gtpPackets => s.pi.gtpuSeen
  | fragmented => s.pi.gtpuFragment
  | notV1u => s.pi.gtpuSeen && (!s.pi.gtpV1u && s.pi.gtpStatus = .ok)
  | gpdu => s.pi.v1uSeen && s.pi.gtpMsgType = gtpuMsgGpdu
  | echoRequest => s.pi.v1uSeen && s.pi.gtpMsgType = gtpuMsgEchoRequest
  | echoResponse => s.pi.v1uSeen && s.pi.gtpMsgType = gtpuMsgEchoResponse
  | errorIndication => s.pi.v1uSeen && s.pi.gtpMsgType = gtpuMsgErrorIndication
  | endMarker => s.pi.v1uSeen && s.pi.gtpMsgType = gtpuMsgEndMarker
  | otherType => s.pi.v1uSeen && !namedType s.pi.gtpMsgType
  | withSeq => s.pi.v1uSeen && s.pi.gtpFlags &&& gtpuFlagS ≠ 0
  | withExt => s.pi.v1uSeen && s.pi.gtpExtCount > 0
  | innerIpv4 => s.pi.v1uSeen && (s.pi.hasInner && s.pi.innerVersion = 4)
  | innerIpv6 => s.pi.v1uSeen && (s.pi.hasInner && s.pi.innerVersion ≠ 4)
  | innerTcp => s.pi.v1uSeen && (s.pi.userTransport && s.pi.innerProto = ipprotoTcp)
  | innerUdp => s.pi.v1uSeen && (s.pi.userTransport && s.pi.innerProto = ipprotoUdp)
  | innerIcmp => s.pi.v1uSeen && (s.pi.userTransport && s.pi.innerProto = ipprotoIcmp)
  | innerIcmpv6 => s.pi.v1uSeen && (s.pi.userTransport && s.pi.innerProto = ipprotoIcmpv6)
  | innerOther => s.pi.v1uSeen && (s.pi.userTransport && !isTransport s.pi.innerProto)
  | nested => s.pi.v1uSeen && (s.pi.userTransport && s.pi.gtpNested)
  | gtpTruncated => s.pi.gtpuSeen && PacketInfo.truncated s.pi.gtpStatus
  | gtpMalformed => s.pi.gtpuSeen && PacketInfo.malformed s.pi.gtpStatus
  | userTruncated => s.pi.gtpuSeen && (PacketInfo.truncated s.pi.gtpStatus && s.pi.gtpMsgOk)
  | userMalformed => s.pi.gtpuSeen && (PacketInfo.malformed s.pi.gtpStatus && s.pi.gtpMsgOk)
  | gtpByStatus st => s.pi.gtpuSeen && s.pi.gtpStatus = st

end Counter

/-- **Every counter counts the packets that hit it.** -/
theorem Seen.count_get (s : Seen) (st : Stats) (c : Counter) :
    c.get (s.count st) = c.get st + tick (c.hits s) := by
  have hmatched : (if s.matched then { st with fragMatched := st.fragMatched + 1 } else st) =
      { st with fragMatched := st.fragMatched + tick s.matched } := by
    cases s.matched <;> simp
  rw [Seen.count, statsAdd, hmatched, Stats.addIp_eq, Stats.addFrame_eq, addGtpu_eq, ByStatus.bump_eq]
  cases c <;> rfl

theorem Seen.count_bytes (s : Seen) (st : Stats) :
    (s.count st).wireBytes = st.wireBytes + s.wirelen.toUInt64 ∧
      (s.count st).capturedBytes = st.capturedBytes + s.caplen.toUInt64 := by
  rw [Seen.count, statsAdd, Stats.addIp_eq, Stats.addFrame_eq]
  cases s.matched <;> exact ⟨rfl, rfl⟩

/-! ### Whole runs -/

/-- How many packets hit a counter. -/
def tally (ps : List Seen) (c : Counter) : ℕ := ps.countP fun s => c.hits s

theorem ofNat_add_tick (n : ℕ) (b : Bool) :
    UInt64.ofNat (n + if b then 1 else 0) = UInt64.ofNat n + tick b := by
  cases b with
  | false => rw [tick_false, UInt64.add_zero]; rfl
  | true => exact UInt64.ofNat_add n 1

theorem counter_foldl (c : Counter) : ∀ (ps : List Seen) (st : Stats),
    c.get (ps.foldl (fun st s => s.count st) st) = c.get st + UInt64.ofNat (tally ps c)
  | [], st => (UInt64.add_zero _).symm
  | s :: ps, st => by
      rw [List.foldl_cons, counter_foldl c ps, Seen.count_get, tally, tally, List.countP_cons,
        ofNat_add_tick, UInt64.add_assoc, UInt64.add_comm (tick _)]

theorem bytes_foldl : ∀ (ps : List Seen) (st : Stats),
    (ps.foldl (fun st s => s.count st) st).wireBytes =
        st.wireBytes + UInt64.ofNat (ps.map fun s => s.wirelen.toNat).sum ∧
      (ps.foldl (fun st s => s.count st) st).capturedBytes =
        st.capturedBytes + UInt64.ofNat (ps.map fun s => s.caplen.toNat).sum
  | [], st => ⟨(UInt64.add_zero _).symm, (UInt64.add_zero _).symm⟩
  | s :: ps, st => by
      obtain ⟨hw, hc⟩ := bytes_foldl ps (s.count st)
      rw [List.foldl_cons, hw, hc, (s.count_bytes st).1, (s.count_bytes st).2, List.map_cons,
        List.map_cons, List.sum_cons, List.sum_cons, UInt64.ofNat_add, UInt64.ofNat_add,
        UInt64.ofNat_uInt32ToNat, UInt64.ofNat_uInt32ToNat, UInt64.add_assoc, UInt64.add_assoc]
      exact ⟨rfl, rfl⟩

section run

variable {w : ℕ} {a a' : Analysis} {fs : List Frame}

/-- **After a run every counter is a tally, modulo `2 ^ 64`.** -/
theorem AccountedAll.counter (h : AccountedAll w a fs a') (ha : Fresh w a) (c : Counter) :
    c.get a'.stats = UInt64.ofNat (tally (seenAll w a.frags fs) c) := by
  have hzero : c.get statsInit = 0 := by cases c <;> rfl
  rw [h.stats, counter_foldl, ha.stats, hzero, UInt64.zero_add]

theorem AccountedAll.bytes (h : AccountedAll w a fs a') (ha : Fresh w a) :
    a'.stats.wireBytes = UInt64.ofNat ((seenAll w a.frags fs).map fun s => s.wirelen.toNat).sum ∧
      a'.stats.capturedBytes = UInt64.ofNat ((seenAll w a.frags fs).map fun s => s.caplen.toNat).sum := by
  obtain ⟨hw, hc⟩ := bytes_foldl (seenAll w a.frags fs) a.stats
  rw [h.stats, hw, hc, ha.stats]
  exact ⟨UInt64.zero_add _, UInt64.zero_add _⟩

/-- The counters of a run over packets of a few kinds, however many there are of each. -/
theorem exists_tallied {ss few : List Seen} (hfew : few.length ≤ 10)
    (hseen : seenAll 64 ⟨some fun _ => {}⟩ fs = ss) (hkinds : ss ⊆ few) :
    ∃ a a', analysisInit 64 true true true = some (some a) ∧
      accountAll 64 (fun _ => ⟨true, true⟩) 0 a fs = some (a', true) ∧
      ∀ c : Counter, c.get a'.stats = UInt64.ofNat (tally ss c) := by
  obtain ⟨a, hinit⟩ := exists_init
  have ha := Fresh.of_init hinit
  rw [← ha.frags] at hseen
  obtain ⟨a', hrun⟩ : ∃ a', accountAll 64 (fun _ => ⟨true, true⟩) 0 a fs = some (a', true) :=
    ha.run_of_seen hfew (hseen ▸ hkinds)
  refine ⟨a, a', hinit, hrun, fun c => ?_⟩
  rw [(AccountedAll.of_run ha.inv hrun).counter ha, hseen]

end run

/-! ### Sums of counters -/

section sums

variable {ps : List Seen}

/-- How many of the counters `cs` a packet hits. -/
def Seen.hitsOf (s : Seen) (cs : List Counter) : ℕ := cs.countP fun c => c.hits s

/-- The sum of some tallies. -/
def tallies (ps : List Seen) (cs : List Counter) : ℕ := (cs.map (tally ps)).sum

theorem tallies_cons (s : Seen) (ps : List Seen) : ∀ cs : List Counter,
    tallies (s :: ps) cs = tallies ps cs + s.hitsOf cs
  | [] => rfl
  | c :: cs => by
      have ih := tallies_cons s ps cs
      simp only [tallies, List.map_cons, List.sum_cons, Seen.hitsOf, List.countP_cons, tally] at ih ⊢
      omega

theorem tallies_eq_sum (cs : List Counter) : ∀ ps : List Seen,
    tallies ps cs = (ps.map fun s => s.hitsOf cs).sum
  | [] => by
      have hzero : tally [] = fun _ => 0 := rfl
      simp [tallies, hzero]
  | s :: ps => by
      rw [tallies_cons, tallies_eq_sum cs ps, List.map_cons, List.sum_cons, Nat.add_comm]

/-- Sums of counters that agree on every packet agree on every run. -/
theorem tallies_eq {cs ds : List Counter} (h : ∀ s ∈ ps, s.hitsOf cs = s.hitsOf ds) :
    tallies ps cs = tallies ps ds := by
  rw [tallies_eq_sum, tallies_eq_sum, List.map_congr_left h]

theorem tallies_le {cs ds : List Counter} (h : ∀ s ∈ ps, s.hitsOf cs ≤ s.hitsOf ds) :
    tallies ps cs ≤ tallies ps ds := by
  rw [tallies_eq_sum, tallies_eq_sum]
  exact List.sum_le_sum h

/-- A sum of counters is a sum of tallies, modulo `2 ^ 64`. -/
theorem sum_get {st : Stats} (h : ∀ c : Counter, c.get st = UInt64.ofNat (tally ps c)) :
    ∀ cs : List Counter, (cs.map fun c => c.get st).sum = UInt64.ofNat (tallies ps cs)
  | [] => rfl
  | c :: cs => by
      rw [List.map_cons, List.sum_cons, sum_get h cs, h, ← UInt64.ofNat_add]
      rfl

end sums

end Pcapstat
