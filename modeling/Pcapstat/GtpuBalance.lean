import Pcapstat.Accounting
import Pcapstat.Balance

/-! # The GTP-U counters balance

As in `Balance.lean`, for the messages of GTP-U.  How far a message was decoded (`GtpuCase`)
decides which counters it hits. -/

namespace Pcapstat

open DecodeStatus PacketInfo

/-! ### Statuses -/

/-- The verdicts on a message whose headers are in order. -/
def afterHeaders : List DecodeStatus := .ok :: earlyInnerProblems ++ ipVerdicts

/-- Before the end of the headers, the problems are those of the headers. -/
theorem headers_split : ∀ {st : DecodeStatus}, st ∈ DecodeStatus.ok :: gtpuProblems →
    (PacketInfo.truncated st).toNat =
        (decide (st = .truncGtpu)).toNat + (decide (st = .truncGtpuExt)).toNat ∧
      (PacketInfo.malformed st).toNat = (decide (st = .badGtpuLen)).toNat +
        ((decide (st = .badGtpuExtLen)).toNat + (decide (st = .badGtpuExt)).toNat) := by
  decide

theorem afterHeaders_split : ∀ {st : DecodeStatus}, st ∈ afterHeaders →
    (decide (st = .truncGtpu)).toNat + (decide (st = .truncGtpuExt)).toNat = 0 ∧
      (decide (st = .badGtpuLen)).toNat + ((decide (st = .badGtpuExtLen)).toNat +
        (decide (st = .badGtpuExt)).toNat) = 0 := by
  decide

theorem ne_ok_of_problem : ∀ {st : DecodeStatus}, st ∈ gtpuProblems → st ≠ .ok := by decide

theorem ne_ok_of_earlyInner : ∀ {st : DecodeStatus}, st ∈ earlyInnerProblems → st ≠ .ok := by decide

theorem chain_of_problem : ∀ {st : DecodeStatus}, st ∈ gtpuProblems → chainBroken st = false := by decide

theorem chain_of_earlyInner : ∀ {st : DecodeStatus}, st ∈ earlyInnerProblems → chainBroken st = false := by
  decide

theorem type_one (type : UInt8) : (decide (type = gtpuMsgGpdu)).toNat +
    ((decide (type = gtpuMsgEchoRequest)).toNat + ((decide (type = gtpuMsgEchoResponse)).toNat +
      ((decide (type = gtpuMsgErrorIndication)).toNat + ((decide (type = gtpuMsgEndMarker)).toNat +
        (!namedType type).toNat)))) = 1 := by
  obtain rfl | h₁ := eq_or_ne type gtpuMsgGpdu
  · decide
  obtain rfl | h₂ := eq_or_ne type gtpuMsgEchoRequest
  · decide
  obtain rfl | h₃ := eq_or_ne type gtpuMsgEchoResponse
  · decide
  obtain rfl | h₄ := eq_or_ne type gtpuMsgErrorIndication
  · decide
  obtain rfl | h₅ := eq_or_ne type gtpuMsgEndMarker
  · decide
  simp [namedType, h₁, h₂, h₃, h₄, h₅]

/-! ### One message -/

/-- Either the headers were not finished, or they were in order. -/
theorem GtpuCase.phase {pi : PacketInfo} (h : GtpuCase pi) (hg : pi.isGtpu = true) :
    (pi.gtpMsgOk = false ∧ pi.gtpStatus ∈ DecodeStatus.ok :: gtpuProblems) ∨
      (pi.gtpMsgOk = true ∧ pi.gtpStatus ∈ afterHeaders) := by
  cases h with
  | absent hno _ => exact absurd (hno.symm.trans hg) Bool.false_ne_true
  | problem _ hst hmsg _ _ => exact .inl ⟨hmsg, List.mem_cons_of_mem _ hst⟩
  | signal _ hst _ _ _ =>
      rw [hst]
      cases pi.gtpMsgOk with
      | false => exact .inl ⟨rfl, List.mem_cons_self⟩
      | true => exact .inr ⟨rfl, List.mem_cons_self⟩
  | noUser _ hst hmsg _ _ _ =>
      exact .inr ⟨hmsg, List.mem_append_left _ (List.mem_cons_of_mem _ hst)⟩
  | user _ hst hmsg _ _ _ _ => exact .inr ⟨hmsg, List.mem_append_right _ hst⟩

/-- A G-PDU that was decoded without a problem. -/
def gpduOk (s : Seen) : Bool :=
  s.pi.isGtpu && s.pi.gtpV1u && s.pi.gtpMsgType = gtpuMsgGpdu && s.pi.gtpStatus = .ok

/-- A G-PDU whose headers are in order. -/
def gpduMsgOk (s : Seen) : Bool :=
  s.pi.isGtpu && s.pi.gtpV1u && s.pi.gtpMsgType = gtpuMsgGpdu && s.pi.gtpMsgOk

/-- The counters of the message types, and of messages that are not GTPv1-U. -/
def typeCounters : List Counter :=
  [.gpdu, .echoRequest, .echoResponse, .errorIndication, .endMarker, .otherType, .notV1u]

namespace Seen

theorem gtpu_eq_byStatus (s : Seen) :
    s.hitsOf [.gtpPackets] = s.hitsOf (all.map .gtpByStatus) := by
  have hone : ∀ st : DecodeStatus, all.countP (fun st' => st = st') = 1 := by decide
  have hsum : s.hitsOf (all.map .gtpByStatus) =
      all.countP fun st => s.pi.gtpuSeen && decide (s.pi.gtpStatus = st) := by
    rw [hitsOf, List.countP_map]
    rfl
  rw [hsum, hitsOf_cons, hitsOf_nil, Counter.hits]
  cases s.pi.gtpuSeen with
  | false => simp
  | true =>
      simp only [Bool.true_and, hone]
      rfl

theorem gtpu_eq_verdict (s : Seen) :
    s.hitsOf [.gtpPackets] = s.hitsOf [.gtpByStatus .ok, .gtpTruncated, .gtpMalformed] := by
  have hone := verdict_one s.pi.gtpStatus
  simp only [hitsOf_cons, hitsOf_nil, Counter.hits]
  cases s.pi.gtpuSeen with
  | false => rfl
  | true =>
      simp only [Bool.true_and, Bool.toNat_true]
      omega

namespace Decoded

variable {s : Seen}

theorem gtpuSeen_eq (h : s.Decoded) : s.pi.gtpuSeen = s.pi.isGtpu := by
  cases hg : s.pi.isGtpu with
  | false => rw [PacketInfo.gtpuSeen, hg, Bool.and_false]
  | true =>
      have htun := h.gtpu.tunnelled hg
      rw [PacketInfo.gtpuSeen, PacketInfo.gtpuFragment, htun.frag, hg]
      rfl

theorem v1uSeen_eq (h : s.Decoded) : s.pi.v1uSeen = (s.pi.isGtpu && s.pi.gtpV1u) := by
  rw [PacketInfo.v1uSeen, h.gtpuSeen_eq]

/-- A truncated message was cut in its headers or in its user packet. -/
theorem gtpu_truncated (h : s.Decoded) : s.hitsOf [.gtpTruncated] =
    s.hitsOf [.userTruncated, .gtpByStatus .truncGtpu, .gtpByStatus .truncGtpuExt] := by
  simp only [hitsOf_cons, hitsOf_nil, Counter.hits, h.gtpuSeen_eq]
  cases hg : s.pi.isGtpu with
  | false => rfl
  | true =>
      simp only [Bool.true_and]
      obtain ⟨hmsg, hst⟩ | ⟨hmsg, hst⟩ := h.gtpu.phase hg
      · have hsplit := (headers_split hst).1
        rw [hmsg, Bool.and_false, Bool.toNat_false]
        omega
      · have hsplit := (afterHeaders_split hst).1
        rw [hmsg, Bool.and_true]
        omega

theorem gtpu_malformed (h : s.Decoded) : s.hitsOf [.gtpMalformed] = s.hitsOf
    [.userMalformed, .gtpByStatus .badGtpuLen, .gtpByStatus .badGtpuExtLen, .gtpByStatus .badGtpuExt] := by
  simp only [hitsOf_cons, hitsOf_nil, Counter.hits, h.gtpuSeen_eq]
  cases hg : s.pi.isGtpu with
  | false => rfl
  | true =>
      simp only [Bool.true_and]
      obtain ⟨hmsg, hst⟩ | ⟨hmsg, hst⟩ := h.gtpu.phase hg
      · have hsplit := (headers_split hst).2
        rw [hmsg, Bool.and_false, Bool.toNat_false]
        omega
      · have hsplit := (afterHeaders_split hst).2
        rw [hmsg, Bool.and_true]
        omega

/-- A G-PDU with its headers in order has a good or a bad user packet. -/
theorem gpdu_split (h : s.Decoded) : (gpduMsgOk s).toNat = (gpduOk s).toNat +
    ((Counter.userTruncated.hits s).toNat + (Counter.userMalformed.hits s).toNat) := by
  have hone := verdict_one s.pi.gtpStatus
  simp only [gpduMsgOk, gpduOk, Counter.hits, h.gtpuSeen_eq]
  cases h.gtpu with
  | absent hg _ => simp [hg]
  | problem htun hst hmsg _ _ => simp [hmsg, ne_ok_of_problem hst]
  | signal htun hst _ _ hno =>
      have hno' : (s.pi.gtpV1u && decide (s.pi.gtpMsgType = gtpuMsgGpdu)) = false := by
        rw [Bool.and_eq_false_iff, decide_eq_false_iff_not]
        by_contra hc
        push Not at hc
        exact hno ⟨by simpa using hc.1, hc.2⟩
      simp [htun.isGtpu, hst, hno', PacketInfo.truncated, PacketInfo.malformed]
  | noUser htun hst hmsg hv htype _ =>
      rw [decide_eq_false (ne_ok_of_earlyInner hst), Bool.toNat_false] at hone
      simp only [htun.isGtpu, hmsg, hv, htype, decide_eq_false (ne_ok_of_earlyInner hst), decide_true,
        Bool.and_true, Bool.and_false, Bool.true_and, Bool.toNat_true, Bool.toNat_false]
      omega
  | user htun hst hmsg hv htype _ _ =>
      simp only [htun.isGtpu, hmsg, hv, htype, decide_true, Bool.and_true, Bool.true_and, Bool.toNat_true]
      omega

theorem gpduMsgOk_le (h : s.Decoded) : (gpduMsgOk s).toNat ≤ (Counter.gpdu.hits s).toNat := by
  simp only [gpduMsgOk, Counter.hits, h.v1uSeen_eq]
  cases s.pi.isGtpu <;> cases s.pi.gtpV1u <;> cases decide (s.pi.gtpMsgType = gtpuMsgGpdu) <;>
    cases s.pi.gtpMsgOk <;> decide

/-- A user packet has a transport protocol, or a broken extension chain. -/
theorem inner_eq_l4 (h : s.Decoded) : s.hitsOf [.innerIpv4, .innerIpv6] =
    s.hitsOf [.innerTcp, .innerUdp, .innerIcmp, .innerIcmpv6, .innerOther, .gtpByStatus .truncIpv6Ext,
      .gtpByStatus .badIpv6Ext] := by
  have hbroken := chainBroken_one s.pi.gtpStatus
  have hproto := proto_one s.pi.innerProto
  have hversion := version_one s.pi.innerVersion
  simp only [hitsOf_cons, hitsOf_nil, Counter.hits, h.v1uSeen_eq, h.gtpuSeen_eq, PacketInfo.userTransport]
  by_cases hnone : s.pi.hasInner = false ∧ (s.pi.isGtpu && chainBroken s.pi.gtpStatus) = false
  · -- neither a user packet nor a problem of its extension chain
    obtain ⟨hin, hch⟩ := hnone
    simp only [hin, Bool.false_and, Bool.and_false, Bool.toNat_false]
    cases hg : s.pi.isGtpu with
    | false => simp
    | true =>
        rw [hg, Bool.true_and] at hch
        rw [hch, Bool.toNat_false] at hbroken
        simp only [Bool.true_and]
        omega
  have hstop : s.pi.hasInner = false → chainBroken s.pi.gtpStatus = true := by
    intro hin
    by_contra hch
    rw [Bool.not_eq_true] at hch
    exact hnone ⟨hin, by rw [hch, Bool.and_false]⟩
  cases h.gtpu with
  | absent hg _ => simp [hg]
  | problem _ hst _ hin _ =>
      exact absurd ((chain_of_problem hst).symm.trans (hstop hin)) Bool.false_ne_true
  | signal _ hst _ hin _ =>
      rw [hst] at hstop
      exact absurd (hstop hin) (by decide)
  | noUser _ hst _ _ _ hin =>
      exact absurd ((chain_of_earlyInner hst).symm.trans (hstop hin)) Bool.false_ne_true
  | user htun _ _ hv _ hin _ =>
      simp only [htun.isGtpu, hv, hin, Bool.true_and]
      cases hc : chainBroken s.pi.gtpStatus with
      | false =>
          rw [hc, Bool.toNat_false] at hbroken
          simp only [Bool.not_false, Bool.true_and]
          omega
      | true =>
          rw [hc, Bool.toNat_true] at hbroken
          simp only [Bool.not_true, Bool.false_and, Bool.toNat_false]
          omega

/-- A message has a type, unless its first header was cut. -/
theorem types_bounds (h : s.Decoded) : s.hitsOf typeCounters ≤ s.hitsOf [.gtpPackets] ∧
    s.hitsOf [.gtpPackets] ≤ s.hitsOf (.gtpByStatus .truncGtpu :: typeCounters) := by
  have hone := type_one s.pi.gtpMsgType
  simp only [typeCounters, hitsOf_cons, hitsOf_nil, Counter.hits, h.v1uSeen_eq, h.gtpuSeen_eq]
  cases hg : s.pi.isGtpu with
  | false => simp
  | true =>
      cases hv : s.pi.gtpV1u with
      | true =>
          simp only [Bool.true_and, Bool.not_true, Bool.false_and, Bool.toNat_true, Bool.toNat_false]
          omega
      | false =>
          have hst : s.pi.gtpStatus = .ok ∨ s.pi.gtpStatus = .truncGtpu := by
            cases h.gtpu with
            | absent hno _ => exact absurd (hno.symm.trans hg) Bool.false_ne_true
            | problem _ _ _ _ hcut => exact .inr (hcut hv)
            | signal _ hst _ _ _ => exact .inl hst
            | noUser _ _ _ hv' _ _ => exact absurd (hv.symm.trans hv') Bool.false_ne_true
            | user _ _ _ hv' _ _ _ => exact absurd (hv.symm.trans hv') Bool.false_ne_true
          obtain hst | hst := hst <;> simp [hst]

/-- A packet joins a tunnel if it is a G-PDU with its headers in order. -/
theorem tunnelEvent_isSome (h : s.Decoded) : s.tunnelEvent.isSome = gpduMsgOk s := by
  have hjoins : gpduMsgOk s = joinsTunnel s.pi := by
    rw [gpduMsgOk, joinsTunnel, Bool.and_right_comm]
  rw [hjoins]
  cases hj : joinsTunnel s.pi with
  | false =>
      have hnone : s.tunnelEvent = none := by
        rw [tunnelEvent, hj]
        exact ite_self none
      rw [hnone]
      rfl
  | true =>
      have hboth := hj
      simp only [joinsTunnel, Bool.and_eq_true] at hboth
      have htun := h.gtpu.tunnelled hboth.1.1.1
      rw [tunnelEvent, if_neg (not_not.mpr htun.status), hj, tunnelKeyFromPacket, hboth.1.1.1, hboth.1.1.2]
      rfl

end Decoded

end Seen

/-! ### The run -/

/-- The equations of the counters of GTP-U, modulo `2 ^ 64`. -/
structure GtpuBalanced (ps : List Seen) (g : GtpuStats) (tunnels : FlowTable) : Prop where
  byStatus : g.packets = (all.map g.byStatus).sum
  verdict : g.packets = g.byStatus .ok + g.truncated + g.malformed
  truncated : g.truncated - g.userTruncated = g.byStatus .truncGtpu + g.byStatus .truncGtpuExt
  malformed : g.malformed - g.userMalformed =
    g.byStatus .badGtpuLen + g.byStatus .badGtpuExtLen + g.byStatus .badGtpuExt
  joined : (tunnels.entries.map Flow.packets).sum = UInt64.ofNat (ps.countP gpduMsgOk)
  gpdus : (tunnels.entries.map Flow.packets).sum =
    UInt64.ofNat (ps.countP gpduOk) + g.userTruncated + g.userMalformed
  inner : g.innerIpv4 + g.innerIpv6 = g.innerTcp + g.innerUdp + g.innerIcmp + g.innerIcmpv6 + g.innerOther +
    g.byStatus .truncIpv6Ext + g.byStatus .badIpv6Ext

/-- The messages by type. -/
def typeTotal (g : GtpuStats) : ℕ := g.gpdu.toNat + (g.echoRequest.toNat + (g.echoResponse.toNat +
  (g.errorIndication.toNat + (g.endMarker.toNat + (g.otherType.toNat + g.notV1u.toNat)))))

/-- The inequalities between the counters of GTP-U, of the tallies of `ps` that the counters are
modulo `2 ^ 64`. -/
structure GtpuBounded (ps : List Seen) (st : Stats) (tunnels : FlowTable) : Prop where
  counter : ∀ c : Counter, c.get st = UInt64.ofNat (tally ps c)
  userTruncated : tally ps .userTruncated ≤ tally ps .gtpTruncated
  userMalformed : tally ps .userMalformed ≤ tally ps .gtpMalformed
  joined : ps.countP gpduMsgOk ≤ tally ps .gpdu
  types : tallies ps typeCounters ≤ tally ps .gtpPackets
  packets : tally ps .gtpPackets - tally ps (.gtpByStatus .truncGtpu) ≤
    tallies ps typeCounters
  /-- as long as no counter has wrapped -/
  unwrapped : ps.length < 2 ^ 64 →
    st.gtpu.userTruncated ≤ st.gtpu.truncated ∧ st.gtpu.userMalformed ≤ st.gtpu.malformed ∧
      (tunnels.entries.map Flow.packets).sum ≤ st.gtpu.gpdu ∧
      st.gtpu.packets.toNat - (st.gtpu.byStatus .truncGtpu).toNat ≤ typeTotal st.gtpu ∧
      typeTotal st.gtpu ≤ st.gtpu.packets.toNat

section run

variable {ps : List Seen} {st : Stats}

/-- A counter that is hit only together with another one is not larger. -/
theorem tally_le_of_hits {c d : Counter} (h : ∀ s ∈ ps, c.hits s = true → d.hits s = true) :
    tally ps c ≤ tally ps d := List.countP_mono_left h

theorem countP_le_length_toNat {p : Seen → Bool} (hps : ps.length < 2 ^ 64) :
    (UInt64.ofNat (ps.countP p)).toNat = ps.countP p :=
  UInt64.toNat_ofNat_of_lt' (Nat.lt_of_le_of_lt List.countP_le_length hps)

theorem countP_le_of_toNat {p q : Seen → Bool} (h : ∀ s ∈ ps, (p s).toNat ≤ (q s).toNat) :
    ps.countP p ≤ ps.countP q := by
  apply List.countP_mono_left
  intro s hs hp
  have hle := h s hs
  rw [hp] at hle
  cases hq : q s with
  | true => rfl
  | false => rw [hq] at hle; exact absurd hle (by decide)

theorem gtpuBounded {tunnels : FlowTable} (hc : ∀ c : Counter, c.get st = UInt64.ofNat (tally ps c))
    (hps : ∀ s ∈ ps, s.Decoded)
    (htun : (tunnels.entries.map Flow.packets).sum = UInt64.ofNat (ps.countP gpduMsgOk)) :
    GtpuBounded ps st tunnels := by
  have htrunc : tally ps .userTruncated ≤ tally ps .gtpTruncated := by
    apply tally_le_of_hits
    intro s _ hs
    simp only [Counter.hits, Bool.and_eq_true] at hs ⊢
    exact ⟨hs.1, hs.2.1⟩
  have hmal : tally ps .userMalformed ≤ tally ps .gtpMalformed := by
    apply tally_le_of_hits
    intro s _ hs
    simp only [Counter.hits, Bool.and_eq_true] at hs ⊢
    exact ⟨hs.1, hs.2.1⟩
  have hgpdu : ps.countP gpduMsgOk ≤ tally ps .gpdu :=
    countP_le_of_toNat fun s hs => (hps s hs).gpduMsgOk_le
  have htypes : tallies ps typeCounters ≤ tally ps .gtpPackets := by
    rw [← tallies_one]
    exact tallies_le fun s hs => (hps s hs).types_bounds.1
  have hpackets : tally ps .gtpPackets - tally ps (.gtpByStatus .truncGtpu) ≤
      tallies ps typeCounters := by
    rw [Nat.sub_le_iff_le_add', ← tallies_one]
    exact tallies_le fun s hs => (hps s hs).types_bounds.2
  refine ⟨hc, htrunc, hmal, hgpdu, htypes, hpackets, fun hlen => ?_⟩
  have hget := toNat_counter hc hlen
  have htotal : typeTotal st.gtpu = tallies ps typeCounters := by
    have h₁ := hget .gpdu
    have h₂ := hget .echoRequest
    have h₃ := hget .echoResponse
    have h₄ := hget .errorIndication
    have h₅ := hget .endMarker
    have h₆ := hget .otherType
    have h₇ := hget .notV1u
    simp only [Counter.get] at h₁ h₂ h₃ h₄ h₅ h₆ h₇
    simp only [typeTotal, h₁, h₂, h₃, h₄, h₅, h₆, h₇, tallies, typeCounters, List.map_cons,
      List.map_nil, List.sum_cons, List.sum_nil, Nat.add_zero]
  refine ⟨?_, ?_, ?_, ?_, ?_⟩
  · rw [UInt64.le_iff_toNat_le]
    exact (hget .userTruncated).trans_le (htrunc.trans_eq (hget .gtpTruncated).symm)
  · rw [UInt64.le_iff_toNat_le]
    exact (hget .userMalformed).trans_le (hmal.trans_eq (hget .gtpMalformed).symm)
  · rw [UInt64.le_iff_toNat_le, htun, countP_le_length_toNat hlen]
    exact hgpdu.trans_eq (hget .gpdu).symm
  · have hp := hget .gtpPackets
    have hcut := hget (.gtpByStatus .truncGtpu)
    simp only [Counter.get] at hp hcut
    rw [htotal, hp, hcut]
    exact hpackets
  · rw [htotal]
    exact htypes.trans_eq (hget .gtpPackets).symm

variable {w : ℕ} {a a' : Analysis} {fs : List Frame}

theorem AccountedAll.tunnelPackets (h : AccountedAll w a fs a') (ha : Fresh w a) :
    (a'.tunnels.entries.map Flow.packets).sum =
      UInt64.ofNat ((seenAll w a.frags fs).countP gpduMsgOk) := by
  have hsum := h.tunnels.packets_of_empty ha.tunnels
  rw [FlowTable.packets] at hsum
  rw [hsum]
  refine congrArg UInt64.ofNat (List.countP_congr fun s hs => ?_)
  rw [(seenAll_decoded s hs).tunnelEvent_isSome]

theorem AccountedAll.gtpuBalanced (h : AccountedAll w a fs a') (ha : Fresh w a) :
    GtpuBalanced (seenAll w a.frags fs) a'.stats.gtpu a'.tunnels := by
  have hc := h.counter ha
  have hdec : ∀ s ∈ seenAll w a.frags fs, s.Decoded := fun s hs => seenAll_decoded s hs
  have htun := h.tunnelPackets ha
  constructor
  · have heq := equate hc fun s _ => s.gtpu_eq_byStatus
    simpa [Counter.get, Function.comp_def] using heq
  · have heq := equate hc fun s _ => s.gtpu_eq_verdict
    simpa [Counter.get, UInt64.add_assoc] using heq
  · have heq := equate hc fun s hs => (hdec s hs).gtpu_truncated
    simp only [Counter.get, List.map_cons, List.map_nil, List.sum_cons, List.sum_nil, add_zero] at heq
    rw [heq]
    exact add_sub_cancel_left _ _
  · have heq := equate hc fun s hs => (hdec s hs).gtpu_malformed
    simp only [Counter.get, List.map_cons, List.map_nil, List.sum_cons, List.sum_nil, add_zero] at heq
    rw [heq, UInt64.add_assoc]
    exact add_sub_cancel_left _ _
  · exact htun
  · have hsplit := List.map_congr_left fun s hs => (hdec s hs).gpdu_split
    have ht := hc .userTruncated
    have hm := hc .userMalformed
    simp only [Counter.get] at ht hm
    rw [htun, ht, hm, countP_eq_sum, hsplit, List.sum_map_add, List.sum_map_add, UInt64.ofNat_add,
      UInt64.ofNat_add, tally, tally, ← countP_eq_sum, ← countP_eq_sum, ← countP_eq_sum, UInt64.add_assoc]
  · have heq := equate hc fun s hs => (hdec s hs).inner_eq_l4
    simpa [Counter.get, UInt64.add_assoc] using heq

end run

/-! ### The theorem -/

/-- **The counters of GTP-U balance with each other and with the table of tunnels.** -/
theorem gtpu_balanced {w : ℕ} {okFlows okTunnels okFrags : Bool} {a : Analysis}
    (hinit : analysisInit w okFlows okTunnels okFrags = some (some a)) :
    (∀ ok i fs a', accountAll w ok i a fs = some (a', true) →
      GtpuBalanced (seenAll w a.frags fs) a'.stats.gtpu a'.tunnels ∧
        GtpuBounded (seenAll w a.frags fs) a'.stats a'.tunnels) ∧
    ∀ ok r a' r' st, analysisRun w ok a r = some (a', r', st) → st ≠ .errNomem →
      ∃ recs, Delivers r recs st r' ∧
        GtpuBalanced (seenAll w a.frags (recs.map PcapRecord.frame)) a'.stats.gtpu a'.tunnels ∧
        GtpuBounded (seenAll w a.frags (recs.map PcapRecord.frame)) a'.stats a'.tunnels := by
  have ha := Fresh.of_init hinit
  have hboth : ∀ {fs a'}, AccountedAll w a fs a' →
      GtpuBalanced (seenAll w a.frags fs) a'.stats.gtpu a'.tunnels ∧
        GtpuBounded (seenAll w a.frags fs) a'.stats a'.tunnels := by
    intro fs a' hall
    exact ⟨hall.gtpuBalanced ha,
      gtpuBounded (hall.counter ha) (fun s hs => seenAll_decoded s hs) (hall.tunnelPackets ha)⟩
  refine ⟨fun ok i fs a' hrun => hboth (.of_run ha.inv hrun), fun ok r a' r' st hrun hst => ?_⟩
  obtain ⟨a₁, r₁, st₁, hrun', hall⟩ := analysisRun_spec ha.inv ok r
  rw [hrun, Option.some.injEq, Prod.mk.injEq, Prod.mk.injEq] at hrun'
  obtain ⟨rfl, rfl, rfl⟩ := hrun'
  obtain ⟨recs, hdel, hall⟩ := hall hst
  exact ⟨recs, hdel, hboth hall⟩

/-! ### Sample messages -/

/-- A G-PDU with an IPv4 user packet. -/
def gpduBytes : List UInt8 :=
  [0x02, 0, 0, 0, 0, 0x02, 0x02, 0, 0, 0, 0, 0x01, 0x08, 0x00,
    0x45, 0, 0, 56, 0, 7, 0, 0, 64, 17, 0, 0, 10, 0, 0, 1, 10, 0, 0, 2,
    0x08, 0x68, 0x08, 0x68, 0, 36, 0, 0,
    0x30, 0xFF, 0, 20, 0, 0, 0, 9, 0x45, 0, 0, 20]

/-- The capture was cut in the user packet. -/
def cutUser : Frame := ⟨SpanWalk.Mem.ofList gpduBytes, 52, 70, 0⟩

/-- The capture was cut in the GTP-U header. -/
def cutHeader : Frame := ⟨SpanWalk.Mem.ofList gpduBytes, 46, 70, 0⟩

/-- The user packet is of no IP version. -/
def badUser : Frame := wholeFrame (gtpuDatagram ++ [0x30, 0xFF, 0, 20, 0, 0, 0, 9] ++ List.replicate 20 0x55) 0

/-- A G-PDU, two of the same tunnel with a user packet that does not decode, and a cut header. -/
def gpdus : List Frame := [wholeFrame (gtpuDatagram ++ gpduMessage) 0, cutUser, badUser, cutHeader]

theorem gtpu_balanced_gpdus : ∃ a a', analysisInit 64 true true true = some (some a) ∧
    accountAll 64 (fun _ => ⟨true, true⟩) 0 a gpdus = some (a', true) ∧
      GtpuBalanced (seenAll 64 a.frags gpdus) a'.stats.gtpu a'.tunnels ∧
      GtpuBounded (seenAll 64 a.frags gpdus) a'.stats a'.tunnels ∧
      (a'.stats.gtpu.packets, a'.stats.gtpu.gpdu, a'.stats.gtpu.innerIpv4) = (4, 3, 1) ∧
      (a'.stats.gtpu.truncated, a'.stats.gtpu.userTruncated) = (2, 1) ∧
      (a'.stats.gtpu.malformed, a'.stats.gtpu.userMalformed) = (1, 1) ∧
      a'.tunnels.entries.map Flow.packets = [3] := by
  obtain ⟨a, a', hinit, hrun, hview⟩ := exists_runOn gpdus
    (fun a => ((a.stats.gtpu.packets, a.stats.gtpu.gpdu, a.stats.gtpu.innerIpv4),
      (a.stats.gtpu.truncated, a.stats.gtpu.userTruncated),
      (a.stats.gtpu.malformed, a.stats.gtpu.userMalformed), a.tunnels.entries.map Flow.packets))
    ((4, 3, 1), (2, 1), (1, 1), [3]) (by decide +kernel)
  simp only [Prod.mk.injEq] at hview ⊢
  obtain ⟨hbalanced, hbounded⟩ := (gtpu_balanced hinit).1 _ _ _ _ hrun
  exact ⟨a, a', hinit, hrun, hbalanced, hbounded, hview⟩

/-! ### A capture that is too long -/

/-- The cache does not touch packets that are not fragments. -/
theorem fragCacheApply_of_none (w : ℕ) (c : FragCache) {pi : PacketInfo} (h : pi.frag = .none) :
    fragCacheApply w c pi = (c, pi, false) := by
  rw [fragCacheApply]
  cases c.slots with
  | none => rfl
  | some slots =>
      have hfirst : ¬ (pi.frag = .first && pi.hasL4) = true := by rw [h]; exact Bool.false_ne_true
      have hlater : pi.frag ≠ .later := by rw [h]; decide
      dsimp only
      rw [if_neg hfirst, if_neg hlater, ite_self]

theorem seenAll_of_none {w : ℕ} : ∀ {fs : List Frame} {c : FragCache}, (∀ f ∈ fs, f.pi.frag = .none) →
    seenAll w c fs = fs.map Frame.whole
  | [], _, _ => rfl
  | f :: fs, c, h => by
      have happly := fragCacheApply_of_none w c (h f List.mem_cons_self)
      rw [seenAll, seen, happly, List.map_cons, seenAll_of_none fun g hg => h g (List.mem_cons_of_mem _ hg)]
      rfl

/-- One truncated user packet and nearly `2 ^ 64` truncated headers. -/
def longTunnel : List Frame := cutUser :: List.replicate (2 ^ 64 - 1) cutHeader

theorem cutUser_spec : cutUser.pi.frag = .none ∧ Counter.gtpTruncated.hits cutUser.whole = true ∧
    Counter.userTruncated.hits cutUser.whole = true := by
  decide +kernel

theorem cutHeader_spec : cutHeader.pi.frag = .none ∧ Counter.gtpTruncated.hits cutHeader.whole = true ∧
    Counter.userTruncated.hits cutHeader.whole = false := by
  decide +kernel

/-- The truncated messages wrap to none, one of them in its user packet. -/
theorem longTunnel_wraps : ∃ a a', analysisInit 64 true true true = some (some a) ∧
    accountAll 64 (fun _ => ⟨true, true⟩) 0 a longTunnel = some (a', true) ∧
    ¬ a'.stats.gtpu.userTruncated ≤ a'.stats.gtpu.truncated := by
  obtain ⟨hnone, hcut, huser⟩ := cutUser_spec
  obtain ⟨hnone', hcut', huser'⟩ := cutHeader_spec
  have hseen : seenAll 64 ⟨some fun _ => {}⟩ longTunnel = longTunnel.map Frame.whole := by
    apply seenAll_of_none
    intro f hf
    obtain rfl | hf := List.mem_cons.mp hf
    · exact hnone
    · rw [List.eq_of_mem_replicate hf]
      exact hnone'
  have hkinds : longTunnel.map Frame.whole ⊆ [cutUser.whole, cutHeader.whole] := by
    intro s hs
    obtain ⟨f, hf, rfl⟩ := List.mem_map.mp hs
    obtain rfl | hf := List.mem_cons.mp hf
    · exact List.mem_cons_self
    · rw [List.eq_of_mem_replicate hf]
      exact List.mem_cons_of_mem _ List.mem_cons_self
  obtain ⟨a, a', hinit, hrun, hcounter⟩ := exists_tallied (by decide) hseen hkinds
  have htrunc := hcounter .gtpTruncated
  have huserT := hcounter .userTruncated
  rw [tally, List.countP_map, longTunnel, List.countP_cons, List.countP_replicate] at htrunc huserT
  simp only [Counter.get, Function.comp_apply, hcut, hcut', huser, huser', if_true, Bool.false_eq_true,
    if_false] at htrunc huserT
  refine ⟨a, a', hinit, hrun, ?_⟩
  rw [htrunc, huserT]
  decide

end Pcapstat
