import Pcapstat.Counters
import Pcapstat.FragMap
import Pcapstat.PcapFormat

/-! # The counters of a capture balance

Equations between counters are equations about one packet, summed over the run.  They hold of
the counters modulo `2 ^ 64`; inequalities hold of the tallies, and of the counters as long as
these have not wrapped. -/

namespace Pcapstat

open DecodeStatus PacketInfo

/-! ### One packet -/

namespace Seen

variable {s : Seen}

/-- The counters of the statuses `sts`, for one packet. -/
theorem hitsOf_byStatus (s : Seen) (sts : List DecodeStatus) :
    s.hitsOf (sts.map .byStatus) = sts.countP fun st => s.pi.status = st := by
  rw [hitsOf, List.countP_map]
  rfl

theorem hitsOf_cons (s : Seen) (c : Counter) (cs : List Counter) :
    s.hitsOf (c :: cs) = (c.hits s).toNat + s.hitsOf cs := by
  rw [hitsOf, List.countP_cons, Nat.add_comm, hitsOf]
  cases c.hits s <;> rfl

theorem hitsOf_nil (s : Seen) : s.hitsOf [] = 0 := rfl

theorem packets_eq_byStatus (s : Seen) : s.hitsOf [.packets] = s.hitsOf (all.map .byStatus) := by
  have hone : ∀ st : DecodeStatus, all.countP (fun st' => st = st') = 1 := by decide
  rw [hitsOf_byStatus, hone]
  rfl

theorem verdict_one : ∀ st : DecodeStatus, (decide (st = .ok)).toNat +
    ((PacketInfo.truncated st).toNat + (PacketInfo.malformed st).toNat) = 1 := by decide

theorem chainBroken_one : ∀ st : DecodeStatus, (decide (st = .truncIpv6Ext)).toNat +
    (decide (st = .badIpv6Ext)).toNat = (chainBroken st).toNat := by decide

theorem version_one (v : UInt8) : (decide (v = 4)).toNat + (decide (v ≠ 4)).toNat = 1 := by
  by_cases hv : v = 4 <;> simp [hv]

theorem proto_one (proto : UInt8) : (decide (proto = ipprotoTcp)).toNat +
    ((decide (proto = ipprotoUdp)).toNat + ((decide (proto = ipprotoIcmp)).toNat +
      ((decide (proto = ipprotoIcmpv6)).toNat + (!isTransport proto).toNat))) = 1 := by
  obtain rfl | h₁ := eq_or_ne proto ipprotoTcp
  · decide
  obtain rfl | h₂ := eq_or_ne proto ipprotoUdp
  · decide
  obtain rfl | h₃ := eq_or_ne proto ipprotoIcmp
  · decide
  obtain rfl | h₄ := eq_or_ne proto ipprotoIcmpv6
  · decide
  simp [isTransport, h₁, h₂, h₃, h₄]

theorem packets_eq_verdict (s : Seen) :
    s.hitsOf [.packets] = s.hitsOf [.byStatus .ok, .truncated, .malformed] := by
  have hone := verdict_one s.pi.status
  simp only [hitsOf_cons, hitsOf_nil, Counter.hits, Bool.toNat_true]
  omega

theorem not_chainBroken_of_early : ∀ {st : DecodeStatus}, st ∈ earlyProblems → chainBroken st = false := by
  decide

theorem early_count_of_mem : ∀ {st : DecodeStatus}, st ∈ earlyProblems →
    earlyProblems.countP (fun st' => st = st') = 1 := by decide

theorem early_count_of_ip : ∀ {st : DecodeStatus}, st ∈ ipVerdicts →
    earlyProblems.countP (fun st' => st = st') = 0 := by decide

/-- An IP packet has a transport protocol, or a broken extension chain. -/
theorem Decoded.ip_eq_l4 (h : s.Decoded) : s.hitsOf [.ipv4, .ipv6] =
    s.hitsOf [.tcp, .udp, .icmp, .icmpv6, .otherL4, .byStatus .truncIpv6Ext, .byStatus .badIpv6Ext] := by
  have hbroken := chainBroken_one s.pi.status
  have hproto := proto_one s.pi.ipProto
  simp only [hitsOf_cons, hitsOf_nil, Counter.hits, PacketInfo.transportKnown]
  cases hl3 : s.pi.hasL3 with
  | false =>
      have hno : chainBroken s.pi.status = false := by
        cases h.outer with
        | early hst _ _ => exact not_chainBroken_of_early hst
        | nonIp hst _ _ _ _ => rw [hst]; decide
        | ip _ hl3' _ _ => exact absurd (hl3.symm.trans hl3') Bool.false_ne_true
      rw [hno, Bool.toNat_false] at hbroken
      simp only [Bool.false_and, Bool.toNat_false]
      omega
  | true =>
      have hversion := version_one s.pi.ipVersion
      simp only [Bool.true_and]
      cases hc : chainBroken s.pi.status with
      | false =>
          rw [hc, Bool.toNat_false] at hbroken
          simp only [Bool.not_false, Bool.true_and]
          omega
      | true =>
          rw [hc, Bool.toNat_true] at hbroken
          simp only [Bool.not_true, Bool.false_and, Bool.toNat_false]
          omega

theorem otherType_of_early {pi : PacketInfo}
    (h : pi.hasL2 = true → pi.ethertype = ethertypeIpv4 ∨ pi.ethertype = ethertypeIpv6) :
    pi.otherType = false := by
  rw [PacketInfo.otherType]
  cases hl2 : pi.hasL2 with
  | false => rfl
  | true => obtain ht | ht := h hl2 <;> simp [ht]

/-- A packet is IP or not, or the decoder stopped before it knew. -/
theorem Decoded.packets_eq_layers (h : s.Decoded) :
    s.hitsOf [.packets] = s.hitsOf ([.ipv4, .ipv6, .nonIp] ++ earlyProblems.map .byStatus) := by
  have hversion := version_one s.pi.ipVersion
  simp only [List.cons_append, List.nil_append, hitsOf_cons, hitsOf_nil, hitsOf_byStatus, Counter.hits,
    PacketInfo.nonIp, Bool.toNat_true]
  cases h.outer with
  | early hst hl3 htype =>
      have hother : s.pi.otherType = false := otherType_of_early htype
      rw [early_count_of_mem hst, hl3, hother]
      rfl
  | nonIp hst hl3 hl2 h4 h6 =>
      have hother : s.pi.otherType = true := by simp [PacketInfo.otherType, hl2, h4, h6]
      rw [hst, early_count_of_ip (by decide), hl3, hother]
      rfl
  | ip hst hl3 _ _ =>
      rw [early_count_of_ip hst, hl3]
      simp only [Bool.true_and, Bool.not_true, Bool.false_and, Bool.toNat_false]
      omega

theorem Decoded.matched_le_later (h : s.Decoded) : s.hitsOf [.fragMatched] ≤ s.hitsOf [.fragLater] := by
  simp only [hitsOf_cons, hitsOf_nil, Counter.hits]
  cases hm : s.matched with
  | false => exact Nat.zero_le _
  | true =>
      obtain ⟨-, hl3, hl⟩ := h.matched hm
      rw [hl3, hl]
      decide

theorem frags_le_ip (s : Seen) : s.hitsOf [.fragFirst, .fragLater] ≤ s.hitsOf [.ipv4, .ipv6] := by
  simp only [hitsOf_cons, hitsOf_nil, Counter.hits]
  cases s.pi.hasL3 with
  | false => simp
  | true => by_cases hv : s.pi.ipVersion = 4 <;> cases s.pi.frag <;> simp [hv]

theorem flowEvent_isSome (s : Seen) :
    s.flowEvent.isSome = (decide (s.pi.status = .ok) && s.pi.hasL3) := by
  by_cases hst : s.pi.status = .ok
  · have hkey : (flowKeyFromPacket s.pi).isSome = s.pi.hasL3 := by
      rw [flowKeyFromPacket]
      cases s.pi.hasL3 <;> cases fromB s.pi <;> rfl
    rw [flowEvent, if_neg (not_not.mpr hst), Option.isSome_map, hkey, decide_eq_true hst, Bool.true_and]
  · rw [flowEvent, if_pos hst, decide_eq_false hst]
    rfl

theorem Decoded.flow_or_nonIp (h : s.Decoded) :
    s.flowEvent.isSome.toNat + (Counter.nonIp.hits s).toNat = ((Counter.byStatus .ok).hits s).toNat := by
  rw [flowEvent_isSome]
  simp only [Counter.hits, PacketInfo.nonIp]
  cases h.outer with
  | early hst hl3 htype =>
      have hother : s.pi.otherType = false := otherType_of_early htype
      have hbad : s.pi.status ≠ .ok := by
        intro hok
        rw [hok] at hst
        revert hst
        decide
      rw [hl3, hother, decide_eq_false hbad]
      rfl
  | nonIp hst hl3 hl2 h4 h6 =>
      have hother : s.pi.otherType = true := by simp [PacketInfo.otherType, hl2, h4, h6]
      rw [hst, hl3, hother]
      rfl
  | ip hst hl3 _ _ =>
      rw [hl3]
      simp

end Seen

/-! ### The packets of a table -/

/-- The packets of all entries. -/
def FlowTable.packets (t : FlowTable) : UInt64 := (t.entries.map Flow.packets).sum

section tables

variable {w : ℕ} {t t' : FlowTable}

theorem accounted_packets (k : FlowKey) (c : Contribution) (f : Option Flow) :
    (accounted k c f).packets = (f.toList.map Flow.packets).sum + 1 := by
  cases f with
  | none => exact (Flow.account_sums _ _ _ _ _ _).1
  | some f => exact (Flow.account_sums _ _ _ _ _ _).1.trans (congrArg (· + 1) (UInt64.add_zero _).symm)

theorem Added.packets {e : Option (FlowKey × Contribution)} (h : Added w t e t' true) :
    t'.packets = t.packets + tick e.isSome := by
  cases h with
  | skip _ => exact (UInt64.add_zero _).symm
  | @done k c _ rest _ _ hold hnew =>
      have hsum := (hold.map Flow.packets).sum_eq
      have hsum' := (hnew.map Flow.packets).sum_eq
      rw [List.map_append, List.sum_append] at hsum
      rw [List.map_cons, List.sum_cons, accounted_packets] at hsum'
      rw [FlowTable.packets, FlowTable.packets, hsum, hsum', Option.isSome_some, tick_true,
        UInt64.add_assoc, UInt64.add_assoc, UInt64.add_comm 1]

theorem AddedAll.packets {es : List (Option (FlowKey × Contribution))} (h : AddedAll w t es t') :
    t'.packets = t.packets + UInt64.ofNat (es.countP Option.isSome) := by
  induction h with
  | nil => exact (UInt64.add_zero _).symm
  | cons hadd _ ih =>
      rw [ih, hadd.packets, List.countP_cons, ofNat_add_tick, UInt64.add_assoc, UInt64.add_comm (tick _)]

/-- The packets of a table that a run has filled. -/
theorem AddedAll.packets_of_empty {ps : List Seen} {event : Seen → Option (FlowKey × Contribution)}
    (ht : t.entries = []) (h : AddedAll w t (ps.map event) t') :
    t'.packets = UInt64.ofNat (ps.countP fun s => (event s).isSome) := by
  rw [h.packets, FlowTable.packets, ht, List.countP_map]
  exact UInt64.zero_add _

end tables

theorem countP_eq_sum (p : Seen → Bool) : ∀ ps : List Seen, ps.countP p = (ps.map fun s => (p s).toNat).sum
  | [] => rfl
  | s :: ps => by
      rw [List.countP_cons, countP_eq_sum p ps, List.map_cons, List.sum_cons, Nat.add_comm]
      cases p s <;> rfl

/-- Predicates that add up on every packet add up on every run. -/
theorem countP_add {ps : List Seen} {p q r : Seen → Bool}
    (h : ∀ s ∈ ps, (p s).toNat + (q s).toNat = (r s).toNat) : ps.countP p + ps.countP q = ps.countP r := by
  rw [countP_eq_sum, countP_eq_sum, countP_eq_sum, ← List.sum_map_add, List.map_congr_left h]

/-! ### The run -/

/-- The equations of the counters, modulo `2 ^ 64`. -/
structure Balanced (st : Stats) (flows : FlowTable) : Prop where
  byStatus : st.packets = (all.map st.byStatus).sum
  verdict : st.packets = st.byStatus .ok + st.truncated + st.malformed
  transport : st.ipv4 + st.ipv6 = st.tcp + st.udp + st.icmp + st.icmpv6 + st.otherL4 +
    st.byStatus .truncIpv6Ext + st.byStatus .badIpv6Ext
  layers : st.packets = st.ipv4 + st.ipv6 + st.nonIp + (earlyProblems.map st.byStatus).sum
  flows : (flows.entries.map Flow.packets).sum = st.byStatus .ok - st.nonIp

/-- The inequalities, of the tallies of `ps` that the counters are modulo `2 ^ 64`. -/
structure FragsBounded (ps : List Seen) (st : Stats) : Prop where
  counter : ∀ c : Counter, c.get st = UInt64.ofNat (tally ps c)
  matched : tally ps .fragMatched ≤ tally ps .fragLater
  frags : tally ps .fragFirst + tally ps .fragLater ≤ tally ps .ipv4 + tally ps .ipv6
  /-- as long as no counter has wrapped -/
  unwrapped : ps.length < 2 ^ 64 → st.fragMatched ≤ st.fragLater ∧
    st.fragFirst.toNat + st.fragLater.toNat ≤ st.ipv4.toNat + st.ipv6.toNat

section run

variable {ps : List Seen} {st : Stats}

/-- Sums of counters that agree on every packet are equal. -/
theorem equate (hc : ∀ c : Counter, c.get st = UInt64.ofNat (tally ps c)) {cs ds : List Counter}
    (h : ∀ s ∈ ps, s.hitsOf cs = s.hitsOf ds) :
    (cs.map fun c => c.get st).sum = (ds.map fun c => c.get st).sum := by
  rw [sum_get hc, sum_get hc, tallies_eq h]

theorem tallies_one (ps : List Seen) (c : Counter) : tallies ps [c] = tally ps c := Nat.add_zero _

theorem tallies_two (ps : List Seen) (c d : Counter) : tallies ps [c, d] = tally ps c + tally ps d :=
  congrArg _ (Nat.add_zero _)

theorem tally_le_length (ps : List Seen) (c : Counter) : tally ps c ≤ ps.length := List.countP_le_length

theorem toNat_counter (hc : ∀ c : Counter, c.get st = UInt64.ofNat (tally ps c)) (hps : ps.length < 2 ^ 64)
    (c : Counter) : (c.get st).toNat = tally ps c := by
  rw [hc]
  exact UInt64.toNat_ofNat_of_lt' (Nat.lt_of_le_of_lt (tally_le_length ps c) hps)

theorem fragsBounded (hc : ∀ c : Counter, c.get st = UInt64.ofNat (tally ps c))
    (hps : ∀ s ∈ ps, s.Decoded) : FragsBounded ps st := by
  have hmatched : tally ps .fragMatched ≤ tally ps .fragLater := by
    rw [← tallies_one, ← tallies_one]
    exact tallies_le fun s hs => (hps s hs).matched_le_later
  have hfrags : tally ps .fragFirst + tally ps .fragLater ≤ tally ps .ipv4 + tally ps .ipv6 := by
    rw [← tallies_two, ← tallies_two]
    exact tallies_le fun s _ => s.frags_le_ip
  refine ⟨hc, hmatched, hfrags, fun hlen => ⟨?_, ?_⟩⟩
  · rw [UInt64.le_iff_toNat_le]
    have h₁ := toNat_counter hc hlen .fragMatched
    have h₂ := toNat_counter hc hlen .fragLater
    simp only [Counter.get] at h₁ h₂
    omega
  · have h₁ := toNat_counter hc hlen .fragFirst
    have h₂ := toNat_counter hc hlen .fragLater
    have h₃ := toNat_counter hc hlen .ipv4
    have h₄ := toNat_counter hc hlen .ipv6
    simp only [Counter.get] at h₁ h₂ h₃ h₄
    omega

variable {w : ℕ} {a a' : Analysis} {fs : List Frame}

theorem AccountedAll.balanced (h : AccountedAll w a fs a') (ha : Fresh w a) :
    Balanced a'.stats a'.flows := by
  have hc := h.counter ha
  have hdec : ∀ s ∈ seenAll w a.frags fs, s.Decoded := fun s hs => seenAll_decoded s hs
  constructor
  · have heq := equate hc fun s _ => s.packets_eq_byStatus
    simpa [Counter.get, Function.comp_def] using heq
  · have heq := equate hc fun s _ => s.packets_eq_verdict
    simpa [Counter.get, UInt64.add_assoc] using heq
  · have heq := equate hc fun s hs => (hdec s hs).ip_eq_l4
    simpa [Counter.get, UInt64.add_assoc] using heq
  · have heq := equate hc fun s hs => (hdec s hs).packets_eq_layers
    simpa [Counter.get, UInt64.add_assoc, Function.comp_def] using heq
  · have hflows := h.flows.packets_of_empty ha.flows
    have hsum := countP_add fun s hs => (hdec s hs).flow_or_nonIp
    have hnon := hc .nonIp
    have hok := hc (.byStatus .ok)
    rw [tally, ← hsum, UInt64.ofNat_add] at hok
    rw [FlowTable.packets] at hflows
    rw [hflows]
    apply eq_sub_of_add_eq
    rw [tally] at hnon
    simp only [Counter.get] at hnon hok
    rw [hok, hnon]

end run

/-! ### Records -/

section records

variable {r r' : PcapReader} {recs : List PcapRecord} {st : PcapStatus}

theorem take_records (r : PcapReader) (n : ℕ) : (take r n).1.records = r.records := by
  rw [take]
  cases r.fp with
  | some fp => rfl
  | none => dsimp only; split_ifs <;> rfl

theorem pcapNext_records {rec : PcapRecord} (h : pcapNext r = (r', .ok, rec)) :
    r'.records = r.records + 1 := by
  obtain ⟨-, r₁, hdr, got₁, hd, r₂, p, got₂, htake, -, htake', -, rfl⟩ := pcapNext_ok h
  have h₁ := take_records r pcapRecordHdrLen
  have h₂ := take_records r₁ hd.caplen.toNat
  rw [htake] at h₁
  rw [htake'] at h₂
  dsimp only at h₁ h₂ ⊢
  rw [h₂, h₁]

theorem pcapNext_records_bad {rec : PcapRecord} (h : pcapNext r = (r', st, rec)) (hst : st ≠ .ok) :
    r'.records = r.records := by
  rw [pcapNext] at h
  by_cases herr : r.error = .ok
  swap
  · rw [if_pos herr, Prod.mk.injEq] at h
    rw [← h.1]
  rw [if_neg (not_not.mpr herr)] at h
  have h₁ := take_records r pcapRecordHdrLen
  rcases htake : take r pcapRecordHdrLen with ⟨r₁, p, got⟩
  rw [htake] at h h₁
  cases p with
  | none =>
      simp only [Prod.mk.injEq] at h
      rw [← h.1]
      exact h₁
  | some hdr =>
      rcases hparse : pcapParseRecordHeader r₁.info hdr with ⟨hd, st₁⟩
      simp only [hparse] at h
      by_cases hst₁ : st₁ = .ok
      swap
      · rw [if_pos hst₁, Prod.mk.injEq] at h
        rw [← h.1]
        exact h₁
      rw [if_neg (not_not.mpr hst₁)] at h
      have h₂ := take_records r₁ hd.caplen.toNat
      rcases htake' : take r₁ hd.caplen.toNat with ⟨r₂, p, got₂⟩
      rw [htake'] at h h₂
      cases p with
      | none =>
          simp only [Prod.mk.injEq] at h
          rw [← h.1]
          exact h₂.trans h₁
      | some p =>
          simp only [Prod.mk.injEq] at h
          exact absurd h.2.1.symm hst

theorem Delivers.records (h : Delivers r recs st r') :
    r'.records = r.records + UInt64.ofNat recs.length := by
  induction h with
  | stop hnext hst => exact (pcapNext_records_bad hnext hst).trans (UInt64.add_zero _).symm
  | next hnext _ ih =>
      rw [ih, pcapNext_records hnext, List.length_cons, UInt64.ofNat_add, UInt64.ofNat_one,
        UInt64.add_assoc, UInt64.add_comm 1]

/-- The byte counters, and the totals of the records `recs` that they are modulo `2 ^ 64`. -/
structure BytesBounded (recs : List PcapRecord) (st : Stats) : Prop where
  wire : st.wireBytes = UInt64.ofNat (recs.map fun rec => rec.wirelen.toNat).sum
  captured : st.capturedBytes = UInt64.ofNat (recs.map fun rec => rec.caplen.toNat).sum
  le : (recs.map fun rec => rec.caplen.toNat).sum ≤ (recs.map fun rec => rec.wirelen.toNat).sum
  /-- as long as the counter has not wrapped -/
  unwrapped : (recs.map fun rec => rec.wirelen.toNat).sum < 2 ^ 64 → st.capturedBytes ≤ st.wireBytes

/-- The lengths of a run are those of its frames. -/
theorem seenAll_lengths {w : ℕ} : ∀ (fs : List Frame) (c : FragCache),
    ((seenAll w c fs).map fun s => s.wirelen.toNat) = (fs.map fun f => f.wirelen.toNat) ∧
      ((seenAll w c fs).map fun s => s.caplen.toNat) = (fs.map fun f => f.caplen.toNat)
  | [], _ => ⟨rfl, rfl⟩
  | f :: fs, c => by
      obtain ⟨hw, hc⟩ := seenAll_lengths fs (fragCacheApply w c f.pi).1
      rw [seenAll, List.map_cons, List.map_cons, List.map_cons, List.map_cons, hw, hc]
      exact ⟨rfl, rfl⟩

theorem AccountedAll.bytesBounded {w : ℕ} {a a' : Analysis} (ha : Fresh w a)
    (h : AccountedAll w a (recs.map PcapRecord.frame) a')
    (hle : ∀ rec ∈ recs, rec.caplen.toNat ≤ rec.wirelen.toNat) : BytesBounded recs a'.stats := by
  obtain ⟨hwire, hcap⟩ := h.bytes ha
  obtain ⟨hw, hc⟩ := seenAll_lengths (w := w) (recs.map PcapRecord.frame) a.frags
  rw [hw, List.map_map] at hwire
  rw [hc, List.map_map] at hcap
  have hsum : (recs.map fun rec => rec.caplen.toNat).sum ≤ (recs.map fun rec => rec.wirelen.toNat).sum :=
    List.sum_le_sum hle
  refine ⟨hwire, hcap, hsum, fun hlt => ?_⟩
  have hwire' : a'.stats.wireBytes = UInt64.ofNat (recs.map fun rec => rec.wirelen.toNat).sum := hwire
  have hcap' : a'.stats.capturedBytes = UInt64.ofNat (recs.map fun rec => rec.caplen.toNat).sum := hcap
  rw [hwire', hcap', UInt64.le_iff_toNat_le, UInt64.toNat_ofNat_of_lt' hlt,
    UInt64.toNat_ofNat_of_lt' (Nat.lt_of_le_of_lt hsum hlt)]
  exact hsum

end records

/-! ### The theorem -/

/-- **The counters of a capture balance.** -/
theorem capture_balanced {w : ℕ} {okFlows okTunnels okFrags : Bool} {a : Analysis}
    (hinit : analysisInit w okFlows okTunnels okFrags = some (some a)) :
    (∀ ok i fs a', accountAll w ok i a fs = some (a', true) →
      Balanced a'.stats a'.flows ∧ FragsBounded (seenAll w a.frags fs) a'.stats) ∧
    ∀ ok r a' r' st, r.records = 0 → analysisRun w ok a r = some (a', r', st) → st ≠ .errNomem →
      Balanced a'.stats a'.flows ∧ a'.stats.packets = r'.records ∧ ∃ recs, Delivers r recs st r' ∧
        FragsBounded (seenAll w a.frags (recs.map PcapRecord.frame)) a'.stats ∧
        BytesBounded recs a'.stats := by
  have ha := Fresh.of_init hinit
  have hfrags : ∀ {fs a'}, AccountedAll w a fs a' → FragsBounded (seenAll w a.frags fs) a'.stats :=
    fun hall => fragsBounded (hall.counter ha) fun s hs => seenAll_decoded s hs
  refine ⟨fun ok i fs a' hrun => ?_, fun ok r a' r' st hr hrun hst => ?_⟩
  · have hall := AccountedAll.of_run ha.inv hrun
    exact ⟨hall.balanced ha, hfrags hall⟩
  · obtain ⟨a₁, r₁, st₁, hrun', hall⟩ := analysisRun_spec ha.inv ok r
    rw [hrun, Option.some.injEq, Prod.mk.injEq, Prod.mk.injEq] at hrun'
    obtain ⟨rfl, rfl, rfl⟩ := hrun'
    obtain ⟨recs, hdel, hall⟩ := hall hst
    have hpackets := hall.counter ha .packets
    have htally : ∀ ps : List Seen, tally ps .packets = ps.length := fun ps =>
      List.countP_eq_length.mpr fun _ _ => rfl
    refine ⟨hall.balanced ha, ?_, recs, hdel, hfrags hall, hall.bytesBounded ha hdel.caplen_le⟩
    rw [htally, seenAll_length, List.length_map] at hpackets
    rw [hdel.records, hr, UInt64.zero_add]
    exact hpackets

/-- A first fragment, a later one that is given its ports, and a first fragment that does not decode. -/
def mixedFragments : List Frame := [cleanFirst, secondFragment, brokenFirst]

theorem capture_balanced_fragments : ∃ a a', analysisInit 64 true true true = some (some a) ∧
    accountAll 64 (fun _ => ⟨true, true⟩) 0 a mixedFragments = some (a', true) ∧
      Balanced a'.stats a'.flows ∧ FragsBounded (seenAll 64 a.frags mixedFragments) a'.stats ∧
      (a'.stats.packets, a'.stats.malformed, a'.stats.ipv4) = (3, 1, 3) ∧
      (a'.stats.fragFirst, a'.stats.fragLater, a'.stats.fragMatched) = (2, 1, 1) ∧
      (a'.flows.entries.map Flow.packets).sum = 2 := by
  obtain ⟨a, a', hinit, hrun⟩ := @exists_fewRun (fun _ => ⟨true, true⟩) mixedFragments (by decide)
  obtain ⟨hbalanced, hfrags⟩ := (capture_balanced hinit).1 _ _ _ _ hrun
  have hseen : seenAll 64 a.frags mixedFragments =
      cleanFirst.whole :: [secondFragment, brokenFirst].map (behindFirst cleanFirst) := by
    rw [(Fresh.of_init hinit).frags]
    exact seenAll_behindFirst (by decide +kernel) (by decide +kernel)
  have hcounter := hfrags.counter
  rw [hseen] at hcounter
  have hget : [Counter.packets, .malformed, .ipv4, .fragFirst, .fragLater, .fragMatched, .byStatus .ok,
      .nonIp].map (Counter.get a'.stats) = [3, 1, 3, 2, 1, 1, 2, 0] := by
    rw [List.map_congr_left fun c _ => hcounter c]
    decide +kernel
  simp only [List.map_cons, List.map_nil, Counter.get, List.cons.injEq, and_true] at hget
  obtain ⟨hp, hm, h4, hf, hl, hmat, hok, hnon⟩ := hget
  refine ⟨a, a', hinit, hrun, hbalanced, hfrags, ?_, ?_, ?_⟩
  · rw [hp, hm, h4]
  · rw [hf, hl, hmat]
  · rw [hbalanced.flows, hok, hnon]
    decide

/-! ### A capture that is too long -/

theorem accountAll_of_bad {w : ℕ} {ok : ℕ → Grants} : ∀ {fs : List Frame} {a : Analysis} {i : ℕ},
    (∀ f ∈ fs, f.pi.status ≠ .ok) → ∃ a', accountAll w ok i a fs = some (a', true)
  | [], a, _, _ => ⟨a, rfl⟩
  | f :: fs, a, i, h => by
      have hst : (fragCacheApply w a.frags f.pi).2.1.status ≠ .ok := by
        have hframe := (fragCacheApply_frame w a.frags f.pi).1
        rw [PacketInfo.eq_of_erase PacketInfo.noPorts PacketInfo.status (fun _ => rfl) hframe]
        exact h f List.mem_cons_self
      obtain ⟨a₁, hcall⟩ : ∃ a₁, analysisAccount w a f.pi f.caplen f.wirelen f.tsNs (ok i) =
          some (a₁, true) := by
        rw [analysisAccount]
        exact ⟨_, if_pos hst⟩
      obtain ⟨a', hrun⟩ := @accountAll_of_bad w ok fs a₁ (i + 1) fun g hg => h g (List.mem_cons_of_mem _ hg)
      refine ⟨a', ?_⟩
      rw [accountAll, hcall]
      exact hrun

theorem forall₂_replicate {α β : Type} {R : α → β → Prop} {b : β} : ∀ {n : ℕ} {l : List α},
    List.Forall₂ R l (List.replicate n b) → l.length = n ∧ ∀ a ∈ l, R a b
  | 0, l, h => by
      rw [List.replicate_zero, List.forall₂_nil_right_iff] at h
      rw [h]
      exact ⟨rfl, fun a ha => absurd ha List.not_mem_nil⟩
  | n + 1, l, h => by
      rw [List.replicate_succ, List.forall₂_cons_right_iff] at h
      obtain ⟨a, l', hab, hrest, rfl⟩ := h
      obtain ⟨hlen, hall⟩ := forall₂_replicate hrest
      exact ⟨congrArg Nat.succ hlen, List.forall_mem_cons.mpr ⟨hab, hall⟩⟩

/-- One captured byte of a very long frame. -/
def shortRecord : RawRecord := ⟨0, 0, 4294967295, [0], by decide⟩

/-- More than `2 ^ 32` of them. -/
def longCapture : List UInt8 := pcapFile false false 65535 (List.replicate (2 ^ 32 + 2) shortRecord)

/-- The lengths on the wire add up to more than `2 ^ 64`, the captured bytes do not. -/
theorem longCapture_bytes : ∃ r a a' r', pcapOpenMem longCapture = (r, .ok) ∧
    analysisInit 64 true true true = some (some a) ∧
    analysisRun 64 (fun _ => ⟨true, true⟩) a r = some (a', r', .eof) ∧
    ¬ a'.stats.capturedBytes ≤ a'.stats.wireBytes := by
  obtain ⟨a, hinit⟩ := exists_init
  have ha := Fresh.of_init hinit
  have hopen : Opens longCapture (pcapOpenMem longCapture).1 (pcapOpenMem longCapture).2 := .mem
  rcases hread : pcapOpenMem longCapture with ⟨r, st⟩
  rw [hread] at hopen
  obtain ⟨rfl, recs, r', hdel, hreads⟩ := hopen.delivers
  obtain ⟨hlen, hall⟩ := forall₂_replicate hreads
  have hwire : ∀ rec ∈ recs, rec.wirelen.toNat = 4294967295 := fun rec hrec => (hall rec hrec).wirelen
  have hcap : ∀ rec ∈ recs, rec.caplen.toNat = 1 := fun rec hrec => (hall rec hrec).caplen
  have hbad : ∀ f ∈ recs.map PcapRecord.frame, f.pi.status ≠ .ok := by
    intro f hf
    obtain ⟨rec, hrec, rfl⟩ := List.mem_map.mp hf
    have hpi : (PcapRecord.frame rec).pi = decodeFrame (PcapRecord.frame rec).mem 1 4294967295 := by
      rw [Frame.pi, ← hcap rec hrec, ← hwire rec hrec]
      rfl
    rw [hpi]
    have hstatus : (decodeFrame (PcapRecord.frame rec).mem 1 4294967295).status = .truncEthernet := rfl
    rw [hstatus]
    decide
  obtain ⟨a', hrun⟩ := @accountAll_of_bad 64 (fun _ => ⟨true, true⟩) _ a 0 hbad
  obtain ⟨r₁, st₁, hloop, hend⟩ := analysisRun_of_delivers hdel hrun
  obtain ⟨rfl, rfl⟩ := hend
  have hbytes := (AccountedAll.of_run ha.inv hrun).bytesBounded ha hdel.caplen_le
  refine ⟨r, a, a', r₁, rfl, hinit, hloop, ?_⟩
  rw [hbytes.wire, hbytes.captured, List.map_congr_left hwire, List.map_congr_left hcap,
    List.map_const', List.map_const', hlen, List.sum_replicate, List.sum_replicate]
  decide

/-- Later fragments that find no ports and datagrams that are no fragments, `n` of each, and a
datagram in two fragments. -/
def manyFragments (n : ℕ) : List Frame :=
  List.replicate n secondFragment ++ List.replicate n udpFrame ++ [cleanFirst, secondFragment]

theorem seenAll_manyFragments (n : ℕ) : seenAll 64 ⟨some fun _ => {}⟩ (manyFragments n) =
    List.replicate n secondFragment.whole ++ List.replicate n udpFrame.whole ++
      [cleanFirst.whole, behindFirst cleanFirst secondFragment] := by
  have hno : recordsPorts secondFragment.pi = false ∧ recordsPorts udpFrame.pi = false ∧
      recordsPorts cleanFirst.pi = true := by decide +kernel
  obtain ⟨hsecond, hudp, hfirst⟩ := hno
  rw [manyFragments, seenAll_of_noRecord, seenAll_behindFirst hfirst (List.forall_mem_singleton.mpr hsecond),
    List.map_append, List.map_replicate, List.map_replicate, seen_of_empty, seen_of_empty]
  · rfl
  · intro g hg
    obtain hg | hg := List.mem_append.mp hg
    · rw [List.eq_of_mem_replicate hg]
      exact hsecond
    · rw [List.eq_of_mem_replicate hg]
      exact hudp

theorem manyFragments_counter (n : ℕ) : ∃ a a', analysisInit 64 true true true = some (some a) ∧
    accountAll 64 (fun _ => ⟨true, true⟩) 0 a (manyFragments n) = some (a', true) ∧
    ∀ c : Counter, c.get a'.stats = UInt64.ofNat ((if c.hits secondFragment.whole then n else 0) +
      (if c.hits udpFrame.whole then n else 0) +
      tally [cleanFirst.whole, behindFirst cleanFirst secondFragment] c) := by
  obtain ⟨a, a', hinit, hrun, hcounter⟩ := @exists_tallied (manyFragments n) _
    [secondFragment.whole, udpFrame.whole, cleanFirst.whole, behindFirst cleanFirst secondFragment] (by decide)
    (seenAll_manyFragments n) (by
      intro s hs
      obtain hs | hs := List.mem_append.mp hs
      · obtain hs | hs := List.mem_append.mp hs
        · rw [List.eq_of_mem_replicate hs]
          exact List.mem_cons_self
        · rw [List.eq_of_mem_replicate hs]
          exact List.mem_cons_of_mem _ List.mem_cons_self
      · exact List.mem_cons_of_mem _ (List.mem_cons_of_mem _ hs))
  refine ⟨a, a', hinit, hrun, fun c => ?_⟩
  rw [hcounter, tally, List.countP_append, List.countP_append, List.countP_replicate, List.countP_replicate]
  rfl

/-- The later fragments wrap to none, one of them with ports, and the packets to no packet. -/
theorem manyFragments_wrap : ∃ a a', analysisInit 64 true true true = some (some a) ∧
    accountAll 64 (fun _ => ⟨true, true⟩) 0 a (manyFragments (2 ^ 64 - 1)) = some (a', true) ∧
    ¬ a'.stats.fragMatched ≤ a'.stats.fragLater ∧
    ¬ a'.stats.fragFirst.toNat + a'.stats.fragLater.toNat ≤ a'.stats.ipv4.toNat + a'.stats.ipv6.toNat := by
  obtain ⟨a, a', hinit, hrun, hcounter⟩ := manyFragments_counter (2 ^ 64 - 1)
  have hget : [Counter.fragFirst, .fragLater, .fragMatched, .ipv4, .ipv6].map (Counter.get a'.stats) =
      [1, 0, 1, 0, 0] := by
    rw [List.map_congr_left fun c _ => hcounter c]
    decide +kernel
  simp only [List.map_cons, List.map_nil, Counter.get, List.cons.injEq, and_true] at hget
  obtain ⟨hf, hl, hm, h4, h6⟩ := hget
  refine ⟨a, a', hinit, hrun, ?_, ?_⟩
  · rw [hm, hl]
    decide
  · rw [hf, hl, h4, h6]
    decide

/-- Inequalities between counters fail once these have wrapped, of the bytes as of the fragments. -/
theorem longCapture_wraps : (∃ r a a' r', pcapOpenMem longCapture = (r, .ok) ∧
      analysisInit 64 true true true = some (some a) ∧
      analysisRun 64 (fun _ => ⟨true, true⟩) a r = some (a', r', .eof) ∧
      ¬ a'.stats.capturedBytes ≤ a'.stats.wireBytes) ∧
    ∃ a a', analysisInit 64 true true true = some (some a) ∧
      accountAll 64 (fun _ => ⟨true, true⟩) 0 a (manyFragments (2 ^ 64 - 1)) = some (a', true) ∧
      ¬ a'.stats.fragMatched ≤ a'.stats.fragLater ∧
      ¬ a'.stats.fragFirst.toNat + a'.stats.fragLater.toNat ≤ a'.stats.ipv4.toNat + a'.stats.ipv6.toNat :=
  ⟨longCapture_bytes, manyFragments_wrap⟩

end Pcapstat
