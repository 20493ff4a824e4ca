import Pcapstat.Coherence
import Pcapstat.Counters
import Pcapstat.FragBytes
import Pcapstat.FragMap

/-! # Fragments and their flows

What the fragment cache does to the frames of a run.  A later fragment is given the ports of a
first fragment that was recorded (`FragMap.lean`); here is when this is the first fragment of its
own datagram.  Two things go wrong.  A first fragment that does not decode cleanly leaves the entry
of an older datagram in place (`Stale`).  And the cache compares the upper-layer protocol of the
first fragment with the next-header byte of the later one, which differ when further extension
headers follow the Fragment header (`FragInfo.chained`). -/

namespace Pcapstat

/-! ### The cache in a run -/

section run

variable {w : ℕ} {a a' : Analysis} {fs : List Frame}

theorem AccountedAll.frags (h : AccountedAll w a fs a') :
    a'.frags = fragCacheAll w a.frags (fs.map Frame.pi) := by
  induction h with
  | nil => rfl
  | cons hacc _ ih => rw [ih, hacc.frags, List.map_cons, fragCacheAll, fragCacheAll, List.foldl_cons]

/-- The cache of a run is the store its frames have filled. -/
theorem AccountedAll.fragStore (h : AccountedAll w a fs a') (ha : Fresh w a) :
    a'.frags = ⟨some ((fragScheme w).run (fun _ => {}) (fs.map Frame.pi))⟩ := by
  rw [h.frags, ha.frags, fragCacheAll_some]

end run

/-! ### Identifications used again -/

/-- A first fragment, cleanly decoded or not. -/
def firstFragment (pi : PacketInfo) : Bool := pi.hasL3 && pi.frag = .first

/-- `p` is the last first fragment of `ps` with the key of `q`. -/
structure MostRecent (ps : List PacketInfo) (q p : PacketInfo) : Prop where
  split : ∃ pre post, ps = pre ++ p :: post ∧
    ∀ p' ∈ post, firstFragment p' = true → fragKey p' ≠ fragKey q
  first : firstFragment p = true
  key : fragKey p = fragKey q

/-- If the packet was given ports, they are those of the most recent first fragment, and that was
decoded cleanly. -/
def Attributed (ps : List PacketInfo) (q : PacketInfo) (s : Seen) : Prop :=
  s.matched = true → ∃ p, MostRecent ps q p ∧ p.status = .ok ∧ s.pi = q.withPorts p.srcPort p.dstPort

/-- The entry for `q` is older than a first fragment with the key of `q` that did not decode
cleanly. -/
def Stale (w : ℕ) (ps : List PacketInfo) (q : PacketInfo) : Prop :=
  asksPorts q = true ∧ ∃ p post, LastFirst ps q p post ∧ ¬ Overwritten w q post ∧
    ∃ p' ∈ post, firstFragment p' = true ∧ fragKey p' = fragKey q ∧ p'.status ≠ .ok

section stale

variable {w : ℕ} {fs : List Frame} {f : Frame} {p p' q : PacketInfo}

/-- A cleanly decoded first fragment is recorded if another one with its key was. -/
theorem records_of_key {fp fp' : Frame} (hrec : recordsPorts fp.pi = true) (hkey : fragKey fp'.pi = fragKey fp.pi)
    (hfirst : firstFragment fp'.pi = true) (hst : fp'.pi.status = .ok) : recordsPorts fp'.pi = true := by
  simp only [recordsPorts, firstFragment, Bool.and_eq_true, decide_eq_true_eq] at hrec hfirst ⊢
  have hproto : fp'.pi.ipProto = fp.pi.ipProto := congrArg FragKey.proto hkey
  have htrans : isTransport fp.pi.ipProto = true := (decodeFrame_l4_iff.mp hrec.2).2.2.2
  refine ⟨⟨⟨hst, hfirst.1⟩, hfirst.2⟩, decodeFrame_l4_iff.mpr ⟨hfirst.1, hst, ?_, ?_⟩⟩
  · intro hlater
    exact FragKind.noConfusion (hfirst.2.symm.trans hlater)
  · exact hproto ▸ htrans

theorem LastFirst.mem {ps post : List PacketInfo} (h : LastFirst ps q p post) : p ∈ ps ∧ post ⊆ ps := by
  obtain ⟨pre, rfl⟩ := h.split
  exact ⟨List.mem_append_right pre List.mem_cons_self,
    fun x hx => List.mem_append_right pre (List.mem_cons_of_mem p hx)⟩

/-- **When a later fragment is given the ports of its own datagram.** -/
theorem attributed_iff (w : ℕ) (fs : List Frame) (f : Frame) :
    Attributed (fs.map Frame.pi) f.pi
        (seen w ⟨some ((fragScheme w).run (fun _ => {}) (fs.map Frame.pi))⟩ f) ↔
      ¬ Stale w (fs.map Frame.pi) f.pi := by
  rw [Attributed, seen_matched, seen_pi]
  constructor
  · rintro hatt ⟨hask, p, post, hlast, hno, p', hp', hfirst', hkey', hbad⟩
    obtain ⟨r, hrecent, hok, -⟩ := hatt (foundPorts_iff.mpr ⟨hask, p, post, hlast, hno⟩)
    obtain ⟨pre₀, post₀, hsplit₀, hlast₀⟩ := hrecent.split
    obtain ⟨pre, hsplit⟩ := hlast.split
    -- the most recent one is at or after `p'`, so it came after `p` and was recorded
    have hafter : r ∈ post := by
      rw [hsplit, List.append_eq_append_iff] at hsplit₀
      obtain ⟨mid, -, h⟩ | ⟨mid, -, h⟩ := hsplit₀
      · cases mid with
        | nil =>
            have htail : post = post₀ := (List.cons.inj h).2
            exact absurd hkey' (hlast₀ p' (htail ▸ hp') hfirst')
        | cons b mid =>
            have htail : post = mid ++ r :: post₀ := (List.cons.inj h).2
            rw [htail]
            exact List.mem_append_right mid List.mem_cons_self
      · cases mid with
        | nil =>
            have htail : post₀ = post := (List.cons.inj h).2
            exact absurd hkey' (hlast₀ p' (htail ▸ hp') hfirst')
        | cons b mid =>
            have htail : post₀ = mid ++ p :: post := (List.cons.inj h).2
            have hmem : p' ∈ post₀ := by
              rw [htail]
              exact List.mem_append_right mid (List.mem_cons_of_mem p hp')
            exact absurd hkey' (hlast₀ p' hmem hfirst')
    obtain ⟨fp, -, rfl⟩ := List.mem_map.mp hlast.mem.1
    obtain ⟨fr, -, rfl⟩ := List.mem_map.mp (hlast.mem.2 hafter)
    have hrec : recordsPorts fr.pi = true :=
      records_of_key hlast.records (hrecent.key.trans hlast.key.symm) hrecent.first hok
    exact hlast.last fr.pi hafter hrec hrecent.key
  · intro hno hfound
    obtain ⟨hask, p, post, hlast, hover⟩ := foundPorts_iff.mp hfound
    have hclean := hlast.records
    simp only [recordsPorts, Bool.and_eq_true, decide_eq_true_eq] at hclean
    obtain ⟨pre, hsplit⟩ := hlast.split
    refine ⟨p, ⟨⟨pre, post, hsplit, ?_⟩, ?_, hlast.key⟩, hclean.1.1.1, ?_⟩
    · intro p' hp' hfirst' hkey'
      by_cases hst : p'.status = .ok
      · obtain ⟨fp, -, rfl⟩ := List.mem_map.mp hlast.mem.1
        obtain ⟨fp', -, rfl⟩ := List.mem_map.mp (hlast.mem.2 hp')
        have hrec : recordsPorts fp'.pi = true :=
          records_of_key hlast.records (hkey'.trans hlast.key.symm) hfirst' hst
        exact hlast.last fp'.pi hp' hrec hkey'
      · exact hno ⟨hask, p, post, hlast, hover, p', hp', hfirst', hkey', hst⟩
    · rw [firstFragment, hclean.1.1.2, hclean.1.2]
      rfl
    · rw [if_pos hfound, foundPorts_entry hlast hover]
      rfl

end stale

/-- **Every later fragment of a run has the ports of its own datagram or none, exactly when no
entry is stale at the time it is used.** -/
theorem accountAll_attributed_iff {w : ℕ} {okFlows okTunnels okFrags : Bool} {a : Analysis}
    (hinit : analysisInit w okFlows okTunnels okFrags = some (some a)) (ok : ℕ → Grants)
    (fs : List Frame) :
    (∀ pre f post a', fs = pre ++ f :: post → accountAll w ok 0 a pre = some (a', true) →
        Attributed (pre.map Frame.pi) f.pi (seen w a'.frags f)) ↔
      ∀ pre f post a', fs = pre ++ f :: post → accountAll w ok 0 a pre = some (a', true) →
        ¬ Stale w (pre.map Frame.pi) f.pi := by
  have hfresh := Fresh.of_init hinit
  refine forall_congr' fun pre => forall_congr' fun f => forall_congr' fun post => forall_congr' fun a' =>
    forall_congr' fun _ => forall_congr' fun hrun => ?_
  rw [(AccountedAll.of_run hfresh.inv hrun).fragStore hfresh]
  exact attributed_iff w pre f

theorem secondFragment_matched {a a' : Analysis} (hinit : analysisInit 64 true true true = some (some a))
    (hrun : accountAll 64 (fun _ => ⟨true, true⟩) 0 a [cleanFirst] = some (a', true)) :
    (seen 64 a'.frags secondFragment).matched = true := by
  have hfresh := Fresh.of_init hinit
  rw [(AccountedAll.of_run hfresh.inv hrun).fragStore hfresh, List.map_singleton]
  exact congrArg Seen.matched ((seen_behindFirst (by decide +kernel) _).trans (if_pos (by decide +kernel)))

/-- A later fragment behind the first fragment of its datagram. -/
theorem accountAll_attributed_iff_fragments : ∃ a a', analysisInit 64 true true true = some (some a) ∧
    accountAll 64 (fun _ => ⟨true, true⟩) 0 a [cleanFirst] = some (a', true) ∧
    (seen 64 a'.frags secondFragment).matched = true ∧
    Attributed [cleanFirst.pi] secondFragment.pi (seen 64 a'.frags secondFragment) := by
  obtain ⟨a, a', hinit, hrun⟩ := @exists_fewRun (fun _ => ⟨true, true⟩) [cleanFirst] (by decide)
  have hfresh : ∀ pre f post a', [cleanFirst, secondFragment] = pre ++ f :: post →
      accountAll 64 (fun _ => ⟨true, true⟩) 0 a pre = some (a', true) → ¬ Stale 64 (pre.map Frame.pi) f.pi := by
    rintro pre f rest _ hsplit - ⟨-, p, post, hlast, -, p', hp', -⟩
    -- two records would have to come before the fragment, one of them behind the other
    obtain ⟨front, hfront⟩ := hlast.split
    have hlen := congrArg List.length hfront
    have hlen' := congrArg List.length hsplit
    have hpos := List.length_pos_of_mem hp'
    cases f
    simp only [List.length_map, List.length_append, List.length_cons, List.length_nil] at hlen hlen'
    omega
  exact ⟨a, a', hinit, hrun, secondFragment_matched hinit hrun,
    (accountAll_attributed_iff hinit _ [cleanFirst, secondFragment]).mpr hfresh [cleanFirst] secondFragment [] a' rfl
      hrun⟩

/-- A later fragment is given the ports of an older datagram. -/
theorem reusedIdentification_mixed : ∃ a a', analysisInit 64 true true true = some (some a) ∧
    accountAll 64 (fun _ => ⟨true, true⟩) 0 a [cleanFirst, brokenFirst] = some (a', true) ∧
      ¬ Attributed ([cleanFirst, brokenFirst].map Frame.pi) secondFragment.pi
        (seen 64 a'.frags secondFragment) := by
  obtain ⟨a, a', hinit, hrun⟩ := @exists_fewRun (fun _ => ⟨true, true⟩) [cleanFirst, brokenFirst] (by decide)
  have hfresh := Fresh.of_init hinit
  refine ⟨a, a', hinit, hrun, ?_⟩
  rw [(AccountedAll.of_run hfresh.inv hrun).fragStore hfresh, attributed_iff, not_not]
  have hkey : fragKey cleanFirst.pi = fragKey secondFragment.pi ∧
      fragKey brokenFirst.pi = fragKey secondFragment.pi := by decide +kernel
  have hkinds : asksPorts secondFragment.pi = true ∧ recordsPorts cleanFirst.pi = true ∧
      recordsPorts brokenFirst.pi = false ∧ firstFragment brokenFirst.pi = true ∧
      brokenFirst.pi.status = .badUdpLen := by decide +kernel
  obtain ⟨hask, hrec, hno, hfirst, hst⟩ := hkinds
  refine ⟨hask, cleanFirst.pi, [brokenFirst.pi], ⟨⟨[], rfl⟩, hrec, hkey.1, ?_⟩, ?_, brokenFirst.pi,
    List.mem_singleton_self _, hfirst, hkey.2, ?_⟩
  · intro p hp hrec'
    obtain rfl := List.mem_singleton.mp hp
    exact absurd (hno.symm.trans hrec') Bool.false_ne_true
  · rintro ⟨p, hp, hrec', -⟩
    obtain rfl := List.mem_singleton.mp hp
    exact absurd (hno.symm.trans hrec') Bool.false_ne_true
  · rw [hst]
    exact DecodeStatus.noConfusion

/-! ### The fragments of one datagram -/

/-- Two fragments of one datagram: the first one and a later one. -/
structure SplitDatagram (f g : Frame) (i j : FragInfo) : Prop where
  first : IsFragment f.mem i
  later : IsFragment g.mem j
  same : (i.version, i.src, i.dst, i.id, i.next) = (j.version, j.src, j.dst, j.id, j.next)
  start : i.offset = 0 ∧ i.more = true
  behind : j.offset ≠ 0

/-- The counters of the transport protocols. -/
def transportCounters : List Counter := [.tcp, .udp, .icmp, .icmpv6, .otherL4]

/-- Two packets of one flow. -/
structure OneFlow (s t : Seen) : Prop where
  key : (flowKeyFromPacket s.pi).map Prod.fst = (flowKeyFromPacket t.pi).map Prod.fst
  transport : ∀ c ∈ transportCounters, c.hits s = c.hits t

section oneFlow

variable {w : ℕ} {s t : Seen} {p q : PacketInfo} {f g : Frame} {i j : FragInfo}

/-- The flow key is made of the IP version, the protocol, the addresses and the ports. -/
theorem flowKeyFromPacket_congr (hl3 : p.hasL3 = q.hasL3) (hver : p.ipVersion = q.ipVersion)
    (hproto : p.ipProto = q.ipProto) (hsrc : p.srcAddr = q.srcAddr) (hdst : p.dstAddr = q.dstAddr)
    (hsport : p.srcPort = q.srcPort) (hdport : p.dstPort = q.dstPort) :
    flowKeyFromPacket p = flowKeyFromPacket q := by
  have hfrom : fromB p = fromB q := by
    unfold fromB
    rw [hsrc, hdst, hsport, hdport]
  unfold flowKeyFromPacket
  rw [hl3, hfrom, hver, hproto, hsrc, hdst, hsport, hdport]

theorem flowKeyFromPacket_proto (hl3 : p.hasL3 = true) :
    (flowKeyFromPacket p).map (fun kr => kr.1.proto) = some p.ipProto := by
  rw [flowKeyFromPacket, hl3]
  cases fromB p with
  | true => rfl
  | false => rfl

theorem OneFlow.proto (h : OneFlow s t) (hs : s.pi.hasL3 = true) (ht : t.pi.hasL3 = true) :
    s.pi.ipProto = t.pi.ipProto := by
  have hkey := congrArg (Option.map FlowKey.proto) h.key
  rw [Option.map_map, Option.map_map] at hkey
  exact Option.some.inj ((flowKeyFromPacket_proto hs).symm.trans (hkey.trans (flowKeyFromPacket_proto ht)))

theorem transport_congr (hst : s.pi.status = t.pi.status) (hl3 : s.pi.hasL3 = t.pi.hasL3)
    (hproto : s.pi.ipProto = t.pi.ipProto) : ∀ c ∈ transportCounters, c.hits s = c.hits t := by
  simp only [transportCounters, List.forall_mem_cons, List.not_mem_nil, false_imp_iff, implies_true,
    and_true, Counter.hits, PacketInfo.transportKnown, hst, hl3, hproto]

/-- Two packets with the same header fields belong to one flow. -/
theorem OneFlow.of_key (hst : s.pi.status = t.pi.status) (hl3 : s.pi.hasL3 = t.pi.hasL3)
    (hkey : fragKey s.pi = fragKey t.pi) (hsport : s.pi.srcPort = t.pi.srcPort)
    (hdport : s.pi.dstPort = t.pi.dstPort) : OneFlow s t := by
  simp only [fragKey, FragKey.mk.injEq] at hkey
  obtain ⟨hver, hproto, -, hsrc, hdst⟩ := hkey
  refine ⟨?_, transport_congr hst hl3 hproto⟩
  rw [flowKeyFromPacket_congr hl3 hver hproto hsrc hdst hsport hdport]

theorem seen_of_not_later (c : FragCache) (hf : f.pi.frag ≠ .later) : (seen w c f).pi = f.pi := by
  obtain ⟨-, hmatched, hkeep⟩ := fragCacheApply_frame w c f.pi
  cases hm : (fragCacheApply w c f.pi).2.2 with
  | false => exact hkeep hm
  | true => exact absurd (hmatched hm).2.2 hf

theorem seen_fields (c : FragCache) : (seen w c f).pi.hasL3 = f.pi.hasL3 ∧
    (seen w c f).pi.status = f.pi.status ∧ fragKey (seen w c f).pi = fragKey f.pi := by
  obtain ⟨hports, -⟩ := fragCacheApply_frame w c f.pi
  exact ⟨PacketInfo.eq_of_erase PacketInfo.noPorts PacketInfo.hasL3 (fun _ => rfl) hports,
    PacketInfo.eq_of_erase PacketInfo.noPorts PacketInfo.status (fun _ => rfl) hports,
    PacketInfo.eq_of_erase PacketInfo.noPorts fragKey (fun _ => rfl) hports⟩

/-- What the two fragments are read as, when no extension header follows the Fragment header. -/
theorem SplitDatagram.fragKey_eq (h : SplitDatagram f g i j) (hf : f.pi.status = .ok)
    (hg : g.pi.status = .ok) (hchain : i.chained = false) : fragKey f.pi = fragKey g.pi := by
  have hread : i.ReadAs f.pi := decodeFrame_fragment h.first hf
  have hread' : j.ReadAs g.pi := decodeFrame_fragment h.later hg
  obtain ⟨-, hproto, hid⟩ := hread.first h.start.1 h.start.2 hchain
  obtain ⟨-, hproto', hid'⟩ := hread'.later h.behind
  have hsame := h.same
  simp only [Prod.mk.injEq] at hsame
  obtain ⟨hver, hsrc, hdst, hids, hnext⟩ := hsame
  simp only [fragKey, FragKey.mk.injEq]
  refine ⟨?_, ?_, ?_, ?_, ?_⟩
  · exact hread.version.trans (hver.trans hread'.version.symm)
  · exact hproto.trans (hnext.trans hproto'.symm)
  · exact hid.trans (hids.trans hid'.symm)
  · exact hread.src.trans ((congrArg _ hsrc).trans hread'.src.symm)
  · exact hread.dst.trans ((congrArg _ hdst).trans hread'.dst.symm)

/-- A later fragment has the ports of the first one with its key, when nothing has written the
slot in between. -/
theorem seen_ports {pre mid : List Frame} (hkey : fragKey f.pi = fragKey g.pi) (hf : f.pi.status = .ok)
    (hfirst : firstFragment f.pi = true) (hg : asksPorts g.pi = true)
    (hmid : ∀ p ∈ mid.map Frame.pi, p.status = .ok → firstFragment p = true →
      slotFor w p ≠ slotFor w f.pi) :
    let s := seen w ⟨some ((fragScheme w).run (fun _ => {}) ((pre ++ f :: mid).map Frame.pi))⟩ g
    s.pi.srcPort = f.pi.srcPort ∧ s.pi.dstPort = f.pi.dstPort := by
  intro s
  have hslot : slotFor w f.pi = slotFor w g.pi := slotFor_congr w hkey
  have hlater : g.pi.frag = .later := by
    rw [asksPorts, Bool.and_eq_true, decide_eq_true_eq] at hg
    exact hg.2
  have hl3 : f.pi.hasL3 = true ∧ f.pi.frag = .first := by
    rw [firstFragment, Bool.and_eq_true, decide_eq_true_eq] at hfirst
    exact hfirst
  have hrecords : ∀ p : PacketInfo, recordsPorts p = true → p.status = .ok ∧ firstFragment p = true := by
    intro p hrec
    simp only [recordsPorts, firstFragment, Bool.and_eq_true, decide_eq_true_eq] at hrec ⊢
    exact ⟨hrec.1.1.1, hrec.1.1.2, hrec.1.2⟩
  cases htrans : isTransport f.pi.ipProto with
  | true =>
      have hl4 : f.pi.hasL4 = true := by
        refine decodeFrame_l4_iff.mpr ⟨hl3.1, hf, fun h => ?_, htrans⟩
        exact FragKind.noConfusion (hl3.2.symm.trans h)
      have hrec : recordsPorts f.pi = true := by
        rw [recordsPorts, hf, hl3.1, hl3.2, hl4]
        rfl
      have hlast : LastFirst ((pre ++ f :: mid).map Frame.pi) g.pi f.pi (mid.map Frame.pi) := by
        refine ⟨⟨pre.map Frame.pi, List.map_append⟩, hrec, hkey, fun p hp hrec' hkey' => ?_⟩
        exact hmid p hp (hrecords p hrec').1 (hrecords p hrec').2 (slotFor_congr w (hkey'.trans hkey.symm))
      have hno : ¬ Overwritten w g.pi (mid.map Frame.pi) := by
        rintro ⟨p, hp, hrec', -, hslot'⟩
        exact hmid p hp (hrecords p hrec').1 (hrecords p hrec').2 (hslot'.trans hslot.symm)
      have hfound := foundPorts_iff.mpr ⟨hg, f.pi, _, hlast, hno⟩
      have hs : s.pi = g.pi.withPorts f.pi.srcPort f.pi.dstPort := by
        rw [seen_pi, if_pos hfound, foundPorts_entry hlast hno]
        rfl
      rw [hs]
      exact ⟨rfl, rfl⟩
  | false =>
      have hnone : foundPorts w ((fragScheme w).run (fun _ => {}) ((pre ++ f :: mid).map Frame.pi)) g.pi =
          false := by
        rw [← Bool.not_eq_true, foundPorts_iff]
        rintro ⟨-, p, post, hlast, -⟩
        obtain ⟨fp, -, rfl⟩ := List.mem_map.mp hlast.mem.1
        have hrec := hlast.records
        rw [recordsPorts, Bool.and_eq_true] at hrec
        have hproto : fp.pi.ipProto = f.pi.ipProto :=
          congrArg FragKey.proto (hlast.key.trans hkey.symm)
        have htrans' := (decodeFrame_l4_iff.mp hrec.2).2.2.2
        exact Bool.false_ne_true (htrans.symm.trans (hproto ▸ htrans'))
      have hs : s.pi = g.pi := by
        rw [seen_pi, hnone]
        rfl
      have hports : f.pi.srcPort = 0 ∧ f.pi.dstPort = 0 := by
        refine decodeFrame_ports (.inr ⟨?_, ?_⟩)
        · intro h
          rw [Frame.pi, h] at htrans
          exact absurd htrans (by decide)
        · intro h
          rw [Frame.pi, h] at htrans
          exact absurd htrans (by decide)
      have hports' : g.pi.srcPort = 0 ∧ g.pi.dstPort = 0 := decodeFrame_ports (.inl hlater)
      rw [hs, hports.1, hports.2]
      exact hports'

end oneFlow

/-- **The fragments of one datagram are accounted to one flow, exactly when no extension header
follows the Fragment header.** -/
theorem fragments_oneFlow_iff {w : ℕ} {okFlows okTunnels okFrags : Bool} {a a₀ a₁ : Analysis}
    {ok : ℕ → Grants} {pre mid : List Frame} {f g : Frame} {i j : FragInfo}
    (hinit : analysisInit w okFlows okTunnels okFrags = some (some a))
    (hpre : accountAll w ok 0 a pre = some (a₀, true))
    (hrun : accountAll w ok pre.length a₀ (f :: mid) = some (a₁, true))
    (hsplit : SplitDatagram f g i j) (hf : f.pi.status = .ok) (hfirst : f.pi.frag = .first)
    (hg : g.pi.status = .ok)
    (hmid : ∀ p ∈ mid.map Frame.pi, p.status = .ok → firstFragment p = true →
      slotFor w p ≠ slotFor w f.pi) :
    OneFlow (seen w a₀.frags f) (seen w a₁.frags g) ↔ i.chained = false := by
  have hfresh := Fresh.of_init hinit
  have hall₀ := AccountedAll.of_run hfresh.inv hpre
  have hread : i.ReadAs f.pi := decodeFrame_fragment hsplit.first hf
  have hread' : j.ReadAs g.pi := decodeFrame_fragment hsplit.later hg
  have hnext : i.next = j.next := by
    have hsame := hsplit.same
    simp only [Prod.mk.injEq] at hsame
    exact hsame.2.2.2.2
  obtain ⟨hlater, hproto', -⟩ := hread'.later hsplit.behind
  have hnot : f.pi.frag ≠ .later := fun h => FragKind.noConfusion (hfirst.symm.trans h)
  have hseen := seen_of_not_later (w := w) a₀.frags hnot
  obtain ⟨hl3', hst', hkey'⟩ := seen_fields (w := w) (f := g) a₁.frags
  constructor
  · intro hone
    have hproto := hone.proto (by rw [hseen]; exact hread.hasL3) (hl3'.trans hread'.hasL3)
    have hsame : (seen w a₁.frags g).pi.ipProto = g.pi.ipProto := congrArg FragKey.proto hkey'
    rw [hseen, hsame] at hproto
    by_contra hchain
    rw [Bool.not_eq_false] at hchain
    have hext : isIpv6Ext i.next = true := by
      rw [FragInfo.chained, Bool.and_eq_true] at hchain
      exact hchain.2
    have hno := hread.chain hsplit.start.1 hchain hnot
    have heq : f.pi.ipProto = i.next := hproto.trans (hproto'.trans hnext.symm)
    exact Bool.false_ne_true (hno.symm.trans ((congrArg isIpv6Ext heq).trans hext))
  · intro hchain
    have hkey := hsplit.fragKey_eq hf hg hchain
    have hfirst' : firstFragment f.pi = true := by
      rw [firstFragment, hread.hasL3, hfirst]
      rfl
    have hask : asksPorts g.pi = true := by
      rw [asksPorts, hg, hread'.hasL3, hlater]
      rfl
    have hfrags : a₁.frags =
        ⟨some ((fragScheme w).run (fun _ => {}) ((pre ++ f :: mid).map Frame.pi))⟩ := by
      rw [(AccountedAll.of_run (hall₀.inv hfresh.inv) hrun).frags, hall₀.frags, hfresh.frags, ← fragCacheAll_some,
        List.map_append]
      exact List.foldl_append.symm
    obtain ⟨hsport, hdport⟩ := @seen_ports w f g pre mid hkey hf hfirst' hask hmid
    rw [← hfrags] at hsport hdport
    refine .of_key ?_ ?_ ?_ ?_ ?_
    · rw [hseen, hst', hf, hg]
    · rw [hseen, hl3', hread.hasL3, hread'.hasL3]
    · rw [hseen, hkey', hkey]
    · rw [hseen, hsport]
    · rw [hseen, hdport]

theorem isFragment_ipv4 {f : Frame} (htype : be16 f.mem 12 = ethertypeIpv4) :
    IsFragment f.mem
      { version := 4
        src := f.mem.bytes 26 4
        dst := f.mem.bytes 30 4
        id := (be16 f.mem 18).toUInt32
        next := f.mem 23
        offset := be16 f.mem 20 &&& 0x1FFF
        more := be16 f.mem 20 &&& 0x2000 ≠ 0 } := by
  refine @IsFragment.ipv4 f.mem 14 (.type ?_) htype
  rw [htype]
  decide

theorem isFragment_ipv6 {f : Frame} (htype : be16 f.mem 12 = ethertypeIpv6)
    (hnext : f.mem 20 = ip6ExtFragment) :
    IsFragment f.mem
      { version := 6
        src := f.mem.bytes 22 16
        dst := f.mem.bytes 38 16
        id := be32 f.mem 58
        next := f.mem 54
        offset := be16 f.mem 56 >>> 3
        more := be16 f.mem 56 &&& 1 ≠ 0 } := by
  refine @IsFragment.ipv6 f.mem 14 54 (.type ?_) htype ?_
  · rw [htype]
    decide
  · rw [show f.mem (14 + 6) = ip6ExtFragment from hnext]
    exact .here

theorem fragments_oneFlow_iff_ipv4 : ∃ a a₁ i j, analysisInit 64 true true true = some (some a) ∧
    accountAll 64 (fun _ => ⟨true, true⟩) 0 a [cleanFirst] = some (a₁, true) ∧
      SplitDatagram cleanFirst secondFragment i j ∧
      (OneFlow (seen 64 a.frags cleanFirst) (seen 64 a₁.frags secondFragment) ↔ i.chained = false) := by
  obtain ⟨a, a₁, hinit, hrun⟩ := @exists_fewRun (fun _ => ⟨true, true⟩) [cleanFirst] (by decide)
  have hsplit : SplitDatagram cleanFirst secondFragment _ _ :=
    ⟨isFragment_ipv4 (by decide +kernel), isFragment_ipv4 (by decide +kernel), by decide +kernel,
      by decide +kernel, by decide +kernel⟩
  have hpre : accountAll 64 (fun _ => ⟨true, true⟩) 0 a [] = some (a, true) := rfl
  have hclean : cleanFirst.pi.status = .ok ∧ cleanFirst.pi.frag = .first ∧
      secondFragment.pi.status = .ok := by decide +kernel
  obtain ⟨hf, hfirst, hg⟩ := hclean
  exact ⟨a, a₁, _, _, hinit, hrun, hsplit, fragments_oneFlow_iff hinit hpre hrun hsplit hf hfirst hg
    fun p hp => absurd hp List.not_mem_nil⟩

/-- A fragment whose Fragment header is followed by destination options. -/
def ipv6Fragment (offFlags payload : List UInt8) : Frame :=
  ⟨SpanWalk.Mem.ofList ([2, 0, 0, 0, 0, 2, 2, 0, 0, 0, 0, 1, 0x86, 0xDD, 0x60, 0, 0, 0, 0, 24, 44, 64] ++
    (List.replicate 15 0 ++ [1]) ++ (List.replicate 15 0 ++ [2]) ++ [60, 0] ++ offFlags ++ [0, 0, 0, 1] ++
    payload), 78, 78, 0⟩

/-- The first fragment: destination options and a UDP header. -/
def optionsFirst : Frame :=
  ipv6Fragment [0, 1] [17, 0, 1, 4, 0, 0, 0, 0, 0x03, 0xE8, 0x07, 0xD0, 0, 16, 0, 0]

def optionsSecond : Frame := ipv6Fragment [0, 16] (List.replicate 16 0)

/-- The fragments of a datagram with destination options are accounted to two flows. -/
theorem chainedFragments_split : ∃ a a₁ i j, analysisInit 64 true true true = some (some a) ∧
    accountAll 64 (fun _ => ⟨true, true⟩) 0 a [optionsFirst] = some (a₁, true) ∧
      SplitDatagram optionsFirst optionsSecond i j ∧
      optionsFirst.pi.status = .ok ∧ optionsFirst.pi.frag = .first ∧ optionsSecond.pi.status = .ok ∧
      ¬ OneFlow (seen 64 a.frags optionsFirst) (seen 64 a₁.frags optionsSecond) := by
  obtain ⟨a, a₁, hinit, hrun⟩ := @exists_fewRun (fun _ => ⟨true, true⟩) [optionsFirst] (by decide)
  have hsplit : SplitDatagram optionsFirst optionsSecond _ _ :=
    ⟨isFragment_ipv6 (by decide +kernel) (by decide +kernel),
      isFragment_ipv6 (by decide +kernel) (by decide +kernel), by decide +kernel, by decide +kernel,
      by decide +kernel⟩
  have hkinds : optionsFirst.pi.status = .ok ∧ optionsFirst.pi.frag = .first ∧
      optionsSecond.pi.status = .ok ∧ optionsFirst.pi.hasL3 = true ∧ optionsSecond.pi.hasL3 = true ∧
      optionsFirst.pi.ipProto = ipprotoUdp ∧ optionsSecond.pi.ipProto = ip6ExtDstopts := by
    decide +kernel
  obtain ⟨hf, hfirst, hg, hl3, hl3', hproto, hproto'⟩ := hkinds
  refine ⟨a, a₁, _, _, hinit, hrun, hsplit, hf, hfirst, hg, fun hone => ?_⟩
  obtain ⟨hfields, -, hkey⟩ := seen_fields (w := 64) (f := optionsFirst) a.frags
  obtain ⟨hfields', -, hkey'⟩ := seen_fields (w := 64) (f := optionsSecond) a₁.frags
  have hsame := hone.proto (hfields.trans hl3) (hfields'.trans hl3')
  have hudp : (seen 64 a.frags optionsFirst).pi.ipProto = ipprotoUdp :=
    (congrArg FragKey.proto hkey).trans hproto
  have hopts : (seen 64 a₁.frags optionsSecond).pi.ipProto = ip6ExtDstopts :=
    (congrArg FragKey.proto hkey').trans hproto'
  rw [hudp, hopts] at hsame
  exact absurd hsame (by decide)

end Pcapstat
