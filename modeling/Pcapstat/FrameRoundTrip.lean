import Pcapstat.FrameLayout
import Pcapstat.GtpuGrammar

/-! # Decoding undoes encoding

Followed over the bytes of a `FrameLayout`, the decoder finds the header that each next-header field
announces where the layout has put it, so it ends with the fields of the layout. -/

namespace Pcapstat

open SpanWalk SpanWalk.Walk

section steps

variable {m : Mem} {s : Span} {pi : PacketInfo} {E : DecodeStatus → Span → PacketInfo → Prop}

/-! ### Link layer -/

/-- `pi` with one more tag. -/
def PacketInfo.addTag (pi : PacketInfo) (t : VlanTag) : PacketInfo :=
  { pi with
    vlanIds := pi.vlanIds.set pi.vlanCount (UInt16.ofNat t.vid)
    vlanCount := pi.vlanCount + 1 }

theorem wp_decodeVlans {ethertype : UInt16} {rest : List UInt8} {Q : UInt16 → Span → PacketInfo → Prop}
    (hno : isVlanType ethertype = false) : ∀ {tags : List VlanTag} {left : ℕ} {s : Span} {pi : PacketInfo},
    Covers m s (putTags tags ethertype ++ rest) → tags.length ≤ left →
    (∀ s', Covers m s' rest → Q ethertype s' (tags.foldl PacketInfo.addTag pi)) →
    wp (fun _ => True) m (decodeVlans left (firstTpid tags ethertype)) Q E s pi
  | [], 0, s, pi, h, _, hend => by
      show wp _ m (decodeVlans 0 ethertype) Q E s pi
      simp only [decodeVlans, hno, Bool.false_eq_true, if_false, wp_pure]
      exact hend s h
  | [], left + 1, s, pi, h, _, hend => by
      show wp _ m (decodeVlans (left + 1) ethertype) Q E s pi
      simp only [decodeVlans, hno, Bool.false_eq_true, if_false, wp_pure]
      exact hend s h
  | _ :: _, 0, _, _, _, hle, _ => absurd hle (Nat.not_succ_le_zero _)
  | t :: ts, left + 1, s, pi, h, hle, hend => by
      have htci : be16 m (s.p + 0) = t.tci := be16_covers h rfl rfl
      have hnext : be16 m (s.p + 2) = firstTpid ts ethertype := be16_covers h rfl rfl
      rw [putTags, List.append_assoc] at h
      show wp _ m (decodeVlans (left + 1) t.tpid) Q E s pi
      simp only [decodeVlans, t.isTag, if_true, wp_bind, h.wp_need, wp_be16At, wp_modifyOut,
        wp_advance, htci, hnext, t.tci_vid, true_and]
      constructor
      · intro _
        apply wp_decodeVlans hno (h.advance rfl) (Nat.le_of_succ_le_succ hle)
        intro s' h'
        exact hend s' h'
      · intro hlt
        rw [List.length_append] at hlt
        have hfour : (vlanBytes t.tci (firstTpid ts ethertype)).length = vlanTagLen := rfl
        omega

theorem wp_decodeL2 {dst src : Bytes 6} {tags : List VlanTag} {ethertype : UInt16} {rest : List UInt8}
    {Q : UInt16 → Span → PacketInfo → Prop} (hno : isVlanType ethertype = false)
    (hle : tags.length ≤ decodeMaxVlans)
    (h : Covers m s (ethBytes dst.1 src.1 (firstTpid tags ethertype) ++ (putTags tags ethertype ++ rest)))
    (hend : ∀ s', Covers m s' rest →
      Q ethertype s' { tags.foldl PacketInfo.addTag pi with ethertype := ethertype, hasL2 := true }) :
    wp (fun _ => True) m decodeL2 Q E s pi := by
  have hlen : (ethBytes dst.1 src.1 (firstTpid tags ethertype)).length = ethHdrLen := by
    rw [ethBytes, List.length_append, List.length_append, dst.2, src.2, length_bbBe16]
    rfl
  have htype : be16 m (s.p + 12) = firstTpid tags ethertype := by
    have hpart := h
    rw [ethBytes, List.append_assoc, List.append_assoc, ← List.append_assoc dst.1] at hpart
    apply be16_part hpart
    rw [List.length_append, dst.2, src.2]
  simp only [decodeL2, wp_bind, h.wp_need, wp_be16At, wp_advance, wp_modifyOut, wp_pure, htype, true_and]
  constructor
  · intro _
    exact wp_decodeVlans hno (h.advance hlen) hle fun s' h' => hend s' h'
  · intro hlt
    rw [List.length_append] at hlt
    omega

/-! ### Transport layer -/

theorem TcpHeader.dataOffset (h : TcpHeader) :
    (UInt8.ofNat ((5 + h.optWords) * 16 + h.reserved) >>> 4).toNat = 5 + h.optWords := by
  have hopt := h.optWords_le
  have hres := h.reserved.isLt
  have hlt : (5 + h.optWords) * 16 + (h.reserved : ℕ) < UInt8.size := by
    show _ < 256
    omega
  rw [UInt8.toNat_shiftRight, UInt8.toNat_ofNat_of_lt' hlt]
  show ((5 + h.optWords) * 16 + (h.reserved : ℕ)) >>> 4 = 5 + h.optWords
  rw [Nat.shiftRight_eq_div_pow]
  omega

theorem ends_decodeTcp {h : TcpHeader} {payload : List UInt8} (hc : Covers m s (h.bytes ++ payload)) :
    Ends m decodeTcp (fun st s' pi' => st = .ok ∧ Covers m s' (h.bytes ++ payload) ∧
      pi' = (Transport.tcp h).info pi) s pi := by
  have hsrc : be16 m (s.p + 0) = h.srcPort := be16_covers hc rfl rfl
  have hdst : be16 m (s.p + 2) = h.dstPort := be16_covers hc rfl rfl
  have hflags : m (s.p + 13) = h.flags := hc.byte rfl
  have hoff : m (s.p + 12) = UInt8.ofNat ((5 + h.optWords) * 16 + h.reserved) := hc.byte rfl
  have hhlen := h.dataOffset
  have hlen : h.bytes.length = 20 + 4 * h.optWords := by
    show h.options.1.length + 20 = _
    rw [h.options.2, Nat.add_comm]
  have hcap := hc.cap
  have hwire := hc.wire
  rw [List.length_append, hlen] at hcap hwire
  simp only [decodeTcp, ends_bind, ends_modifyOut, hc.wp_need, wp_be16At, wp_load8, wp_modifyOut, wp_wireLeft,
    wp_exitIf, wp_requireCap, hsrc, hdst, hflags, hoff, hhlen, true_and, List.length_append, hlen]
  refine ⟨fun _ => ⟨fun _ => ⟨fun _ => ⟨hc, rfl⟩, fun hlt => ?_⟩, fun hbad => ?_⟩, fun hlt => ?_⟩
  · omega
  · simp only [tcpMinHdr] at hbad
    omega
  · simp only [tcpMinHdr] at hlt
    omega

theorem ends_decodeUdp {h : UdpHeader} {payload : List UInt8} (hfits : 8 + payload.length < 2 ^ 16)
    (hc : Covers m s (h.bytes payload.length ++ payload)) (frag : FragKind) :
    Ends m (decodeUdp frag) (fun st s' pi' => st = .ok ∧ Covers m s' (h.bytes payload.length ++ payload) ∧
      pi' = (Transport.udp h).info pi) s pi := by
  have hsrc : be16 m (s.p + 0) = h.srcPort := be16_covers hc rfl rfl
  have hdst : be16 m (s.p + 2) = h.dstPort := be16_covers hc rfl rfl
  have hulen : be16 m (s.p + 4) = UInt16.ofNat (8 + payload.length) := be16_covers hc rfl rfl
  have hfield : (UInt16.ofNat (8 + payload.length)).toNat = 8 + payload.length := UInt16.toNat_ofNat_of_lt' hfits
  have hlen : (h.bytes payload.length ++ payload).length = 8 + payload.length := by
    rw [List.length_append]
    rfl
  have hwire := hc.wire
  rw [hlen] at hwire
  have hclip : Covers m ⟨s.p, min s.cap (8 + payload.length), 8 + payload.length⟩
      (h.bytes payload.length ++ payload) := by
    have hall := hc
    rw [← List.append_nil (h.bytes payload.length ++ payload)] at hall
    exact hall.clip hlen
  simp only [decodeUdp, ends_bind, ends_ite, ends_modifyOut, hc.wp_need, wp_be16At, wp_modifyOut,
    wp_wireLeft, wp_exitIf, wp_clip, hsrc, hdst, hulen, hfield, hlen, true_and]
  refine ⟨fun _ => ⟨fun _ => ⟨fun _ => ⟨hclip, rfl⟩, fun _ => ⟨hc, rfl⟩⟩, fun hbad => ?_⟩,
    fun hlt => ?_⟩
  · simp only [udpHdrLen] at hbad
    omega
  · simp only [udpHdrLen] at hlt
    omega

theorem ends_decodeIcmp {h : IcmpHeader} {payload : List UInt8} (hc : Covers m s (h.bytes ++ payload)) :
    Ends m decodeIcmp (fun st s' pi' => st = .ok ∧ Covers m s' (h.bytes ++ payload) ∧
      pi' = (Transport.icmp h).info pi) s pi := by
  have htype : m (s.p + 0) = h.type := hc.byte rfl
  have hcode : m (s.p + 1) = h.code := hc.byte rfl
  simp only [decodeIcmp, ends_bind, ends_modifyOut, hc.wp_need, wp_load8, htype, hcode, true_and]
  refine ⟨fun _ => ⟨hc, rfl⟩, fun hlt => ?_⟩
  rw [List.length_append] at hlt
  have hfour : h.bytes.length = icmpMinHdr := rfl
  omega

theorem ends_decodeL4 {t : Transport} {payload : List UInt8} (hfits : (t.bytes payload).length < 2 ^ 16)
    (hproto : pi.ipProto = t.proto) (hc : Covers m s (t.bytes payload)) :
    Ends m decodeL4 (fun st s' pi' => st = .ok ∧ Covers m s' (t.bytes payload) ∧ pi' = t.info pi) s pi := by
  simp only [decodeL4, ends_bind, wp_getOut, hproto]
  cases t with
  | tcp h => exact ends_decodeTcp hc
  | udp h =>
      refine ends_decodeUdp ?_ hc pi.frag
      rw [Transport.bytes, List.length_append] at hfits
      exact hfits
  | icmp h => exact ends_decodeIcmp hc
  | icmpv6 h => exact ends_decodeIcmp hc

/-! ### IPv4 -/

theorem versionIhl_spec {k : ℕ} (hk : k ≤ 10) :
    (0x40 ||| (UInt8.ofNat (5 + k) &&& 0x0F) : UInt8) >>> 4 = 4 ∧
      ((0x40 ||| (UInt8.ofNat (5 + k) &&& 0x0F) : UInt8) &&& 0x0F).toNat = 5 + k := by
  have hall : ∀ k : Fin 11, (0x40 ||| (UInt8.ofNat (5 + k) &&& 0x0F) : UInt8) >>> 4 = 4 ∧
      ((0x40 ||| (UInt8.ofNat (5 + k) &&& 0x0F) : UInt8) &&& 0x0F).toNat = 5 + k := by decide
  exact hall ⟨k, Nat.lt_succ_of_le hk⟩

theorem Addr.copyFrom_ofIpv4 (a : Bytes 4) : Addr.zero.copyFrom a.1 = .ofIpv4 a := by
  apply Addr.ext_bytes
  show (a.1 ++ (List.replicate 16 0).drop a.1.length).take 16 = a.1 ++ List.replicate 12 0
  rw [a.2]
  apply List.take_of_length_le
  rw [List.length_append, a.2]
  decide

theorem Addr.copyFrom_ofIpv6 (a : Bytes 16) : Addr.zero.copyFrom a.1 = .ofIpv6 a := by
  apply Addr.ext_bytes
  show (a.1 ++ (List.replicate 16 0).drop a.1.length).take 16 = a.1
  rw [List.take_append_of_le_length (Nat.le_of_eq a.2.symm)]
  exact List.take_of_length_le (Nat.le_of_eq a.2)

/-- Nothing is known of the network layer. -/
structure PacketInfo.NoNetwork (pi : PacketInfo) : Prop where
  frag : pi.frag = .none
  fragId : pi.fragId = 0
  srcAddr : pi.srcAddr = .zero
  dstAddr : pi.dstAddr = .zero

theorem Ipv4Header.length_bytes (h : Ipv4Header) (proto : UInt8) (len : ℕ) :
    (h.bytes proto len).length = h.length := by
  show (h.src.1 ++ (h.dst.1 ++ h.options.1)).length + 12 = 20 + 4 * h.optWords
  rw [List.length_append, List.length_append, h.src.2, h.dst.2, h.options.2]
  omega

theorem wp_decodeIpv4Header {h : Ipv4Header} {proto : UInt8} {upper trailer : List UInt8}
    {Q : Unit → Span → PacketInfo → Prop} (hpi : pi.NoNetwork) (hfits : h.length + upper.length < 2 ^ 16)
    (hc : Covers m s (h.bytes proto upper.length ++ upper ++ trailer))
    (hend : ∀ s', Covers m s' upper → Q () s' ((Network.ipv4 h).info pi proto)) :
    wp (fun _ => True) m decodeIpv4Header Q E s pi := by
  obtain ⟨hver, hihl⟩ := versionIhl_spec h.optWords_le
  have hlen := h.length_bytes proto upper.length
  have h20 : h.length = (5 + h.optWords) * 4 := by
    unfold Ipv4Header.length
    omega
  have hip0 : m (s.p + 0) = 0x40 ||| (UInt8.ofNat (5 + h.optWords) &&& 0x0F) := hc.byte rfl
  have htotal : be16 m (s.p + 2) = UInt16.ofNat (h.length + upper.length) := be16_covers hc rfl rfl
  have hfield : (UInt16.ofNat (h.length + upper.length)).toNat = h.length + upper.length :=
    UInt16.toNat_ofNat_of_lt' hfits
  have hproto : m (s.p + 9) = proto := hc.byte rfl
  have hid : be16 m (s.p + 4) = h.id := be16_covers hc rfl rfl
  have hfrag : be16 m (s.p + 6) = h.frag := be16_covers hc rfl rfl
  have hwire := hc.wire
  rw [List.length_append, List.length_append, hlen] at hwire
  have hroom : 20 ≤ (h.bytes proto upper.length ++ upper ++ trailer).length := by
    rw [List.length_append, List.length_append, hlen, h20]
    omega
  have hsrc : m.bytes (s.p + 12) 4 = h.src.1 := by
    rw [hc.slice (by omega)]
    show ((h.src.1 ++ (h.dst.1 ++ h.options.1)) ++ upper ++ trailer).take 4 = h.src.1
    rw [List.append_assoc, List.append_assoc]
    exact List.take_left' h.src.2
  have hdst : m.bytes (s.p + 16) 4 = h.dst.1 := by
    rw [hc.slice (by omega)]
    show (((h.src.1 ++ (h.dst.1 ++ h.options.1)) ++ upper ++ trailer).drop 4).take 4 = h.dst.1
    rw [List.append_assoc, List.append_assoc, List.drop_left' h.src.2, List.append_assoc]
    exact List.take_left' h.dst.2
  have hinfo : pi.setIpv4 proto h.src.1 h.dst.1 h.id h.frag = (Network.ipv4 h).info pi proto := by
    unfold PacketInfo.setIpv4 Network.info
    rw [hpi.frag, hpi.srcAddr, hpi.dstAddr, Addr.copyFrom_ofIpv4, Addr.copyFrom_ofIpv4]
  have hpacket : (h.bytes proto upper.length ++ upper).length = h.length + upper.length := by
    rw [List.length_append, hlen]
  have hnext := hend _ ((hc.clip hpacket).advance hlen)
  have hne : ¬ h.length + upper.length = 0 := by omega
  simp only [decodeIpv4Header, wp_bind, hc.wp_need, wp_load8, wp_exitIf, wp_be16At, wp_wireLeft,
    wp_requireCap, wp_loadBytes, wp_modifyOut, wp_clip, wp_advance, hip0, hver, hihl, htotal, hfield, hproto,
    hid, hfrag, hsrc, hdst, hinfo, ← h20, if_neg hne, ne_eq, not_true, not_false_eq_true, true_imp_iff, implies_true,
    true_and, false_imp_iff, and_true]
  refine ⟨fun _ => ⟨fun _ => ⟨fun _ => ⟨fun _ => hnext, fun hlt => ?_⟩, fun hbad => ?_⟩, fun hlt => ?_⟩,
    fun hlt => ?_⟩
  · have hcap := hc.cap
    rw [List.length_append, hpacket] at hcap
    omega
  · omega
  · simp only [ipv4MinHdr] at hlt
    omega
  · simp only [ipv4MinHdr] at hlt
    omega

/-- What the packet decoders make of the layers above the link layer. -/
def upperInfo (n : Network) (t : Transport) (pi : PacketInfo) : PacketInfo :=
  if (n.info pi t.proto).frag = .later then n.info pi t.proto else t.info (n.info pi t.proto)

theorem ends_decodeIpv4 {h : Ipv4Header} {t : Transport} {payload trailer : List UInt8} (hpi : pi.NoNetwork)
    (hfits : h.length + (t.bytes payload).length < 2 ^ 16)
    (hc : Covers m s (h.bytes t.proto (t.bytes payload).length ++ t.bytes payload ++ trailer)) :
    Ends m decodeIpv4 (fun st s' pi' => st = .ok ∧ pi' = upperInfo (.ipv4 h) t pi ∧
      (pi'.frag ≠ .later → Covers m s' (t.bytes payload))) s pi := by
  simp only [decodeIpv4, ends_bind]
  apply wp_decodeIpv4Header hpi hfits hc
  intro s₁ h₁
  simp only [wp_getOut, ends_ite, ends_pure]
  unfold upperInfo
  constructor
  · intro hlater
    rw [if_pos hlater]
    exact ⟨trivial, rfl, fun hno => absurd hlater hno⟩
  · intro hlater
    rw [if_neg hlater]
    apply Ends.mono (ends_decodeL4 (by omega) rfl h₁)
    rintro st s' pi' ⟨rfl, hcover, rfl⟩
    exact ⟨rfl, rfl, fun _ => hcover⟩

/-! ### IPv6 -/

theorem Ipv6Header.version (h : Ipv6Header) :
    (UInt32.ofNat (0x60000000 + h.label) >>> 24).toUInt8 >>> 4 = 6 := by
  have hlabel := h.label.isLt
  have hlt : 0x60000000 + (h.label : ℕ) < UInt32.size := by
    show _ < 4294967296
    omega
  apply UInt8.toNat_inj.mp
  rw [UInt8.toNat_shiftRight, UInt32.toNat_toUInt8, UInt32.toNat_shiftRight, UInt32.toNat_ofNat_of_lt' hlt]
  show ((0x60000000 + (h.label : ℕ)) >>> 24 % 2 ^ 8) >>> 4 = 6
  rw [Nat.shiftRight_eq_div_pow, Nat.shiftRight_eq_div_pow]
  omega

theorem Ipv6Header.length_bytes (h : Ipv6Header) (next : UInt8) (len : ℕ) :
    (h.bytes next len).length = ipv6HdrLen := by
  show (h.src.1 ++ h.dst.1).length + 8 = 40
  rw [List.length_append, h.src.2, h.dst.2]

/-- `pi` with what the fixed header says. -/
def PacketInfo.setIpv6 (pi : PacketInfo) (h : Ipv6Header) : PacketInfo :=
  { pi with hasL3 := true, ipVersion := 6, srcAddr := .ofIpv6 h.src, dstAddr := .ofIpv6 h.dst }

theorem wp_decodeIpv6Header {h : Ipv6Header} {next : UInt8} {upper trailer : List UInt8}
    {Q : UInt8 → Span → PacketInfo → Prop} (hpi : pi.NoNetwork) (hfits : upper.length < 2 ^ 16)
    (hc : Covers m s (h.bytes next upper.length ++ (upper ++ trailer)))
    (hend : ∀ s', Covers m s' upper → Q next s' (pi.setIpv6 h)) :
    wp (fun _ => True) m decodeIpv6Header Q E s pi := by
  have hlen := h.length_bytes next upper.length
  have hip0 : m (s.p + 0) >>> 4 = 6 := by
    rw [hc.byte (i := 0) rfl]
    exact h.version
  have hpayload : be16 m (s.p + 4) = UInt16.ofNat upper.length := be16_covers hc rfl rfl
  have hfield : (UInt16.ofNat upper.length).toNat = upper.length := UInt16.toNat_ofNat_of_lt' hfits
  have hnext : m (s.p + 6) = next := hc.byte rfl
  have hroom : (h.bytes next upper.length ++ (upper ++ trailer)).length =
      40 + (upper.length + trailer.length) := by
    rw [List.length_append, List.length_append, hlen]
    rfl
  have hsrc : m.bytes (s.p + 8) 16 = h.src.1 := by
    rw [hc.slice (by omega)]
    show ((h.src.1 ++ h.dst.1) ++ (upper ++ trailer)).take 16 = h.src.1
    rw [List.append_assoc]
    exact List.take_left' h.src.2
  have hdst : m.bytes (s.p + 24) 16 = h.dst.1 := by
    rw [hc.slice (by omega)]
    show (((h.src.1 ++ h.dst.1) ++ (upper ++ trailer)).drop 16).take 16 = h.dst.1
    rw [List.append_assoc, List.drop_left' h.src.2]
    exact List.take_left' h.dst.2
  have hwire := hc.wire
  rw [hroom] at hwire
  have hend' := hend _ ((hc.advance hlen).clip rfl)
  simp only [decodeIpv6Header, wp_bind, hc.wp_need, wp_load8, wp_exitIf, wp_be16At, wp_wireMinus,
    wp_loadBytes, wp_modifyOut, wp_advance, wp_clip, wp_pure, hip0, hpayload, hfield, hnext, hsrc, hdst,
    hpi.srcAddr, hpi.dstAddr, Addr.copyFrom_ofIpv6, ne_eq, not_true, not_false_eq_true, true_imp_iff,
    implies_true, true_and, false_imp_iff, and_true]
  refine ⟨fun _ => ⟨fun _ => hend', fun hbad => ?_⟩, fun hlt => ?_⟩
  · simp only [ipv6HdrLen] at hbad
    omega
  · simp only [ipv6HdrLen] at hlt
    omega

/-- `pi` with what a chain says, whatever was found before. -/
def PacketInfo.walkExts (pi : PacketInfo) (exts : List Ipv6Ext) (proto : UInt8) : PacketInfo :=
  { pi with
    ipProto := chainProto exts proto
    frag := if exts.any Ipv6Ext.isLater then .later else if exts.any Ipv6Ext.isFirst then .first else pi.frag
    fragId := ((walkedExts exts).filterMap Ipv6Ext.fragId?).getLast?.getD pi.fragId }

/-- `pi` with what one header says. -/
def PacketInfo.setExt (pi : PacketInfo) : Ipv6Ext → PacketInfo
  | .options _ _ _ _ => pi
  | .fragment _ offFlags id => pi.setFragment offFlags id

theorem PacketInfo.walkExts_cons {e : Ipv6Ext} (he : e.isLater = false) (es : List Ipv6Ext) (proto : UInt8) :
    pi.walkExts (e :: es) proto = (pi.setExt e).walkExts es proto := by
  unfold PacketInfo.walkExts
  rw [List.any_cons, List.any_cons, he, Bool.false_or, walkedExts, he, if_neg Bool.false_ne_true, chainProto,
    he, if_neg Bool.false_ne_true]
  cases e with
  | options type len content h => rfl
  | fragment reserved offFlags id =>
      have hoff : offFlags >>> 3 = 0 := by
        rw [Ipv6Ext.isLater, decide_eq_false_iff_not, not_not] at he
        exact he
      have hlast : ((Ipv6Ext.fragment reserved offFlags id :: walkedExts es).filterMap
          Ipv6Ext.fragId?).getLast?.getD pi.fragId =
          ((walkedExts es).filterMap Ipv6Ext.fragId?).getLast?.getD id := by
        show (id :: (walkedExts es).filterMap Ipv6Ext.fragId?).getLast?.getD pi.fragId = _
        rw [List.getLast?_cons, Option.getD_some]
      have hmore : Ipv6Ext.isFirst (.fragment reserved offFlags id) = decide (offFlags &&& 1 ≠ 0) := by
        show (decide (offFlags >>> 3 = 0) && decide (offFlags &&& 1 ≠ 0)) = _
        rw [decide_eq_true hoff, Bool.true_and]
      have hfirst : (if Ipv6Ext.isFirst (.fragment reserved offFlags id) || es.any Ipv6Ext.isFirst then
          FragKind.first else pi.frag) =
          if es.any Ipv6Ext.isFirst then .first else (pi.setFragment offFlags id).frag := by
        unfold PacketInfo.setFragment
        dsimp only
        rw [hmore, if_neg (not_not.mpr hoff)]
        cases es.any Ipv6Ext.isFirst with
        | true => rw [Bool.or_true, if_pos rfl, if_pos rfl]
        | false =>
            rw [Bool.or_false, if_neg Bool.false_ne_true]
            exact if_congr decide_eq_true_iff rfl rfl
      rw [hlast, hfirst]
      rfl

theorem PacketInfo.walkExts_later {reserved : UInt8} {offFlags : UInt16} {id : UInt32}
    (hoff : offFlags >>> 3 ≠ 0) (es : List Ipv6Ext) (proto : UInt8) :
    pi.walkExts (.fragment reserved offFlags id :: es) proto =
      { pi.setFragment offFlags id with ipProto := firstExt es proto } := by
  have he : Ipv6Ext.isLater (.fragment reserved offFlags id) = true := decide_eq_true hoff
  unfold PacketInfo.walkExts PacketInfo.setFragment
  rw [List.any_cons, he, Bool.true_or, if_pos rfl, walkedExts, he, if_pos rfl, chainProto, he, if_pos rfl,
    if_pos hoff]
  rfl

/-- The extension headers are stepped over, up to the header of a later fragment. -/
theorem ends_decodeIpv6Chain {t : Transport} {payload : List UInt8}
    (hfits : (t.bytes payload).length < 2 ^ 16) : ∀ {exts : List Ipv6Ext} {left : ℕ} {s : Span}
    {pi : PacketInfo}, pi.frag ≠ .later → exts.length ≤ left →
    Covers m s (putChain exts t.proto ++ t.bytes payload) →
    Ends m (decodeIpv6Chain left (firstExt exts t.proto)) (fun st s' pi' => st = .ok ∧
      pi' = (if (pi.walkExts exts t.proto).frag = .later then pi.walkExts exts t.proto
        else t.info (pi.walkExts exts t.proto)) ∧
      (pi'.frag ≠ .later → Covers m s' (t.bytes payload))) s pi
  | [], left, s, pi, hpi, _, hc => by
      have hupper : decodeIpv6Chain left t.proto = decodeUpper t.proto := by
        have hno : isIpv6Ext t.proto = false := by cases t <;> rfl
        cases left with
        | zero => rw [decodeIpv6Chain, hno, if_neg Bool.false_ne_true]
        | succ left => rw [decodeIpv6Chain, hno, if_neg Bool.false_ne_true]
      show Ends m (decodeIpv6Chain left t.proto) _ s pi
      rw [hupper]
      simp only [decodeUpper, ends_bind, wp_modifyOut]
      apply Ends.mono (ends_decodeL4 hfits rfl hc)
      rintro st s' pi' ⟨rfl, hcover, rfl⟩
      exact ⟨rfl, (if_neg hpi).symm, fun _ => hcover⟩
  | _ :: _, 0, _, _, _, hle, _ => absurd hle (Nat.not_succ_le_zero _)
  | .options type len content htype :: es, left + 1, s, pi, hpi, hle, hc => by
      have hext : isIpv6Ext type = true := by
        obtain rfl | rfl | rfl := htype <;> rfl
      have hfrag : type ≠ ip6ExtFragment := by
        obtain rfl | rfl | rfl := htype <;> decide
      have hnext : m (s.p + 0) = firstExt es t.proto := hc.byte rfl
      have hlen8 : m (s.p + 1) = len := hc.byte rfl
      rw [putChain, List.append_assoc] at hc
      have hlen : ((Ipv6Ext.options type len content htype).bytes (firstExt es t.proto)).length =
          (len.toNat + 1) * 8 := by
        show content.1.length + 2 = _
        rw [content.2]
        omega
      have hroom : (len.toNat + 1) * 8 ≤ ((Ipv6Ext.options type len content htype).bytes
          (firstExt es t.proto) ++ (putChain es t.proto ++ t.bytes payload)).length := by
        rw [List.length_append, hlen]
        exact Nat.le_add_right _ _
      show Ends m (decodeIpv6Chain (left + 1) type) _ s pi
      simp only [decodeIpv6Chain, hext, if_true, if_neg hfrag, ends_bind, hc.wp_need, wp_load8, wp_advance, hnext,
        hlen8, true_and]
      rw [PacketInfo.walkExts_cons rfl]
      refine ⟨fun _ => ⟨fun _ => ?_, fun hlt => ?_⟩, fun hlt => ?_⟩
      · exact ends_decodeIpv6Chain hfits hpi (Nat.le_of_succ_le_succ hle) (hc.advance hlen)
      · omega
      · omega
  | .fragment reserved offFlags id :: es, left + 1, s, pi, hpi, hle, hc => by
      have hnext : m (s.p + 0) = firstExt es t.proto := hc.byte rfl
      have hoff : be16 m (s.p + 2) = offFlags := be16_covers hc rfl rfl
      have hid : be32 m (s.p + 4) = id := be32_covers hc rfl rfl rfl rfl
      rw [putChain, List.append_assoc] at hc
      have hlen : ((Ipv6Ext.fragment reserved offFlags id).bytes (firstExt es t.proto)).length =
          ipv6FragLen := rfl
      have hlater : (pi.setFragment offFlags id).frag = .later ↔ offFlags >>> 3 ≠ 0 := by
        unfold PacketInfo.setFragment
        dsimp only
        split_ifs with h₁ h₂
        · exact ⟨fun _ => h₁, fun _ => rfl⟩
        · exact ⟨fun h => absurd h (by decide), fun h => absurd h h₁⟩
        · exact ⟨fun h => absurd h hpi, fun h => absurd h h₁⟩
      show Ends m (decodeIpv6Chain (left + 1) ip6ExtFragment) _ s pi
      simp only [decodeIpv6Chain, show isIpv6Ext ip6ExtFragment = true from rfl, if_true, ends_bind, hc.wp_need,
        wp_be16At, wp_be32At, wp_modifyOut, wp_load8, wp_advance, wp_getOut, ends_ite, ends_modifyOut, hnext,
        hoff, hid, true_and]
      refine ⟨fun _ => ⟨fun hl => ?_, fun hl => ?_⟩, fun hlt => ?_⟩
      · rw [PacketInfo.walkExts_later (hlater.mp hl)]
        refine ⟨(if_pos hl).symm, fun hno => absurd hl hno⟩
      · have he : Ipv6Ext.isLater (.fragment reserved offFlags id) = false := by
          rw [Ipv6Ext.isLater, decide_eq_false_iff_not]
          exact fun h => hl (hlater.mpr h)
        rw [PacketInfo.walkExts_cons he]
        exact ends_decodeIpv6Chain hfits hl (Nat.le_of_succ_le_succ hle) (hc.advance hlen)
      · rw [List.length_append, hlen] at hlt
        omega

theorem PacketInfo.walkExts_setIpv6 (hpi : pi.NoNetwork) (h : Ipv6Header) {exts : List Ipv6Ext}
    (hle : exts.length ≤ ipv6MaxExtHeaders) (proto : UInt8) :
    (pi.setIpv6 h).walkExts exts proto = (Network.ipv6 h exts hle).info pi proto := by
  have hfrag : (pi.setIpv6 h).frag = .none := hpi.frag
  have hid : (pi.setIpv6 h).fragId = 0 := hpi.fragId
  unfold PacketInfo.walkExts
  rw [hfrag, hid]
  rfl

theorem ends_decodeIpv6 {h : Ipv6Header} {exts : List Ipv6Ext} {hle : exts.length ≤ ipv6MaxExtHeaders}
    {t : Transport} {payload trailer : List UInt8} (hpi : pi.NoNetwork)
    (hfits : (putChain exts t.proto ++ t.bytes payload).length < 2 ^ 16)
    (hc : Covers m s (h.bytes (firstExt exts t.proto) (putChain exts t.proto ++ t.bytes payload).length ++
      ((putChain exts t.proto ++ t.bytes payload) ++ trailer))) :
    Ends m decodeIpv6 (fun st s' pi' => st = .ok ∧ pi' = upperInfo (.ipv6 h exts hle) t pi ∧
      (pi'.frag ≠ .later → Covers m s' (t.bytes payload))) s pi := by
  have hupper : (t.bytes payload).length < 2 ^ 16 := by
    rw [List.length_append] at hfits
    omega
  have hnone : (pi.setIpv6 h).frag ≠ .later := by
    rw [show (pi.setIpv6 h).frag = .none from hpi.frag]
    decide
  simp only [decodeIpv6, ends_bind]
  apply wp_decodeIpv6Header hpi hfits hc
  intro s₁ h₁
  have hwalk := ends_decodeIpv6Chain hupper hnone hle h₁
  rw [PacketInfo.walkExts_setIpv6 hpi h hle] at hwalk
  exact hwalk

end steps

/-! ### Frames -/

namespace FrameLayout

variable {frame : Mem} {caplen wirelen : ℕ} (l : FrameLayout)

/-- What the link header says is what the decoder collects from it. -/
theorem linkInfo_eq : l.linkInfo =
    { l.tags.foldl PacketInfo.addTag {} with ethertype := l.network.ethertype, hasL2 := true } := by
  have htags := l.tags_le
  unfold linkInfo
  match l.tags, htags with
  | [], _ => rfl
  | [_], _ => rfl
  | [_, _], _ => rfl

/-- **The layers of the frame decode to their fields.** -/
theorem ends_decodeOuter {s : Span} (hc : Covers frame s l.bytes) :
    Ends frame decodeOuter (fun st s' pi' => st = .ok ∧ pi' = l.info ∧
      (pi'.frag ≠ .later → Covers frame s' l.upper)) s {} := by
  have hno : l.linkInfo.NoNetwork := ⟨rfl, rfl, rfl, rfl⟩
  have hfits := l.fits
  have hinfo : l.info = upperInfo l.network l.transport l.linkInfo := rfl
  have htype : isVlanType l.network.ethertype = false := by
    cases l.network <;> rfl
  simp only [decodeOuter, ends_bind]
  apply wp_decodeL2 htype l.tags_le hc
  intro s₁ h₁
  rw [← l.linkInfo_eq, hinfo]
  unfold upper at h₁ ⊢
  cases hn : l.network with
  | ipv4 h =>
      rw [hn] at h₁ hfits
      exact ends_decodeIpv4 hno hfits h₁
  | ipv6 h exts hle =>
      rw [hn, Network.bytes, List.append_assoc] at h₁
      rw [hn] at hfits
      exact ends_decodeIpv6 hno hfits h₁

theorem outerRun_layout :
    (outerRun (Mem.ofList l.bytes) l.bytes.length l.bytes.length).out = l.info ∧
      DecodeStatus.ofRes (outerRun (Mem.ofList l.bytes) l.bytes.length l.bytes.length).res = .ok ∧
      (l.info.frag ≠ .later →
        Covers (Mem.ofList l.bytes) (outerRun (Mem.ofList l.bytes) l.bytes.length l.bytes.length).s l.upper) := by
  have hspan : frameSpan l.bytes.length l.bytes.length = ⟨0, l.bytes.length, l.bytes.length⟩ := by
    rw [frameSpan, if_neg (Nat.lt_irrefl _)]
  have hc : Covers (Mem.ofList l.bytes) (frameSpan l.bytes.length l.bytes.length) l.bytes := by
    rw [hspan]
    exact covers_ofList l.bytes
  obtain ⟨hst, hout, hcover⟩ := (l.ends_decodeOuter hc).result
  rw [hout] at hcover
  exact ⟨hout, hst, hcover⟩

theorem info_clean : l.info.status = .ok ∧ l.info.outer = l.info := by
  unfold info networkInfo
  cases l.network <;> cases l.transport <;> split_ifs <;> exact ⟨rfl, rfl⟩

theorem outerResult_layout :
    outerResult (outerRun (Mem.ofList l.bytes) l.bytes.length l.bytes.length) = l.info := by
  obtain ⟨hout, hst, -⟩ := l.outerRun_layout
  unfold outerResult
  rw [hout, hst, ← l.info_clean.1]

end FrameLayout

/-- **Decoding undoes encoding**, for every supported header stack. -/
theorem decodeFrame_layout (l : FrameLayout) :
    (decodeFrame (Mem.ofList l.bytes) l.bytes.length l.bytes.length).status = .ok ∧
      (decodeFrame (Mem.ofList l.bytes) l.bytes.length l.bytes.length).outer = l.info := by
  have hresult := l.outerResult_layout
  constructor
  · rw [decodeFrame_field PacketInfo.status fun _ => rfl, hresult]
    exact l.info_clean.1
  · have houter := decodeFrame_outer (Mem.ofList l.bytes) l.bytes.length l.bytes.length
    rw [houter]
    exact (congrArg PacketInfo.outer hresult).trans l.info_clean.2

/-! ### Messages in frames -/

theorem chainProto_of_whole {exts : List Ipv6Ext} (h : exts.any Ipv6Ext.isLater = false) (proto : UInt8) :
    chainProto exts proto = proto := by
  induction exts with
  | nil => rfl
  | cons e es ih =>
      rw [List.any_cons, Bool.or_eq_false_iff] at h
      rw [chainProto, h.1, if_neg Bool.false_ne_true]
      exact ih h.2

theorem Network.le_lengthField (n : Network) (proto : UInt8) (upper : List UInt8) :
    upper.length ≤ n.lengthField proto upper := by
  cases n with
  | ipv4 header => exact Nat.le_add_left _ _
  | ipv6 header exts hle =>
      show upper.length ≤ (putChain exts proto ++ upper).length
      rw [List.length_append]
      exact Nat.le_add_left _ _

namespace FrameLayout

variable {l : FrameLayout}

theorem upper_lt (l : FrameLayout) : l.upper.length < 2 ^ 16 :=
  lt_of_le_of_lt (l.network.le_lengthField _ _) l.fits

theorem networkInfo_proto (h : l.networkInfo.frag = .none) : l.networkInfo.ipProto = l.transport.proto := by
  unfold networkInfo at h ⊢
  cases hn : l.network with
  | ipv4 header => rfl
  | ipv6 header exts hle =>
      rw [hn] at h
      have hchain : chainFrag exts = .none := h
      apply chainProto_of_whole
      unfold chainFrag at hchain
      by_contra hlater
      rw [Bool.not_eq_false] at hlater
      rw [if_pos hlater] at hchain
      exact absurd hchain (by decide)

/-- A UDP frame on the port of GTP-U is a datagram that the decoder looks into. -/
theorem gtpuDatagram {h : UdpHeader} (hudp : l.transport = .udp h)
    (hport : h.srcPort = gtpuPort ∨ h.dstPort = gtpuPort) (hfrag : l.networkInfo.frag = .none) :
    GtpuDatagram (Mem.ofList l.bytes) l.bytes.length l.bytes.length l.payload := by
  have hinfo : l.info = (Transport.udp h).info l.networkInfo := by
    unfold info
    rw [hfrag, if_neg (by decide), hudp]
  have hfield := @decodeFrame_field (Mem.ofList l.bytes) l.bytes.length l.bytes.length
  rw [l.outerResult_layout, hinfo] at hfield
  have hproto : l.networkInfo.ipProto = ipprotoUdp := by
    rw [networkInfo_proto hfrag, hudp]
    rfl
  have hst : (decodeFrame (Mem.ofList l.bytes) l.bytes.length l.bytes.length).status = .ok := by
    rw [hfield PacketInfo.status fun _ => rfl, ← hinfo]
    exact l.info_clean.1
  have hnone := (hfield PacketInfo.frag fun _ => rfl).trans hfrag
  have hl4 := hfield PacketInfo.hasL4 fun _ => rfl
  have hip := (hfield PacketInfo.ipProto fun _ => rfl).trans hproto
  refine ⟨Nat.le_refl _, hst, hnone, ?_, ?_⟩
  · have hports : (decide (h.srcPort = gtpuPort) || decide (h.dstPort = gtpuPort)) = true := by
      rw [Bool.or_eq_true, decide_eq_true_eq, decide_eq_true_eq]
      exact hport
    rw [decodeIsGtpuPort, hl4, hip, hfield PacketInfo.srcPort fun _ => rfl, hfield PacketInfo.dstPort fun _ => rfl]
    exact hports
  · obtain ⟨-, -, hcover⟩ := l.outerRun_layout
    have hnotLater : l.info.frag ≠ .later := by
      rw [hinfo, show ((Transport.udp h).info l.networkInfo).frag = .none from hfrag]
      decide
    have hc := hcover hnotLater
    unfold upper at hc
    rw [hudp] at hc
    have hfits : 8 + l.payload.length < 2 ^ 16 := by
      have hupper := l.upper_lt
      unfold upper at hupper
      rw [hudp, Transport.bytes, List.length_append] at hupper
      exact hupper
    refine ⟨_, (outerRun_onUdp hst hnone hl4 hip).1, ?_, ?_⟩
    · have hlen : be16 (Mem.ofList l.bytes)
          ((outerRun (Mem.ofList l.bytes) l.bytes.length l.bytes.length).s.p + 4) =
          UInt16.ofNat (8 + l.payload.length) := be16_covers hc rfl rfl
      rw [hlen]
      exact UInt16.toNat_ofNat_of_lt' hfits
    · exact (hc.advance (n := udpHdrLen) rfl).bytes

end FrameLayout

/-- **A GTP-U message that is written into a frame decodes to itself.** -/
theorem decodeFrame_message {l : FrameLayout} {h : UdpHeader} {msg : GtpuMessage} {tail : List UInt8}
    (hudp : l.transport = .udp h) (hport : h.srcPort = gtpuPort ∨ h.dstPort = gtpuPort)
    (hfrag : l.networkInfo.frag = .none) (hpayload : l.payload = msg.bytes ++ tail) :
    (decodeFrame (Mem.ofList l.bytes) l.bytes.length l.bytes.length).tunnel = msg.info := by
  have hdatagram := l.gtpuDatagram hudp hport hfrag
  rw [hpayload] at hdatagram
  exact hdatagram.message

end Pcapstat
