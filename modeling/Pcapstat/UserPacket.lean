import Pcapstat.GtpuGrammar

/-! # The user packet of a tunnel message

A G-PDU carries an IP packet without a link header.  `decode_gtpu_inner` decodes it as
`decode_frame` would if it were behind an Ethernet header of its own.  Where the packet stands in the
frame is given by the bytes of the headers alone (`UserAt`); what was captured of it follows
from the capture, because a span never ends before the capture or the declared end does (`Trimmed`). -/

namespace Pcapstat

open SpanWalk SpanWalk.Walk

/-! ### What is captured of a span -/

/-- Of the first `n` bytes, the span has those before its declared end. -/
def Trimmed (n : ℕ) (s : Span) : Prop := s.p + s.cap = min n (s.p + s.wire)

/-- A walk that ends normally ends on such a span. -/
def Trims {α : Type} (n : ℕ) (m : Mem) (x : Decoder α) (s : Span) (pi : PacketInfo) : Prop :=
  wp (fun _ => True) m x (fun _ s' _ => Trimmed n s') (fun _ _ _ => True) s pi

section trims

variable {n : ℕ} {m : Mem} {s : Span} {pi : PacketInfo}

theorem Trimmed.cap_le (h : Trimmed n s) : s.cap ≤ s.wire := by
  unfold Trimmed at h
  omega

theorem Trimmed.advance (h : Trimmed n s) {k : ℕ} (hk : k ≤ s.cap) :
    Trimmed n ⟨s.p + k, s.cap - k, s.wire - k⟩ := by
  unfold Trimmed at *
  dsimp only
  omega

theorem Trimmed.clip (h : Trimmed n s) {len : ℕ} (hlen : len ≤ s.wire) :
    Trimmed n ⟨s.p, min s.cap len, len⟩ := by
  unfold Trimmed at *
  dsimp only
  omega

theorem frameSpan_trimmed (caplen wirelen : ℕ) : Trimmed caplen (frameSpan caplen wirelen) := by
  unfold Trimmed frameSpan
  dsimp only
  split_ifs <;> omega

theorem trims_decodeL4 (hs : Trimmed n s) : Trims n m decodeL4 s pi := by
  simp only [Trims, decodeL4, wp_bind, wp_getOut, wp_ite, wp_pure]
  refine ⟨fun _ => ?_, fun _ => ⟨fun _ => ?_, fun _ => ⟨fun _ => ?_, fun _ => hs⟩⟩⟩
  · simp only [decodeTcp, wp_bind, wp_need, wp_be16At, wp_load8, wp_modifyOut, wp_wireLeft, wp_exitIf,
      wp_requireCap, implies_true, and_true, true_and]
    exact fun _ _ _ => hs
  · simp only [decodeUdp, wp_bind, wp_need, wp_be16At, wp_modifyOut, wp_wireLeft, wp_exitIf, wp_ite,
      wp_clip, implies_true, and_true, true_and]
    intro _ hlen
    rw [not_or] at hlen
    exact ⟨fun hf => hs.clip (not_lt.mp fun h => hlen.2 ⟨hf, h⟩), fun _ => hs⟩
  · simp only [decodeIcmp, wp_bind, wp_need, wp_load8, wp_modifyOut, implies_true, and_true, true_and]
    exact fun _ => hs

theorem trims_decodeIpv4 (hs : Trimmed n s) : Trims n m decodeIpv4 s pi := by
  simp only [Trims, decodeIpv4, decodeIpv4Header, wp_bind, wp_need, wp_load8, wp_exitIf, wp_be16At,
    wp_wireLeft, wp_requireCap, wp_loadBytes, wp_modifyOut, wp_clip, wp_advance, wp_getOut, wp_ite, wp_pure,
    implies_true, and_true, true_and]
  generalize (if (be16 m (s.p + 2)).toNat = 0 then s.wire else (be16 m (s.p + 2)).toNat) = total
  intro _ _ _ htotal hhlen
  rw [not_or, not_lt, not_lt] at htotal
  have hclip : Trimmed n ⟨s.p, min s.cap total, total⟩ := hs.clip htotal.2
  have hstep := hclip.advance (le_min hhlen htotal.1)
  exact ⟨fun _ => hstep, fun _ => trims_decodeL4 hstep⟩

theorem trims_decodeUpper (hs : Trimmed n s) (next : UInt8) : Trims n m (decodeUpper next) s pi := by
  simp only [Trims, decodeUpper, wp_bind, wp_modifyOut]
  exact trims_decodeL4 hs

theorem trims_decodeIpv6Chain : ∀ (left : ℕ) (next : UInt8) {s : Span} {pi : PacketInfo},
    Trimmed n s → Trims n m (decodeIpv6Chain left next) s pi
  | 0, next, s, pi, hs => by
      simp only [Trims, decodeIpv6Chain, wp_ite, wp_fail]
      exact ⟨fun _ => trivial, fun _ => trims_decodeUpper hs next⟩
  | left + 1, next, s, pi, hs => by
      simp only [Trims, decodeIpv6Chain, wp_ite, wp_bind, wp_need, wp_be16At, wp_be32At, wp_modifyOut,
        wp_load8, wp_advance, wp_getOut, implies_true, and_true, true_and]
      refine ⟨fun _ => ⟨fun _ hlen => ⟨fun _ => hs.advance hlen, fun _ => ?_⟩, fun _ _ hlen => ?_⟩,
        fun _ => ?_⟩
      · exact trims_decodeIpv6Chain left _ (hs.advance hlen)
      · exact trims_decodeIpv6Chain left _ (hs.advance hlen)
      · exact trims_decodeUpper hs next

theorem trims_decodeIpv6 (hs : Trimmed n s) : Trims n m decodeIpv6 s pi := by
  simp only [Trims, decodeIpv6, decodeIpv6Header, wp_bind, wp_need, wp_load8, wp_exitIf, wp_be16At,
    wp_wireMinus, wp_loadBytes, wp_modifyOut, wp_advance, wp_clip, wp_pure, implies_true, and_true, true_and]
  intro hlen _ hpayload
  exact trims_decodeIpv6Chain _ _ ((hs.advance hlen).clip (not_lt.mp hpayload))

theorem trims_decodeVlans : ∀ (left : ℕ) (type : UInt16) {s : Span} {pi : PacketInfo},
    Trimmed n s → Trims n m (decodeVlans left type) s pi
  | 0, type, s, pi, hs => by
      simp only [Trims, decodeVlans, wp_ite, wp_fail, wp_pure]
      exact ⟨fun _ => trivial, fun _ => hs⟩
  | left + 1, type, s, pi, hs => by
      simp only [Trims, decodeVlans, wp_ite, wp_bind, wp_need, wp_be16At, wp_modifyOut, wp_advance, wp_pure,
        implies_true, and_true, true_and]
      exact ⟨fun _ hlen => trims_decodeVlans left _ (hs.advance hlen), fun _ => hs⟩

theorem trims_decodeOuter (hs : Trimmed n s) : Trims n m decodeOuter s pi := by
  simp only [Trims, decodeOuter, decodeL2, wp_bind, wp_need, wp_be16At, wp_advance, wp_modifyOut, wp_pure,
    implies_true, and_true, true_and]
  intro hlen
  refine wp_mono (trims_decodeVlans _ _ (hs.advance hlen)) (fun type s' pi' h => ?_) fun _ _ _ _ => trivial
  simp only [wp_ite, wp_pure]
  exact ⟨fun _ => trims_decodeIpv4 h, fun _ => ⟨fun _ => trims_decodeIpv6 h, fun _ => h⟩⟩

end trims

/-! ### The IP decoders and the link header -/

/-- What the link header leaves in a `packet_info`. -/
def PacketInfo.onLink (type : UInt16) (pi : PacketInfo) : PacketInfo :=
  { pi with ethertype := type, hasL2 := true }

/-- `x` neither reads nor overwrites what is known of the link header. -/
abbrev LinkFree {α : Type} (type : UInt16) (x : Decoder α) : Prop := Commutes (PacketInfo.onLink type) x

section linkFree

variable {type : UInt16}

theorem linkFree_be16At (i : ℕ) : LinkFree type (be16At i) :=
  .bind (.load8 i) fun _ => .bind (.load8 (i + 1)) fun _ => .pure _

theorem linkFree_be32At (i : ℕ) : LinkFree type (be32At i) :=
  .bind (.load8 i) fun _ => .bind (.load8 (i + 1)) fun _ => .bind (.load8 (i + 2)) fun _ =>
    .bind (.load8 (i + 3)) fun _ => .pure _

theorem linkFree_decodeTcp : LinkFree type decodeTcp :=
  .bind (.need _ _ _) fun _ => .bind (linkFree_be16At 0) fun _ => .bind (linkFree_be16At 2) fun _ =>
    .bind (.load8 13) fun _ => .bind (.modifyOut fun _ => rfl) fun _ => .bind (.load8 12) fun _ =>
      .bind .wireLeft fun _ => .bind (.exitIf _ _) fun _ => .bind (.requireCap _ _) fun _ =>
        .modifyOut fun _ => rfl

theorem linkFree_decodeUdp (frag : FragKind) : LinkFree type (decodeUdp frag) :=
  .bind (.need _ _ _) fun _ => .bind (linkFree_be16At 0) fun _ => .bind (linkFree_be16At 2) fun _ =>
    .bind (.modifyOut fun _ => rfl) fun _ => .bind (linkFree_be16At 4) fun _ => .bind .wireLeft fun _ =>
      .bind (.exitIf _ _) fun _ => .ite (.bind (.clip _) fun _ => .modifyOut fun _ => rfl)
        (.modifyOut fun _ => rfl)

theorem linkFree_decodeIcmp : LinkFree type decodeIcmp :=
  .bind (.need _ _ _) fun _ => .bind (.load8 0) fun _ => .bind (.load8 1) fun _ => .modifyOut fun _ => rfl

theorem linkFree_decodeL4 : LinkFree type decodeL4 :=
  .getOut_bind (fun _ => rfl) fun _ => .ite linkFree_decodeTcp
    (.ite (linkFree_decodeUdp _) (.ite linkFree_decodeIcmp (.pure _)))

theorem linkFree_decodeIpv4Header : LinkFree type decodeIpv4Header :=
  .bind (.need _ _ _) fun _ => .bind (.load8 0) fun _ => .bind (.exitIf _ _) fun _ => .bind (.exitIf _ _) fun _ =>
    .bind (linkFree_be16At 2) fun _ => .bind .wireLeft fun _ => .bind (.exitIf _ _) fun _ =>
      .bind (.requireCap _ _) fun _ => .bind (.load8 9) fun _ => .bind (.loadBytes 12 4) fun _ =>
        .bind (.loadBytes 16 4) fun _ => .bind (linkFree_be16At 4) fun _ => .bind (linkFree_be16At 6) fun _ =>
          .bind (.modifyOut fun _ => rfl) fun _ => .bind (.clip _) fun _ => .advance _

theorem linkFree_decodeIpv4 : LinkFree type decodeIpv4 :=
  .bind linkFree_decodeIpv4Header fun _ => .getOut_bind (fun _ => rfl) fun _ => .ite (.pure _) linkFree_decodeL4

theorem linkFree_decodeUpper (next : UInt8) : LinkFree type (decodeUpper next) :=
  .bind (.modifyOut fun _ => rfl) fun _ => linkFree_decodeL4

theorem linkFree_decodeIpv6Chain : ∀ (left : ℕ) (next : UInt8), LinkFree type (decodeIpv6Chain left next)
  | 0, next => .ite (.fail _) (linkFree_decodeUpper next)
  | left + 1, next => .ite
      (.ite
        (.bind (.need _ _ _) fun _ => .bind (linkFree_be16At 2) fun _ => .bind (linkFree_be32At 4) fun _ =>
          .bind (.modifyOut fun _ => rfl) fun _ => .bind (.load8 0) fun _ => .bind (.advance _) fun _ =>
            .getOut_bind (fun _ => rfl) fun _ => .ite (.modifyOut fun _ => rfl) (linkFree_decodeIpv6Chain left _))
        (.bind (.need _ _ _) fun _ => .bind (.load8 1) fun _ => .bind (.need _ _ _) fun _ =>
          .bind (.load8 0) fun _ => .bind (.advance _) fun _ => linkFree_decodeIpv6Chain left _))
      (linkFree_decodeUpper next)

theorem linkFree_decodeIpv6Header : LinkFree type decodeIpv6Header :=
  .bind (.need _ _ _) fun _ => .bind (.load8 0) fun _ => .bind (.exitIf _ _) fun _ =>
    .bind (linkFree_be16At 4) fun _ => .bind (.wireMinus _) fun _ => .bind (.exitIf _ _) fun _ =>
      .bind (.load8 6) fun _ => .bind (.loadBytes 8 16) fun _ => .bind (.loadBytes 24 16) fun _ =>
        .bind (.modifyOut fun _ => rfl) fun _ => .bind (.advance _) fun _ => .bind (.clip _) fun _ => .pure _

theorem linkFree_decodeIpv6 : LinkFree type decodeIpv6 :=
  .bind linkFree_decodeIpv6Header fun next => linkFree_decodeIpv6Chain _ next

end linkFree

/-! ### A packet in a frame of its own -/

/-- The ethertype of an IP packet and its decoder. -/
inductive IpOf : UInt16 → Decoder Unit → Prop where
  | v4 : IpOf ethertypeIpv4 decodeIpv4
  | v6 : IpOf ethertypeIpv6 decodeIpv6

section alone

variable {type : UInt16} {ip : Decoder Unit} {frame : Mem} {p c w : ℕ} {dst src r : List UInt8}

theorem IpOf.linkFree (h : IpOf type ip) : LinkFree type ip := by
  cases h with
  | v4 => exact linkFree_decodeIpv4
  | v6 => exact linkFree_decodeIpv6

theorem IpOf.vlan (h : IpOf type ip) : isVlanType type = false := by
  cases h with
  | v4 => rfl
  | v6 => rfl

theorem IpOf.read (h : IpOf type ip) (hle : c ≤ w) {i : ℕ}
    (hi : Event.read i ∈ (ip.run frame ⟨p, c, w⟩ {}).log) : i < p + c := by
  have hin : InBounds (p + c) ⟨p, c, w⟩ := ⟨le_rfl, hle⟩
  cases h with
  | v4 => exact (safe_decodeIpv4 hin rfl).1 _ hi
  | v6 => exact (safe_decodeIpv6 hin rfl).1 _ hi

/-- A frame that holds `r` behind an Ethernet header. -/
def aloneFrame (dst src : List UInt8) (type : UInt16) (r : List UInt8) : Mem :=
  Mem.ofList (ethBytes dst src type ++ r)

theorem aloneFrame_type (hdst : dst.length = 6) (hsrc : src.length = 6) :
    be16 (aloneFrame dst src type r) 12 = type := by
  have hcover := covers_ofList (ethBytes dst src type ++ r)
  have hsplit : ethBytes dst src type ++ r = (dst ++ src) ++ (bbBe16 type ++ r) := by
    unfold ethBytes
    rw [List.append_assoc, List.append_assoc, List.append_assoc]
  have hlen : (dst ++ src).length = 12 := by rw [List.length_append, hdst, hsrc]
  rw [hsplit] at hcover
  have hpart := be16_part hcover hlen
  rw [Nat.zero_add, ← hsplit] at hpart
  exact hpart

theorem aloneFrame_user (hdst : dst.length = 6) (hsrc : src.length = 6) (k : ℕ) :
    aloneFrame dst src type r (14 + k) = r.getD k 0 := by
  have hlen : (ethBytes dst src type).length = 14 := by
    rw [ethBytes, List.length_append, List.length_append, hdst, hsrc, length_bbBe16]
  unfold aloneFrame Mem.ofList
  rw [← hlen, List.getD_append_right _ _ _ _ (Nat.le_add_right _ k), Nat.add_sub_cancel_left]

theorem decodeL2_plain {m : Mem} {s : Span} {pi : PacketInfo} (hcap : ethHdrLen ≤ s.cap)
    (hno : isVlanType (be16 m (s.p + 12)) = false) :
    wp (fun _ => True) m decodeL2 (fun t s' pi' => t = be16 m (s.p + 12) ∧
      s' = ⟨s.p + ethHdrLen, s.cap - ethHdrLen, s.wire - ethHdrLen⟩ ∧ pi' = pi.onLink t)
      (fun _ _ _ => False) s pi := by
  have hwalk : ∀ left (t : UInt16), isVlanType t = false → decodeVlans left t = pure t := by
    intro left t ht
    cases left <;> rw [decodeVlans, if_neg (Bool.eq_false_iff.mp ht)]
  simp only [decodeL2, wp_bind, wp_need, wp_be16At, wp_advance, hwalk _ _ hno, wp_modifyOut, wp_pure, true_and]
  exact ⟨fun _ => rfl, fun h => absurd hcap (Nat.not_le_of_lt h), fun h => absurd hcap (Nat.not_le_of_lt h)⟩

/-- Behind its own Ethernet header the packet is decoded as from the span. -/
theorem alone_outer (h : IpOf type ip) (hle : c ≤ w) (hdst : dst.length = 6) (hsrc : src.length = 6) :
    Ends (aloneFrame dst src type (frame.bytes p c)) decodeOuter
      (fun st _ pi' => st = .ofRes (ip.run frame ⟨p, c, w⟩ {}).res ∧
        pi' = (ip.run frame ⟨p, c, w⟩ {}).out.onLink type) (frameSpan (14 + c) (14 + w)) {} := by
  have htype := @aloneFrame_type type dst src (frame.bytes p c) hdst hsrc
  have hmoved := ip.reloc frame (aloneFrame dst src type (frame.bytes p c)) ⟨p, c, w⟩ ⟨14, c, w⟩ {} rfl rfl (by
    intro k hk
    have hk : k < c := by
      have hlt := h.read hle hk
      dsimp only at hlt
      omega
    rw [aloneFrame_user hdst hsrc, List.getD_eq_getElem?_getD, Mem.getElem?_bytes, if_pos hk]
    rfl)
  generalize aloneFrame dst src type (frame.bytes p c) = m at htype hmoved
  have hspan : frameSpan (14 + c) (14 + w) = ⟨0, 14 + c, 14 + w⟩ := by
    unfold frameSpan
    split_ifs
    · rfl
    · congr 1
      omega
  have hno : isVlanType (be16 m (0 + 12)) = false := by
    rw [Nat.zero_add, htype]
    exact h.vlan
  rw [hspan]
  simp only [decodeOuter, ends_bind]
  refine wp_mono (decodeL2_plain (Nat.le_add_right 14 c) hno) (fun t s' pi' hl2 => ?_) fun _ _ _ hf => hf.elim
  obtain ⟨ht, rfl, rfl⟩ := hl2
  have hcap : 14 + c - ethHdrLen = c := Nat.add_sub_cancel_left 14 c
  have hwire : 14 + w - ethHdrLen = w := Nat.add_sub_cancel_left 14 w
  rw [Nat.zero_add, htype] at ht
  rw [ht, hcap, hwire]
  have hip : Ends m ip (fun st _ pi' => st = .ofRes (ip.run frame ⟨p, c, w⟩ {}).res ∧
      pi' = (ip.run frame ⟨p, c, w⟩ {}).out.onLink type) ⟨14, c, w⟩ (PacketInfo.onLink type {}) := by
    unfold Ends
    rw [wp_top_iff, h.linkFree m ⟨14, c, w⟩ {}, hmoved.res, hmoved.out]
    refine ⟨fun a ha => ?_, fun e he => ?_⟩
    · rw [ha]
      exact ⟨rfl, rfl⟩
    · rw [he]
      exact ⟨rfl, rfl⟩
  cases h with
  | v4 =>
      rw [if_pos rfl]
      exact hip
  | v6 =>
      rw [if_neg (by decide), if_pos rfl]
      exact hip

end alone

/-- The inner fields of `pi` are those of the packet `alone`. -/
structure UserAlike (pi alone : PacketInfo) : Prop where
  status : pi.gtpStatus = userStatus alone.status
  hasInner : pi.hasInner = alone.hasL3
  version : pi.innerVersion = alone.ipVersion
  proto : pi.innerProto = alone.ipProto
  src : pi.innerSrc = alone.srcAddr
  dst : pi.innerDst = alone.dstAddr
  hasL4 : pi.innerHasL4 = alone.hasL4
  ports : alone.hasL4 = true → pi.innerSrcPort = alone.srcPort ∧ pi.innerDstPort = alone.dstPort
  nested : pi.gtpNested = decodeIsGtpuPort alone

/-- What `pi` says of the `c` captured and `w` declared bytes at `p`. -/
structure UserDecoded (frame : Mem) (p c w : ℕ) (pi : PacketInfo) : Prop where
  none : c = 0 → pi.gtpStatus = if w > 0 then .truncGtpuInner else .badGtpuInner
  other : 1 ≤ c → frame p >>> 4 ≠ 4 → frame p >>> 4 ≠ 6 → pi.gtpStatus = .badGtpuInner
  alike : 1 ≤ c → ∀ type, frame p >>> 4 = 4 ∧ type = ethertypeIpv4 ∨
    frame p >>> 4 = 6 ∧ type = ethertypeIpv6 → ∀ dst src : List UInt8, dst.length = 6 → src.length = 6 →
      UserAlike pi (decodeFrame (aloneFrame dst src type (frame.bytes p c)) (14 + c) (14 + w))

section user

variable {type : UInt16} {ip : Decoder Unit} {frame : Mem} {s : Span} {pi : PacketInfo}

/-- Without a valid IP header nothing of one is filled in. -/
theorem IpShape.blank {st : DecodeStatus} {inn : PacketInfo} (h : IpShape {} st inn) (hno : inn.hasL3 = false) :
    inn = {} := by
  cases h with
  | header _ => rfl
  | upper _ hl3 _ hup =>
      have hl3' := PacketInfo.eq_of_erase PacketInfo.noUpper PacketInfo.hasL3 (fun _ => rfl) hup.frame
      exact absurd (hno.symm.trans (hl3'.trans hl3)) Bool.false_ne_true

/-- What is copied out of the scratch `packet_info` is what the packet has in a frame of its own. -/
theorem UserAlike.of_inner {st : DecodeStatus} {inn alone : PacketInfo} (hshape : IpShape {} st inn)
    (hpi : pi.user = {}) (hst : alone.status = st)
    (hfield : ∀ {β : Type} (g : PacketInfo → β), (∀ q st, g { q.onLink type with status := st } = g q) →
      (∀ q, g q.outer = g q) → g alone = g inn) :
    UserAlike { pi.setInner inn with gtpStatus := userStatus st } alone := by
  have hblank : inn.hasL3 = false → inn = {} := hshape.blank
  have hinner : pi.hasInner = false := congrArg PacketInfo.hasInner hpi
  have hversion : pi.innerVersion = 0 := congrArg PacketInfo.innerVersion hpi
  have hproto : pi.innerProto = 0 := congrArg PacketInfo.innerProto hpi
  have hsrc : pi.innerSrc = .zero := congrArg PacketInfo.innerSrc hpi
  have hdst : pi.innerDst = .zero := congrArg PacketInfo.innerDst hpi
  have hl4 : pi.innerHasL4 = false := congrArg PacketInfo.innerHasL4 hpi
  have hnested : pi.gtpNested = false := congrArg PacketInfo.gtpNested hpi
  -- a field that is copied with the IP header
  have hcopied : ∀ {β : Type} (g : PacketInfo → β) (b : β), b = g {} →
      (if inn.hasL3 then g inn else b) = g inn := by
    intro β g b hb
    by_cases hl3 : inn.hasL3 = true
    · rw [if_pos hl3]
    · rw [if_neg hl3, hblank (Bool.eq_false_iff.mpr hl3), hb]
  constructor
  · rw [hst]
  · rw [hfield PacketInfo.hasL3 (fun _ _ => rfl) fun _ => rfl, PacketInfo.setInner, hinner, Bool.false_or]
  · rw [hfield PacketInfo.ipVersion (fun _ _ => rfl) fun _ => rfl]
    exact hcopied PacketInfo.ipVersion _ hversion
  · rw [hfield PacketInfo.ipProto (fun _ _ => rfl) fun _ => rfl]
    exact hcopied PacketInfo.ipProto _ hproto
  · rw [hfield PacketInfo.srcAddr (fun _ _ => rfl) fun _ => rfl]
    exact hcopied PacketInfo.srcAddr _ hsrc
  · rw [hfield PacketInfo.dstAddr (fun _ _ => rfl) fun _ => rfl]
    exact hcopied PacketInfo.dstAddr _ hdst
  · rw [hfield PacketInfo.hasL4 (fun _ _ => rfl) fun _ => rfl, PacketInfo.setInner, hl4, Bool.false_or]
  · rw [hfield PacketInfo.hasL4 (fun _ _ => rfl) fun _ => rfl,
      hfield PacketInfo.srcPort (fun _ _ => rfl) fun _ => rfl,
      hfield PacketInfo.dstPort (fun _ _ => rfl) fun _ => rfl]
    intro h4
    exact ⟨if_pos h4, if_pos h4⟩
  · rw [hfield decodeIsGtpuPort (fun _ _ => rfl) fun _ => rfl]
    show (if inn.hasL4 then decodeIsGtpuPort inn else pi.gtpNested) = _
    by_cases h4 : inn.hasL4 = true
    · rw [if_pos h4]
    · rw [if_neg h4, hnested, decodeIsGtpuPort, Bool.eq_false_iff.mpr h4, Bool.false_and, Bool.false_and]

/-- The run of an IP decoder on the user packet and the frame that holds the packet alone. -/
theorem alike_of_run (h : IpOf type ip) (hle : s.cap ≤ s.wire) (hpi : pi.user = {}) {dst src : List UInt8}
    (hdst : dst.length = 6) (hsrc : src.length = 6) :
    UserAlike { pi.setInner (ip.run frame s {}).out with
        gtpStatus := userStatus (.ofRes (ip.run frame s {}).res) }
      (decodeFrame (aloneFrame dst src type (frame.bytes s.p s.cap)) (14 + s.cap) (14 + s.wire)) := by
  have hshape : IpShape {} (.ofRes (ip.run frame s {}).res) (ip.run frame s {}).out := by
    cases h with
    | v4 => exact (decodeIpv4_shape PacketInfo.fresh_default).result
    | v6 => exact (decodeIpv6_shape PacketInfo.fresh_default).result
  obtain ⟨hst, hout⟩ := (alone_outer h hle hdst hsrc).result
  apply @UserAlike.of_inner type pi _ _ _ hshape hpi
  · rw [decodeFrame_field PacketInfo.status fun _ => rfl]
    exact hst
  · intro β g hlink houter
    rw [decodeFrame_field g houter]
    unfold outerResult outerRun
    rw [hout]
    exact hlink _ _

/-- **The user packet is decoded as by itself.** -/
theorem decodeGtpuInner_decoded (hle : s.cap ≤ s.wire) (hpi : pi.user = {}) :
    Ends frame decodeGtpuInner
      (fun st _ pi' => UserDecoded frame s.p s.cap s.wire { pi' with gtpStatus := st }) s pi := by
  simp only [decodeGtpuInner, exitWith, ends_bind, ends_exitIf, wp_need, wp_load8, wp_exitIf, wp_scratch,
    wp_modifyOut, true_and, Nat.add_zero]
  refine ⟨fun hcap => ⟨fun hver => ?_, fun hver => ?_⟩, fun hcap hwire => ?_, fun hcap hwire => ?_⟩
  · have hdecoded : UserDecoded frame s.p s.cap s.wire
        { pi.setInner ((if frame s.p >>> 4 = 4 then decodeIpv4 else decodeIpv6).run frame s {}).out with
          gtpStatus := userStatus (.ofRes
            ((if frame s.p >>> 4 = 4 then decodeIpv4 else decodeIpv6).run frame s {}).res) } := by
      refine ⟨fun h0 => absurd hcap (by omega), fun _ h4 h6 => absurd ⟨h4, h6⟩ hver, ?_⟩
      rintro _ type htype dst src hdst hsrc
      have hip : IpOf type (if frame s.p >>> 4 = 4 then decodeIpv4 else decodeIpv6) := by
        obtain ⟨h4, rfl⟩ | ⟨h6, rfl⟩ := htype
        · rw [if_pos h4]
          exact .v4
        · rw [if_neg (by rw [h6]; decide)]
          exact .v6
      exact alike_of_run hip hle hpi hdst hsrc
    generalize (if frame s.p >>> 4 = 4 then decodeIpv4 else decodeIpv6) = ip at hdecoded
    refine wp_top_iff.mpr ⟨fun a ha => ?_, fun e he => ?_⟩
    · rw [ha] at hdecoded
      exact ⟨fun _ => hdecoded, fun h => absurd rfl h⟩
    · rw [he] at hdecoded
      refine ⟨fun hst => ?_, fun _ => hdecoded⟩
      have hst' : userStatus e = .ok := Decidable.not_not.mp hst
      rw [show DecodeStatus.ofRes (.error e) = e from rfl, hst'] at hdecoded
      exact hdecoded
  · refine ⟨fun h0 => absurd hcap (by omega), fun _ _ _ => rfl, ?_⟩
    rintro _ type (⟨h4, -⟩ | ⟨h6, -⟩)
    · exact absurd h4 hver.1
    · exact absurd h6 hver.2
  · refine ⟨fun _ => (if_pos hwire).symm, fun h => absurd hcap (by omega), fun h => absurd hcap (by omega)⟩
  · refine ⟨fun _ => (if_neg (by omega)).symm, fun h => absurd hcap (by omega), fun h => absurd hcap (by omega)⟩

end user

/-! ### Where the user packet stands -/

/-- From an extension header of type `next` at `p` the chain leads to `q`. -/
inductive ExtsTo (m : Mem) : UInt8 → ℕ → ℕ → Prop where
  | done {p : ℕ} : ExtsTo m 0 p p
  | ext {next : UInt8} {p q : ℕ} : next ≠ 0 → (m p).toNat * 4 ≠ 0 →
      ExtsTo m (m (p + ((m p).toNat * 4 - 1))) (p + (m p).toNat * 4) q → ExtsTo m next p q

/-- The optional fields that the flags announce. -/
def optLen (flags : UInt8) : ℕ := if HasOpt flags then gtpuOptLen else 0

/-- The type of the first extension header of the message at `u`. -/
def firstGtpuExt (m : Mem) (u : ℕ) : UInt8 := if m u &&& gtpuFlagE ≠ 0 then m (u + gtpuHdrLen + 3) else 0

/-- Behind all headers of the message at `u` come `w` declared bytes, from `p` on. -/
structure BodyAt (m : Mem) (u p w : ℕ) : Prop where
  exts : ExtsTo m (firstGtpuExt m u) (u + gtpuHdrLen + optLen (m u)) p
  declared : p + w = u + gtpuHdrLen + (be16 m (u + 2)).toNat

/-- The UDP datagram of the frame carries a message with a user packet of `w` declared bytes at `p`. -/
def UserAt (m : Mem) (p w : ℕ) : Prop := ∃ h, TransportAt m ipprotoUdp h ∧ BodyAt m (h + udpHdrLen) p w

section body

variable {n : ℕ} {m : Mem} {s : Span} {pi : PacketInfo} {u p p' w w' : ℕ} {next : UInt8}

theorem ExtsTo.unique (h : ExtsTo m next u p) (h' : ExtsTo m next u p') : p = p' := by
  induction h with
  | done =>
      cases h' with
      | done => rfl
      | ext hne _ _ => exact absurd rfl hne
  | ext hne _ _ ih =>
      cases h' with
      | done => exact absurd rfl hne
      | ext _ _ hrest => exact ih hrest

/-- The bytes of a frame say where its user packet is. -/
theorem UserAt.unique (h : UserAt m p w) (h' : UserAt m p' w') : p = p' ∧ w = w' := by
  obtain ⟨q, hat, hbody⟩ := h
  obtain ⟨q', hat', hbody'⟩ := h'
  obtain ⟨-, rfl⟩ := hat.unique hat'
  obtain rfl := hbody.exts.unique hbody'.exts
  exact ⟨rfl, Nat.add_left_cancel (hbody.declared.trans hbody'.declared.symm)⟩

/-- The span still ends at the declared end `e`. -/
structure EndsAt (n e : ℕ) (s : Span) : Prop where
  trimmed : Trimmed n s
  declared : s.p + s.wire = e

theorem EndsAt.advance {e k : ℕ} (h : EndsAt n e s) (hk : k ≤ s.cap) :
    EndsAt n e ⟨s.p + k, s.cap - k, s.wire - k⟩ := by
  have hle := h.trimmed.cap_le
  have hend := h.declared
  refine ⟨h.trimmed.advance hk, ?_⟩
  dsimp only
  omega

theorem decodeGtpuExts_place {e : ℕ} : ∀ (left hops : ℕ) (next : UInt8) {s : Span} {pi : PacketInfo},
    EndsAt n e s → wp (fun _ => True) m (decodeGtpuExts left hops next)
      (fun _ s' _ => ExtsTo m next s.p s'.p ∧ EndsAt n e s') (fun _ _ _ => True) s pi
  | 0, hops, next, s, pi, hs => by
      simp only [decodeGtpuExts, wp_exitIf, implies_true, and_true]
      intro h0
      rw [Decidable.not_not.mp h0]
      exact ⟨.done, hs⟩
  | left + 1, hops, next, s, pi, hs => by
      simp only [decodeGtpuExts, wp_ite, wp_bind, wp_need, wp_load8, wp_exitIf, wp_advance, wp_modifyOut,
        wp_pure, implies_true, and_true, true_and, Nat.add_zero]
      refine ⟨fun h0 => ?_, fun hne _ hlen hroom => ?_⟩
      · rw [h0]
        exact ⟨.done, hs⟩
      · refine wp_mono (decodeGtpuExts_place left (hops + 1) _ (hs.advance hroom)) (fun _ s' _ h => ?_)
          fun _ _ _ _ => trivial
        exact ⟨.ext hne hlen h.1, h.2⟩

theorem decodeGtpuOpt_place {e : ℕ} (hs : EndsAt n e s) (flags : UInt8) :
    wp (fun _ => True) m (decodeGtpuOpt flags)
      (fun next s' _ => next = (if flags &&& gtpuFlagE ≠ 0 then m (s.p + 3) else 0) ∧
        s'.p = s.p + optLen flags ∧ EndsAt n e s') (fun _ _ _ => True) s pi := by
  unfold optLen decodeGtpuOpt
  by_cases hopt : HasOpt flags
  · rw [if_pos hopt, if_pos (by exact hopt)]
    simp only [wp_bind, wp_need, wp_ite, wp_be16At, wp_modifyOut, wp_load8, wp_pure, wp_advance, implies_true,
      and_true, true_and]
    intro hroom
    have hstep := hs.advance hroom
    exact ⟨fun _ => ⟨fun he => ⟨(if_pos he).symm, hstep⟩, fun he => ⟨(if_neg he).symm, hstep⟩⟩,
      fun _ => ⟨fun he => ⟨(if_pos he).symm, hstep⟩, fun he => ⟨(if_neg he).symm, hstep⟩⟩⟩
  · have he : ¬ flags &&& gtpuFlagE ≠ 0 := fun he => hopt (hasOpt_of_e he)
    rw [if_neg hopt, if_neg (by exact hopt), if_neg he]
    exact (wp_pure 0).mpr ⟨rfl, rfl, hs⟩

/-- The headers of a message with a user packet end at the packet. -/
theorem decodeGtpuHeaders_place (hs : Trimmed n s) :
    wp (fun _ => True) m decodeGtpuHeaders
      (fun b s' _ => b = true → BodyAt m s.p s'.p s'.wire ∧ Trimmed n s') (fun _ _ _ => True) s pi := by
  simp only [decodeGtpuHeaders, wp_bind, wp_need, wp_load8, wp_ite, wp_pure, wp_be16At, wp_be32At,
    wp_modifyOut, wp_wireMinus, wp_exitIf, wp_advance, wp_clip, implies_true, and_true, true_and, Nat.add_zero,
    Bool.false_eq_true, false_imp_iff]
  intro hcap _ hlen
  have hclip : EndsAt n (s.p + gtpuHdrLen + (be16 m (s.p + 2)).toNat)
      ⟨s.p + gtpuHdrLen, min (s.cap - gtpuHdrLen) (be16 m (s.p + 2)).toNat, (be16 m (s.p + 2)).toNat⟩ :=
    ⟨(hs.advance hcap).clip (not_lt.mp hlen), rfl⟩
  refine wp_mono (decodeGtpuOpt_place hclip (m s.p)) (fun next s₁ pi₁ h₁ => ?_) fun _ _ _ _ => trivial
  obtain ⟨rfl, hp, hend⟩ := h₁
  refine wp_mono (decodeGtpuExts_place gtpuMaxExtHeaders 0 _ hend) (fun _ s₂ _ h₂ _ => ?_) fun _ _ _ _ => trivial
  rw [hp] at h₂
  exact ⟨⟨h₂.1, h₂.2.declared⟩, h₂.2.trimmed⟩

/-- **The user packet of a message is decoded as by itself.** -/
theorem decodeGtpu_user (hs : Trimmed n s) (hwire : gtpuHdrLen ≤ s.wire) (hpi : pi.tunnel = { isGtpu := true }) :
    Ends m decodeGtpu (fun st _ pi' => pi'.gtpMsgOk = true → pi'.gtpMsgType = gtpuMsgGpdu →
      ∃ p w, BodyAt m s.p p w ∧ UserDecoded m p (min (n - p) w) w { pi' with gtpStatus := st }) s pi := by
  have hv : pi.gtpV1u = false := congrArg PacketInfo.gtpV1u hpi
  have hmsg : pi.gtpMsgOk = false := congrArg PacketInfo.gtpMsgOk hpi
  have huser : pi.user = {} := congrArg PacketInfo.user hpi
  simp only [decodeGtpu, ends_bind]
  refine wp_mono (wp_and (decodeGtpuHeaders_shape hwire hv hmsg) (decodeGtpuHeaders_place hs))
    (fun b s₁ pi₁ h => ?_) fun e _ _ h hok => absurd (h.1.msgOk.symm.trans hok) Bool.false_ne_true
  obtain ⟨hdone, hplace⟩ := h
  simp only [ends_ite, ends_pure]
  refine ⟨fun hb => ?_, fun hb hok htype => ?_⟩
  · obtain ⟨hbody, htrim⟩ := hplace hb
    have huser₁ : pi₁.user = {} :=
      (PacketInfo.eq_of_erase PacketInfo.noGtpu PacketInfo.user (fun _ => rfl) hdone.frame).trans huser
    have hcap : s₁.cap = min (n - s₁.p) s₁.wire := by
      unfold Trimmed at htrim
      omega
    apply Ends.mono (decodeGtpuInner_decoded htrim.cap_le huser₁)
    intro st _ pi' h' _ _
    rw [hcap] at h'
    exact ⟨_, _, hbody, h'⟩
  · exact absurd (hdone.user.mpr ⟨hdone.msgOk ▸ hok, htype⟩) hb

end body

section frame

variable {frame : Mem} {caplen wirelen : ℕ}

/-- Where the decoder stands when it comes to the message. -/
theorem outerRun_message (h : TunnelCond (outerRun frame caplen wirelen).s
    (outerResult (outerRun frame caplen wirelen))) :
    TransportAt frame ipprotoUdp (outerRun frame caplen wirelen).s.p ∧
      Trimmed caplen ⟨(outerRun frame caplen wirelen).s.p + udpHdrLen,
        (outerRun frame caplen wirelen).s.cap - udpHdrLen, (outerRun frame caplen wirelen).s.wire - udpHdrLen⟩ := by
  have hends : Ends frame decodeOuter (fun st s' _ => st = .ok → Trimmed caplen s')
      (frameSpan caplen wirelen) {} := by
    refine wp_mono (wp_and (trims_decodeOuter (frameSpan_trimmed caplen wirelen)) decodeOuter_exits)
      (fun _ _ _ h _ => h.1) fun e _ _ h hst => absurd hst h.2
  have htrim : Trimmed caplen (outerRun frame caplen wirelen).s := hends.result h.1
  have hport : decodeIsGtpuPort (outerResult (outerRun frame caplen wirelen)) = true := h.2.2.1
  rw [decodeIsGtpuPort, Bool.and_eq_true, Bool.and_eq_true, decide_eq_true_eq] at hport
  obtain ⟨hat, hudp⟩ := @outerRun_onUdp frame caplen wirelen
    ((decodeFrame_field PacketInfo.status fun _ => rfl).trans h.1)
    ((decodeFrame_field PacketInfo.frag fun _ => rfl).trans h.2.1)
    ((decodeFrame_field PacketInfo.hasL4 fun _ => rfl).trans hport.1.1)
    ((decodeFrame_field PacketInfo.ipProto fun _ => rfl).trans hport.1.2)
  exact ⟨hat, htrim.advance hudp.header⟩

/-- **A user packet is decoded exactly as it would be on the wire by itself.** -/
theorem decodeFrame_user (hok : (decodeFrame frame caplen wirelen).gtpMsgOk = true)
    (htype : (decodeFrame frame caplen wirelen).gtpMsgType = gtpuMsgGpdu) :
    ∃ p w, (∀ p' w', UserAt frame p' w' ↔ p' = p ∧ w' = w) ∧
      UserDecoded frame p (min (caplen - p) w) w (decodeFrame frame caplen wirelen) := by
  have htun := (outerRun_shape frame caplen wirelen).tunnel
  rw [decodeFrame_tunnel] at hok htype ⊢
  by_cases hc : TunnelCond (outerRun frame caplen wirelen).s (outerResult (outerRun frame caplen wirelen))
  · rw [if_pos hc] at hok htype ⊢
    obtain ⟨hat, htrim⟩ := outerRun_message hc
    have hpi : ({ outerResult (outerRun frame caplen wirelen) with isGtpu := true } : PacketInfo).tunnel =
        { isGtpu := true } := congrArg (fun q : PacketInfo => { q with isGtpu := true }) htun
    obtain ⟨p, w, hbody, hdecoded⟩ :=
      (decodeGtpu_user (m := frame) htrim (Nat.le_sub_of_add_le' hc.2.2.2) hpi).result hok htype
    refine ⟨p, w, fun p' w' => ⟨fun h => ?_, ?_⟩, hdecoded⟩
    · exact h.unique ⟨_, hat, hbody⟩
    · rintro ⟨rfl, rfl⟩
      exact ⟨_, hat, hbody⟩
  · rw [if_neg hc] at hok
    have hno : (outerResult (outerRun frame caplen wirelen)).gtpMsgOk = false := congrArg PacketInfo.gtpMsgOk htun
    exact absurd (hno.symm.trans hok) Bool.false_ne_true

end frame

/-- A G-PDU with a UDP datagram in it. -/
def userFrame : List UInt8 :=
  putEth ethertypeIpv4 ++ (putIpv4 ipprotoUdp [10, 0, 0, 1] [10, 0, 0, 2] 48 0 0 ++
    (putUdp gtpuPort gtpuPort 40 ++ ([0x30, 0xFF, 0, 32, 0, 0, 0, 9] ++
      (putIpv4 ipprotoUdp [10, 9, 0, 1] [10, 9, 0, 2] 12 0 0 ++ (putUdp 1000 2000 4 ++ [1, 2, 3, 4])))))

/-- The payload of the user packet is cut by the capture. -/
theorem decodeFrame_user_datagram : UserAt (Mem.ofList userFrame) 50 32 ∧
    (∀ dst src : List UInt8, dst.length = 6 → src.length = 6 →
    UserAlike (decodeFrame (Mem.ofList userFrame) 80 82)
      (decodeFrame (aloneFrame dst src ethertypeIpv4 ((Mem.ofList userFrame).bytes 50 30)) 44 46)) ∧
    (decodeFrame (Mem.ofList userFrame) 80 82).gtpStatus = .ok ∧
    (decodeFrame (Mem.ofList userFrame) 80 82).innerSrcPort = 1000 ∧
    (decodeFrame (Mem.ofList userFrame) 80 82).innerDstPort = 2000 := by
  obtain ⟨p, w, hat, hdecoded⟩ := @decodeFrame_user (Mem.ofList userFrame) 80 82 (by decide +kernel)
    (by decide +kernel)
  have hip : TransportAt (Mem.ofList userFrame) ipprotoUdp 34 := .ipv4 (.type (by decide +kernel)) (by decide +kernel)
  have hbody : UserAt (Mem.ofList userFrame) 50 32 :=
    ⟨34, hip, .done, by decide +kernel⟩
  obtain ⟨rfl, rfl⟩ := (hat 50 32).mp hbody
  exact ⟨hbody, hdecoded.alike (by decide) ethertypeIpv4 (.inl ⟨by decide +kernel, rfl⟩), by decide +kernel,
    by decide +kernel, by decide +kernel⟩

end Pcapstat
