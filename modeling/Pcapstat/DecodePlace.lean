import Pcapstat.DecodeCut

/-! # Where the decoder stands

The places of the headers of a frame, as its bytes give them, without the decoder: the VLAN tags
lead to the network header (`NetworkAt`), and this one, with the IPv6 extension headers behind it, to
the transport header (`TransportAt`).  The decoder stands at these places when it reads the
headers, and reads nothing behind the transport header. -/

namespace Pcapstat

open SpanWalk SpanWalk.Walk

/-- The ethertype at `p` and the VLAN tags behind it lead to the network header at `q`. -/
inductive NetworkAt (m : Mem) : ℕ → ℕ → Prop where
  | type {p : ℕ} : isVlanType (be16 m p) = false → NetworkAt m p (p + 2)
  | tag {p q : ℕ} : isVlanType (be16 m p) = true → NetworkAt m (p + vlanTagLen) q → NetworkAt m p q

/-- From a header of type `next` at `p`, the header behind the extension chain is of type `proto` and
at `h`. -/
inductive ChainTo (m : Mem) (proto : UInt8) (h : ℕ) : UInt8 → ℕ → Prop where
  | done : isIpv6Ext proto = false → ChainTo m proto h proto h
  | fragment {p : ℕ} : ChainTo m proto h (m p) (p + ipv6FragLen) → ChainTo m proto h ip6ExtFragment p
  | skip {next : UInt8} {p : ℕ} : isIpv6Ext next = true → next ≠ ip6ExtFragment →
      ChainTo m proto h (m p) (p + ((m (p + 1)).toNat + 1) * 8) → ChainTo m proto h next p

/-- The header behind the network layer is of type `proto` and at `h`. -/
inductive TransportAt (m : Mem) : UInt8 → ℕ → Prop where
  | ipv4 {q : ℕ} : NetworkAt m 12 q → be16 m (q - 2) = ethertypeIpv4 →
      TransportAt m (m (q + 9)) (q + (m q &&& 0x0F).toNat * 4)
  | ipv6 {q h : ℕ} {proto : UInt8} : NetworkAt m 12 q → be16 m (q - 2) = ethertypeIpv6 →
      ChainTo m proto h (m (q + 6)) (q + ipv6HdrLen) → TransportAt m proto h

section places

variable {m : Mem} {p q q' h h' : ℕ} {proto proto' next : UInt8}

theorem NetworkAt.unique (hq : NetworkAt m p q) (hq' : NetworkAt m p q') : q = q' := by
  induction hq with
  | type hno =>
      cases hq' with
      | type _ => rfl
      | tag hvlan _ => exact absurd (hno.symm.trans hvlan) Bool.false_ne_true
  | tag hvlan _ ih =>
      cases hq' with
      | type hno => exact absurd (hno.symm.trans hvlan) Bool.false_ne_true
      | tag _ hrest => exact ih hrest

theorem NetworkAt.le (hq : NetworkAt m p q) : p + 2 ≤ q := by
  induction hq with
  | type _ => exact Nat.le_refl _
  | tag _ _ ih => exact (Nat.add_le_add_right (Nat.le_add_right _ _) 2).trans ih

theorem ChainTo.unique (hc : ChainTo m proto h next p) (hc' : ChainTo m proto' h' next p) :
    proto = proto' ∧ h = h' := by
  induction hc with
  | done hno =>
      cases hc' with
      | done _ => exact ⟨rfl, rfl⟩
      | fragment _ => exact absurd hno (by decide)
      | skip hext _ _ => exact absurd (hno.symm.trans hext) Bool.false_ne_true
  | fragment _ ih =>
      cases hc' with
      | done hno => exact absurd hno (by decide)
      | fragment hrest => exact ih hrest
      | skip _ hno _ => exact absurd rfl hno
  | skip hext hno _ ih =>
      cases hc' with
      | done hno' => exact absurd (hno'.symm.trans hext) Bool.false_ne_true
      | fragment _ => exact absurd rfl hno
      | skip _ _ hrest => exact ih hrest

theorem ChainTo.le (hc : ChainTo m proto h next p) : p ≤ h := by
  induction hc with
  | done _ => exact Nat.le_refl _
  | fragment _ ih => exact (Nat.le_add_right _ _).trans ih
  | skip _ _ _ ih => exact (Nat.le_add_right _ _).trans ih

theorem TransportAt.unique (ht : TransportAt m proto h) (ht' : TransportAt m proto' h') :
    proto = proto' ∧ h = h' := by
  cases ht with
  | ipv4 hq htype =>
      cases ht' with
      | ipv4 hq' _ =>
          obtain rfl := hq.unique hq'
          exact ⟨rfl, rfl⟩
      | ipv6 hq' htype' _ =>
          obtain rfl := hq.unique hq'
          exact absurd (htype.symm.trans htype') (by decide)
  | ipv6 hq htype hc =>
      cases ht' with
      | ipv4 hq' htype' =>
          obtain rfl := hq.unique hq'
          exact absurd (htype.symm.trans htype') (by decide)
      | ipv6 hq' _ hc' =>
          obtain rfl := hq.unique hq'
          exact hc.unique hc'

end places

/-! ### The link header -/

/-- Nothing at `b` or behind it is read. -/
def Below (b : ℕ) : Event → Prop
  | .read i => i < b
  | _ => True

@[simp] theorem below_read (b i : ℕ) : Below b (.read i) ↔ i < b := Iff.rfl
@[simp] theorem below_sub (b x y : ℕ) : Below b (.sub x y) ↔ True := Iff.rfl
@[simp] theorem below_at (b : ℕ) (s : Span) : Below b (.at s) ↔ True := Iff.rfl

theorem Below.mono {b b' : ℕ} (h : b ≤ b') : ∀ e, Below b e → Below b' e
  | .read _, he => lt_of_lt_of_le he h
  | .sub _ _, _ => trivial
  | .at _, _ => trivial

section link

variable {m : Mem}

theorem decodeVlans_network : ∀ (left : ℕ) {p q : ℕ} {s : Span} {pi : PacketInfo}, NetworkAt m p q →
    s.p = p + 2 → wp (Below q) m (decodeVlans left (be16 m p))
      (fun type s' pi' => s'.p = q ∧ type = be16 m (q - 2) ∧ pi'.noVlan = pi.noVlan)
      (fun _ _ _ => True) s pi
  | 0, p, q, s, pi, h, hs => by
      simp only [decodeVlans, wp_ite, wp_fail, wp_pure]
      refine ⟨fun _ => trivial, fun hno => ?_⟩
      cases h with
      | type _ => exact ⟨hs, rfl, trivial⟩
      | tag hvlan _ => exact absurd hvlan hno
  | left + 1, p, q, s, pi, h, hs => by
      simp only [decodeVlans, wp_ite, wp_bind, wp_need, wp_be16At, wp_modifyOut, wp_advance, wp_pure,
        below_read, below_sub, below_at, true_and, implies_true, and_true]
      cases h with
      | type hno =>
          exact ⟨fun hvlan => absurd (hno.symm.trans hvlan) Bool.false_ne_true, fun _ => ⟨hs, rfl⟩⟩
      | tag hvlan hrest =>
          have hpos : s.p + 2 = p + vlanTagLen := by
            rw [hs]
            rfl
          have hle := hrest.le
          rw [← hpos] at hle
          refine ⟨fun _ _ => ⟨by omega, by omega, by omega, by omega, ?_⟩, fun hno => absurd hvlan hno⟩
          rw [hpos]
          refine wp_mono (decodeVlans_network left hrest ?_) (fun type s' pi' h => ?_) fun _ _ _ h => h
          · exact (congrArg (· + vlanTagLen) hs).trans (Nat.add_right_comm _ _ _)
          · exact h

theorem decodeL2_network {q : ℕ} {s : Span} {pi : PacketInfo} (h : NetworkAt m (s.p + 12) q) :
    wp (Below q) m decodeL2 (fun type s' pi' => s'.p = q ∧ type = be16 m (q - 2) ∧
      pi'.noVlan = { pi with ethertype := type, hasL2 := true }.noVlan) (fun _ _ _ => True) s pi := by
  have hle := h.le
  simp only [decodeL2, wp_bind, wp_need, wp_be16At, wp_advance, wp_modifyOut, wp_pure, below_read, below_sub,
    below_at, true_and, implies_true, and_true]
  intro _
  refine ⟨by omega, by omega, ?_⟩
  refine wp_mono (decodeVlans_network decodeMaxVlans h rfl) (fun type s' pi' h => ?_) fun _ _ _ h => h
  obtain ⟨hp, htype, hpi⟩ := h
  exact ⟨hp, htype, congrArg (fun r : PacketInfo => { r with ethertype := type, hasL2 := true }) hpi⟩

end link

/-! ### Rules -/

section rules

variable {m : Mem} {s : Span} {pi : PacketInfo}

theorem Ends.and {x : Decoder Unit} {S S' : DecodeStatus → Span → PacketInfo → Prop} (h : Ends m x S s pi)
    (h' : Ends m x S' s pi) : Ends m x (fun st s pi => S st s pi ∧ S' st s pi) s pi := wp_and h h'

theorem PacketInfo.noUpper_of_noL4 {a b : PacketInfo} (h : a.noL4 = b.noL4) : a.noUpper = b.noUpper :=
  PacketInfo.eq_of_erase PacketInfo.noL4 PacketInfo.noUpper (fun _ => rfl) h

theorem decodeL4_noL4 : Ends m decodeL4 (fun _ _ pi' => pi'.noL4 = pi.noL4) s pi := by
  simp only [decodeL4, decodeTcp, decodeUdp, decodeIcmp, ends_bind, ends_ite, ends_pure, ends_modifyOut,
    wp_getOut, wp_need, wp_be16At, wp_load8, wp_modifyOut, wp_wireLeft, wp_exitIf, wp_requireCap, wp_clip,
    true_and, and_true, implies_true, PacketInfo.noL4]

theorem decodeUpper_read (next : UInt8) :
    Ends m (decodeUpper next) (fun _ _ pi' => pi'.noL4 = { pi with ipProto := next }.noL4) s pi := by
  simp only [decodeUpper, ends_bind, wp_modifyOut]
  exact decodeL4_noL4

/-! ### The transport header -/

/-- The walk stands on an unfragmented UDP datagram. -/
structure OnUdp (m : Mem) (s : Span) (pi : PacketInfo) : Prop where
  wire : s.wire = (be16 m (s.p + 4)).toNat
  header : udpHdrLen ≤ s.cap
  room : udpHdrLen ≤ s.wire
  src : pi.srcPort = be16 m s.p
  dst : pi.dstPort = be16 m (s.p + 2)

theorem decodeL4_place : Ends m decodeL4 (fun st s' pi' => st = .ok → s'.p = s.p ∧
    (pi.ipProto = ipprotoUdp → pi.frag = .none → OnUdp m s' pi')) s pi := by
  simp only [decodeL4, ends_bind, ends_ite, ends_pure, wp_getOut]
  refine ⟨fun htcp => ?_, fun htcp => ⟨fun hudp => ?_, fun hudp => ⟨fun hicmp => ?_, fun hicmp => ?_⟩⟩⟩
  · have hno : pi.ipProto ≠ ipprotoUdp := by
      rw [htcp]
      decide
    simp only [decodeTcp, ends_bind, ends_modifyOut, wp_need, wp_be16At, wp_load8, wp_modifyOut,
      wp_wireLeft, wp_exitIf, wp_requireCap, true_and, reduceCtorEq, false_imp_iff, implies_true, and_true]
    intro _ _ _ _
    exact fun hudp => absurd hudp hno
  · simp only [decodeUdp, ends_bind, ends_ite, ends_modifyOut, wp_need, wp_be16At, wp_modifyOut,
      wp_wireLeft, wp_exitIf, wp_clip, true_and, reduceCtorEq, false_imp_iff, implies_true, and_true]
    intro hcap hlen
    rw [not_or] at hlen
    refine ⟨fun hfrag => ?_, fun hfrag => ?_⟩
    · intro _ _ _
      refine ⟨rfl, ?_, ?_, rfl, rfl⟩
      · exact Nat.le_min.mpr ⟨hcap, Nat.le_of_not_lt hlen.1⟩
      · exact Nat.le_of_not_lt hlen.1
    · intro _ _ hnone
      exact absurd hnone hfrag
  · simp only [decodeIcmp, ends_bind, ends_modifyOut, wp_need, wp_load8, true_and, reduceCtorEq,
      false_imp_iff, implies_true, and_true]
    exact fun _ _ h => absurd h hudp
  · exact fun _ => ⟨trivial, fun h => absurd h hudp⟩

/-- What is known of the place where the network layer ends. -/
structure Placed (m : Mem) (proto : UInt8) (s : Span) (pi : PacketInfo) : Prop where
  proto : pi.ipProto = proto
  udp : pi.ipProto = ipprotoUdp → pi.frag = .none → OnUdp m s pi

theorem decodeL4_placed : Ends m decodeL4 (fun st s' pi' => st = .ok →
    s'.p = s.p ∧ Placed m pi.ipProto s' pi') s pi := by
  apply Ends.mono (decodeL4_place.and decodeL4_noL4)
  rintro st s' pi' ⟨hplace, heq⟩ hst
  obtain ⟨hp, hudp⟩ := hplace hst
  have hproto : pi'.ipProto = pi.ipProto :=
    PacketInfo.eq_of_erase PacketInfo.noL4 PacketInfo.ipProto (fun _ => rfl) heq
  have hfrag : pi'.frag = pi.frag :=
    PacketInfo.eq_of_erase PacketInfo.noL4 PacketInfo.frag (fun _ => rfl) heq
  refine ⟨hp, hproto, ?_⟩
  rw [hproto, hfrag]
  exact hudp

theorem decodeUpper_placed (next : UInt8) : Ends m (decodeUpper next) (fun st s' pi' => st = .ok →
    s'.p = s.p ∧ Placed m next s' pi') s pi := by
  simp only [decodeUpper, ends_bind, wp_modifyOut]
  exact decodeL4_placed

theorem decodeIpv6Chain_placed : ∀ (left : ℕ) (next : UInt8) {s : Span} {pi : PacketInfo},
    Ends m (decodeIpv6Chain left next) (fun st s' pi' => st = .ok → pi'.frag ≠ .later →
      ∃ proto, ChainTo m proto s'.p next s.p ∧ Placed m proto s' pi') s pi
  | 0, next, s, pi => by
      simp only [decodeIpv6Chain, ends_ite, ends_fail]
      refine ⟨fun _ h => absurd h (by decide), fun hno => Ends.mono (decodeUpper_placed next) ?_⟩
      intro st s' pi' h hst _
      obtain ⟨hp, hplaced⟩ := h hst
      rw [hp]
      exact ⟨next, .done (Bool.eq_false_iff.mpr hno), hplaced⟩
  | left + 1, next, s, pi => by
      simp only [decodeIpv6Chain, ends_ite, ends_bind, ends_modifyOut, wp_need, wp_be16At, wp_be32At,
        wp_modifyOut, wp_load8, wp_advance, wp_getOut, true_and, reduceCtorEq, false_imp_iff, implies_true,
        and_true]
      refine ⟨fun hext => ⟨fun hfrag _ => ⟨fun hl _ hno => absurd hl hno, fun _ => ?_⟩, fun hfrag _ _ => ?_⟩,
        fun hno => ?_⟩
      · apply Ends.mono (decodeIpv6Chain_placed left _)
        intro st s' pi' h hst hl
        obtain ⟨proto, hchain, hplaced⟩ := h hst hl
        rw [hfrag]
        exact ⟨proto, .fragment hchain, hplaced⟩
      · apply Ends.mono (decodeIpv6Chain_placed left _)
        intro st s' pi' h hst hl
        obtain ⟨proto, hchain, hplaced⟩ := h hst hl
        exact ⟨proto, .skip hext hfrag hchain, hplaced⟩
      · apply Ends.mono (decodeUpper_placed next)
        intro st s' pi' h hst _
        obtain ⟨hp, hplaced⟩ := h hst
        rw [hp]
        exact ⟨next, .done (Bool.eq_false_iff.mpr hno), hplaced⟩

theorem decodeIpv4_placed : Ends m decodeIpv4 (fun st s' pi' => st = .ok → pi'.frag ≠ .later →
    s'.p = s.p + (m s.p &&& 0x0F).toNat * 4 ∧ Placed m (m (s.p + 9)) s' pi') s pi := by
  simp only [decodeIpv4, decodeIpv4Header, ends_bind, ends_ite, ends_pure, wp_bind, wp_need, wp_load8,
    wp_exitIf, wp_be16At, wp_wireLeft, wp_requireCap, wp_loadBytes, wp_modifyOut, wp_clip, wp_advance,
    wp_getOut, true_and, implies_true, and_true, reduceCtorEq, false_imp_iff]
  intro _ _ _ _ _
  refine ⟨fun hl _ hno => absurd hl hno, fun _ => ?_⟩
  apply Ends.mono decodeL4_placed
  intro st s' pi' h hst _
  exact h hst

theorem decodeIpv6_placed : Ends m decodeIpv6 (fun st s' pi' => st = .ok → pi'.frag ≠ .later →
    ∃ proto, ChainTo m proto s'.p (m (s.p + 6)) (s.p + ipv6HdrLen) ∧ Placed m proto s' pi') s pi := by
  simp only [decodeIpv6, decodeIpv6Header, ends_bind, wp_bind, wp_need, wp_load8, wp_exitIf, wp_be16At,
    wp_wireMinus, wp_loadBytes, wp_modifyOut, wp_advance, wp_clip, wp_pure, true_and, implies_true, and_true,
    reduceCtorEq, false_imp_iff]
  intro _ _ _
  exact decodeIpv6Chain_placed _ _

end rules

/-! ### The frame -/

section frame

variable {m : Mem} {s : Span} {pi : PacketInfo}

theorem decodeVlans_place : ∀ (left : ℕ) {p : ℕ} {s : Span} {pi : PacketInfo}, s.p = p + 2 →
    wp (fun _ => True) m (decodeVlans left (be16 m p))
      (fun type s' _ => NetworkAt m p s'.p ∧ type = be16 m (s'.p - 2)) (fun _ _ _ => True) s pi
  | 0, p, s, pi, hs => by
      simp only [decodeVlans, wp_ite, wp_fail, wp_pure]
      refine ⟨fun _ => trivial, fun hno => ?_⟩
      rw [hs]
      exact ⟨.type (Bool.eq_false_iff.mpr hno), rfl⟩
  | left + 1, p, s, pi, hs => by
      simp only [decodeVlans, wp_ite, wp_bind, wp_need, wp_be16At, wp_modifyOut, wp_advance, wp_pure,
        true_and, implies_true, and_true]
      refine ⟨fun hvlan _ => ?_, fun hno => ?_⟩
      · have hpos : s.p + 2 = p + vlanTagLen := by
          rw [hs]
          rfl
        rw [hpos]
        refine wp_mono (decodeVlans_place left ?_) (fun type s' _ h => ?_) fun _ _ _ h => h
        · exact (congrArg (· + vlanTagLen) hs).trans (Nat.add_right_comm _ _ _)
        · exact ⟨.tag hvlan h.1, h.2⟩
      · rw [hs]
        exact ⟨.type (Bool.eq_false_iff.mpr hno), rfl⟩

theorem decodeL2_place : wp (fun _ => True) m decodeL2
    (fun type s' _ => NetworkAt m (s.p + 12) s'.p ∧ type = be16 m (s'.p - 2)) (fun _ _ _ => True) s pi := by
  simp only [decodeL2, wp_bind, wp_need, wp_be16At, wp_advance, wp_modifyOut, wp_pure, true_and,
    implies_true, and_true]
  intro _
  exact wp_mono (decodeVlans_place decodeMaxVlans rfl) (fun _ _ _ h => h) fun _ _ _ h => h

/-- A clean frame leaves the decoder at its transport header. -/
theorem decodeOuter_placed (hs : s.p = 0) : Ends m decodeOuter (fun st s' pi' => st = .ok →
    pi'.hasL3 = true → pi'.frag ≠ .later → TransportAt m pi'.ipProto s'.p ∧ Placed m pi'.ipProto s' pi')
    s {} := by
  simp only [decodeOuter, ends_bind]
  refine wp_mono (wp_and (decodeL2_place (s := s)) decodeL2_shape) (fun type s' pi₁ hl => ?_)
    fun e _ _ he hst => absurd (hst ▸ he.2.1) (by decide)
  obtain ⟨⟨hq, htype⟩, hpi⟩ := hl
  rw [hs, Nat.zero_add] at hq
  simp only [ends_ite, ends_pure]
  refine ⟨fun h4 => ?_, fun h4 => ⟨fun h6 => ?_, fun h6 _ hl3 => ?_⟩⟩
  · apply Ends.mono decodeIpv4_placed
    intro st s'' pi' h hst _ hl
    obtain ⟨hp, hplaced⟩ := h hst hl
    rw [hp, hplaced.proto]
    exact ⟨.ipv4 hq (htype.symm.trans h4), hplaced⟩
  · apply Ends.mono decodeIpv6_placed
    intro st s'' pi' h hst _ hl
    obtain ⟨proto, hchain, hplaced⟩ := h hst hl
    rw [hplaced.proto]
    exact ⟨.ipv6 hq (htype.symm.trans h6) hchain, hplaced⟩
  · have hno : pi₁.hasL3 = false := PacketInfo.eq_of_erase PacketInfo.noVlan PacketInfo.hasL3 (fun _ => rfl) hpi
    exact absurd (hno.symm.trans hl3) Bool.false_ne_true

/-- The outer packet does not depend on what GTP-U makes of it. -/
theorem decodeFrame_outer (m : Mem) (caplen wirelen : ℕ) : (decodeFrame m caplen wirelen).outer =
    (outerResult (decodeOuter.run m (frameSpan caplen wirelen) {})).outer := by
  rw [decodeFrame_eq, decodeTunnel_out]
  split_ifs with hc
  · have henv := gtpuRun_envelope (m := m) (outerResult_noTunnel m (frameSpan caplen wirelen)) hc
    exact (PacketInfo.eq_of_erase PacketInfo.envelope PacketInfo.outer (fun _ => rfl) henv).trans rfl
  · rfl

end frame

end Pcapstat
