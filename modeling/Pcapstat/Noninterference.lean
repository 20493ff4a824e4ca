import Pcapstat.DecodePlace

/-! # The contents of a tunnel do not matter to the outer packet

The outer decoder reads nothing behind the UDP header (`decodeOuter_below`), and a walk depends only
on what it reads (`Walk.reloc`).  So two frames that agree up to the end of the UDP header give the
same outer packet, whatever follows. -/

namespace Pcapstat

open SpanWalk SpanWalk.Walk

section below

variable {m : Mem} {s : Span} {pi : PacketInfo} {p : ℕ}

theorem decodeL4_below (hproto : pi.ipProto = ipprotoUdp) :
    wp (Below (s.p + udpHdrLen)) m decodeL4 (fun _ _ _ => True) (fun _ _ _ => True) s pi := by
  simp only [decodeL4, decodeUdp, wp_bind, wp_getOut, wp_ite, wp_need, wp_be16At, wp_modifyOut,
    wp_wireLeft, wp_exitIf, wp_clip, wp_pure, below_read, below_at, hproto, false_imp_iff, not_true,
    implies_true, and_true, true_imp_iff]
  constructor
  · intro htcp
    exact absurd htcp (by decide)
  · intro _ _
    unfold udpHdrLen
    omega

theorem decodeIpv4_below (hproto : m (s.p + 9) = ipprotoUdp) :
    wp (Below (s.p + (m s.p &&& 0x0F).toNat * 4 + udpHdrLen)) m decodeIpv4 (fun _ _ _ => True)
      (fun _ _ _ => True) s pi := by
  simp only [decodeIpv4, decodeIpv4Header, wp_bind, wp_ite, wp_pure, wp_need, wp_load8, wp_exitIf,
    wp_be16At, wp_wireLeft, wp_requireCap, wp_loadBytes, wp_modifyOut, wp_clip, wp_advance, wp_getOut,
    below_read, below_sub, below_at, implies_true, and_true, true_and, Nat.add_zero]
  intro _
  have hend : s.p < s.p + (m s.p &&& 0x0F).toNat * 4 + udpHdrLen := by
    rw [udpHdrLen]
    omega
  refine ⟨hend, fun _ hlen => ?_⟩
  rw [ipv4MinHdr] at hlen
  -- the fixed part of the header lies inside the header
  refine ⟨by omega, by omega, fun _ _ => ⟨by omega, fun k hk => by omega, fun k hk => by omega, by omega,
    by omega, by omega, by omega, fun _ => ?_⟩⟩
  exact decodeL4_below hproto

theorem decodeIpv6Chain_below : ∀ (left : ℕ) {next : UInt8} {s : Span} {pi : PacketInfo},
    ChainTo m ipprotoUdp p next s.p → wp (Below (p + udpHdrLen)) m (decodeIpv6Chain left next)
      (fun _ _ _ => True) (fun _ _ _ => True) s pi
  | 0, next, s, pi, h => by
      simp only [decodeIpv6Chain, decodeUpper, wp_ite, wp_fail, wp_bind, wp_modifyOut, implies_true, true_and]
      intro hno
      cases h with
      | done _ => exact decodeL4_below rfl
      | fragment _ => exact absurd rfl hno
      | skip hext _ _ => exact absurd hext hno
  | left + 1, next, s, pi, h => by
      simp only [decodeIpv6Chain, decodeUpper, wp_ite, wp_bind, wp_need, wp_be16At, wp_be32At, wp_modifyOut,
        wp_load8, wp_advance, wp_getOut, below_read, below_sub, below_at, implies_true, and_true, true_and]
      cases h with
      | done hno =>
          refine ⟨fun hext => absurd (hno.symm.trans hext) Bool.false_ne_true, fun _ => ?_⟩
          exact decodeL4_below rfl
      | fragment hrest =>
          have hle := hrest.le
          rw [ipv6FragLen] at hle
          refine ⟨fun _ => ⟨fun _ _ => ?_, fun hno => absurd rfl hno⟩, fun hno => absurd rfl hno⟩
          rw [udpHdrLen]
          refine ⟨by omega, by omega, by omega, by omega, by omega, by omega, by omega, fun _ => ?_⟩
          exact decodeIpv6Chain_below left hrest
      | skip hext hno hrest =>
          have hle := hrest.le
          refine ⟨fun _ => ⟨fun hfrag => absurd hfrag hno, fun _ _ => ?_⟩, fun hno' => absurd hext hno'⟩
          refine ⟨?_, fun _ => ⟨?_, ?_⟩⟩
          · rw [udpHdrLen]
            omega
          · rw [udpHdrLen]
            omega
          · exact decodeIpv6Chain_below left hrest

theorem decodeIpv6_below (h : ChainTo m ipprotoUdp p (m (s.p + 6)) (s.p + ipv6HdrLen)) :
    wp (Below (p + udpHdrLen)) m decodeIpv6 (fun _ _ _ => True) (fun _ _ _ => True) s pi := by
  have hle := h.le
  rw [ipv6HdrLen] at hle
  simp only [decodeIpv6, decodeIpv6Header, wp_bind, wp_need, wp_load8, wp_exitIf, wp_be16At,
    wp_wireMinus, wp_loadBytes, wp_modifyOut, wp_advance, wp_clip, wp_pure, below_read, below_sub,
    below_at, implies_true, and_true, true_and]
  intro _
  have hend : ∀ k < 40, s.p + k < p + udpHdrLen := by
    intro k hk
    omega
  refine ⟨hend 0 (by decide), fun _ => ⟨hend 4 (by decide), hend 5 (by decide), fun _ =>
    ⟨hend 6 (by decide), fun k hk => ?_, fun k hk => ?_, ?_⟩⟩⟩
  · exact (Nat.add_assoc _ _ _).symm ▸ hend (8 + k) (by omega)
  · exact (Nat.add_assoc _ _ _).symm ▸ hend (24 + k) (by omega)
  · exact decodeIpv6Chain_below _ h

/-- **The outer decoder reads nothing behind the UDP header.** -/
theorem decodeOuter_below (hs : s.p = 0) (h : TransportAt m ipprotoUdp p) :
    wp (Below (p + udpHdrLen)) m decodeOuter (fun _ _ _ => True) (fun _ _ _ => True) s {} := by
  simp only [decodeOuter, wp_bind]
  have hlink : ∀ {q}, NetworkAt m 12 q → q ≤ p → wp (Below (p + udpHdrLen)) m decodeL2
      (fun type s' _ => s'.p = q ∧ type = be16 m (q - 2)) (fun _ _ _ => True) s {} := by
    intro q hq hle
    have hq' : NetworkAt m (s.p + 12) q := by rwa [hs, Nat.zero_add]
    refine wp_mono (wp_log (decodeL2_network hq') (Below.mono (Nat.le_add_right_of_le hle))) ?_
      fun _ _ _ h => h
    rintro type s' pi' ⟨hp, htype, -⟩
    exact ⟨hp, htype⟩
  generalize hproto : ipprotoUdp = proto at h
  cases h with
  | @ipv4 q hq htype =>
      refine wp_mono (hlink hq (Nat.le_add_right _ _)) ?_ fun _ _ _ h => h
      rintro type s' pi' ⟨rfl, rfl⟩
      rw [htype, if_pos rfl]
      exact decodeIpv4_below hproto.symm
  | @ipv6 q _ _ hq htype hchain =>
      have hle : q ≤ p := (Nat.le_add_right _ _).trans hchain.le
      refine wp_mono (hlink hq hle) ?_ fun _ _ _ h => h
      rintro type s' pi' ⟨rfl, rfl⟩
      rw [htype, if_neg (by decide), if_pos rfl]
      exact decodeIpv6_below (hproto ▸ hchain)

end below

/-! ### Two frames -/

section frames

variable {m m' : Mem} {p caplen wirelen : ℕ}

/-- Frames that agree up to the end of the UDP header are decoded alike up to there. -/
theorem decodeOuter_congr (h : TransportAt m ipprotoUdp p) (hagree : ∀ i < p + udpHdrLen, m' i = m i) :
    Ran.Moved (frameSpan caplen wirelen) (frameSpan caplen wirelen)
      (decodeOuter.run m (frameSpan caplen wirelen) {}) (decodeOuter.run m' (frameSpan caplen wirelen) {}) := by
  apply decodeOuter.reloc m m' _ _ {} rfl rfl
  intro k hk
  have hread := (decodeOuter_below (s := frameSpan caplen wirelen) rfl h).1 _ hk
  exact (hagree _ hread).symm

/-- The tunnel decoder starts from the same place with the same outer packet. -/
theorem outerResult_congr (h : TransportAt m ipprotoUdp p) (hagree : ∀ i < p + udpHdrLen, m' i = m i) :
    (decodeOuter.run m' (frameSpan caplen wirelen) {}).s = (decodeOuter.run m (frameSpan caplen wirelen) {}).s ∧
      outerResult (decodeOuter.run m' (frameSpan caplen wirelen) {}) =
        outerResult (decodeOuter.run m (frameSpan caplen wirelen) {}) := by
  obtain ⟨hres, hout, hcap, hwire, k, hp, hp'⟩ := @decodeOuter_congr m m' p caplen wirelen h hagree
  constructor
  · rw [Span.mk.injEq]
    exact ⟨hp'.trans hp.symm, hcap.symm, hwire.symm⟩
  · unfold outerResult
    rw [hout, hres]

/-- **Tunnel contents never reach the outer packet.** -/
theorem decodeFrame_envelope (h : TransportAt m ipprotoUdp p) (hagree : ∀ i < p + udpHdrLen, m' i = m i) :
    (decodeFrame m' caplen wirelen).envelope = (decodeFrame m caplen wirelen).envelope := by
  obtain ⟨hs, hpi⟩ := @outerResult_congr m m' p caplen wirelen h hagree
  have hno := outerResult_noTunnel m (frameSpan caplen wirelen)
  rw [decodeFrame_eq, decodeFrame_eq, decodeTunnel_out, decodeTunnel_out, hs, hpi]
  split_ifs with hc
  · exact (gtpuRun_envelope hno hc).trans (gtpuRun_envelope hno hc).symm
  · rfl

end frames

end Pcapstat
