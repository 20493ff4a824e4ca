import Pcapstat.Coherence
import Pcapstat.DecodeBounds
import Pcapstat.DecodeFull
import Pcapstat.Noninterference

/-! # Declared lengths contain the decoder

The length fields of the IP header, of UDP and of GTP-U each say where their layer ends, and nothing
behind that end is decoded: Ethernet padding, a capture that runs on, or bytes that a layer leaves over.
Once a length has been applied, the span lies before the declared end (`InBounds`), whatever the
frame is; up to there, a longer frame makes no difference (`Lenient`). -/

namespace Pcapstat

open SpanWalk SpanWalk.Walk

/-- The IP packet of the frame is declared to end at `e`. -/
inductive IpEnd (m : Mem) : ℕ → Prop where
  | ipv4 {q : ℕ} : NetworkAt m 12 q → be16 m (q - 2) = ethertypeIpv4 → (be16 m (q + 2)).toNat ≠ 0 →
      IpEnd m (q + (be16 m (q + 2)).toNat)
  | ipv6 {q : ℕ} : NetworkAt m 12 q → be16 m (q - 2) = ethertypeIpv6 →
      IpEnd m (q + ipv6HdrLen + (be16 m (q + 4)).toNat)

/-! ### More bytes behind the packet -/

section longer

variable {m : Mem} {s : Span} {pi : PacketInfo}

theorem lenient_be16At (i : ℕ) : Lenient (be16At i : Decoder UInt16) :=
  .bind (.load8 i) fun _ => .bind (.load8 (i + 1)) fun _ => .pure _

theorem lenient_decodeVlans : ∀ (left : ℕ) (type : UInt16), Lenient (decodeVlans left type)
  | 0, _ => .ite (.fail _) (.pure _)
  | left + 1, _ => .ite
      (.bind (.need _ _ _) fun _ => .bind (lenient_be16At 0) fun _ => .bind (.modifyOut _) fun _ =>
        .bind (lenient_be16At 2) fun _ => .bind (.advance _) fun _ => lenient_decodeVlans left _)
      (.pure _)

theorem lenient_decodeL2 : Lenient decodeL2 :=
  .bind (.need _ _ _) fun _ => .bind (lenient_be16At 12) fun _ => .bind (.advance _) fun _ =>
    .bind (lenient_decodeVlans _ _) fun _ => .bind (.modifyOut _) fun _ => .pure _

/-- A valid IPv4 header ends the span where it says, on a longer span too. -/
theorem decodeIpv4Header_longer (hs : s.cap = s.wire) (htotal : (be16 m (s.p + 2)).toNat ≠ 0) (k : ℕ) :
    wp (fun _ => True) m decodeIpv4Header
      (fun a s₁ pi₁ => wp (fun _ => True) m decodeIpv4Header
        (fun b s₂ pi₂ => b = a ∧ s₂ = s₁ ∧ pi₂ = pi₁)
        (fun _ _ _ => False) (s.longer k) pi)
      (fun _ _ pi₁ => pi₁ = pi) s pi := by
  simp only [decodeIpv4Header, wp_bind, wp_need, wp_load8, wp_exitIf, wp_be16At, wp_wireLeft, wp_requireCap,
    wp_loadBytes, wp_modifyOut, wp_clip, wp_advance, Span.longer, if_neg htotal, implies_true, and_true,
    true_and]
  intro hcap hver hihl hlen hroom
  rw [not_or, not_lt, not_lt] at hlen
  refine ⟨fun _ => ⟨fun _ => ⟨fun _ => ⟨fun _ => ⟨fun _ => ?_, fun h => ?_⟩, fun h => ?_⟩,
    fun h => absurd h hihl⟩,
    fun h => absurd h hver⟩, fun h _ => ?_, fun h _ => ?_⟩
  · have hmin : min (s.cap + k) (be16 m (s.p + 2)).toNat = min s.cap (be16 m (s.p + 2)).toNat := by omega
    rw [hmin]
  all_goals omega

/-- A valid IPv6 header ends the span where it says, on a longer span too. -/
theorem decodeIpv6Header_longer (hs : s.cap = s.wire) (k : ℕ) :
    wp (fun _ => True) m decodeIpv6Header
      (fun a s₁ pi₁ => wp (fun _ => True) m decodeIpv6Header
        (fun b s₂ pi₂ => b = a ∧ s₂ = s₁ ∧ pi₂ = pi₁)
        (fun _ _ _ => False) (s.longer k) pi)
      (fun _ _ pi₁ => pi₁ = pi) s pi := by
  simp only [decodeIpv6Header, wp_bind, wp_need, wp_load8, wp_exitIf, wp_be16At, wp_wireMinus, wp_loadBytes,
    wp_modifyOut, wp_advance, wp_clip, wp_pure, Span.longer, implies_true, and_true, true_and]
  intro hcap hver hlen
  refine ⟨fun _ => ⟨fun _ => ⟨fun _ => ?_, fun h => ?_⟩, fun h => absurd h hver⟩,
    fun h _ => ?_, fun h _ => ?_⟩
  · have hmin : min (s.cap + k - ipv6HdrLen) (be16 m (s.p + 4)).toNat =
        min (s.cap - ipv6HdrLen) (be16 m (s.p + 4)).toNat := by omega
    rw [hmin]
  all_goals omega

/-- Two runs that ended alike. -/
structure SameEnd {α : Type} (r r' : Ran PacketInfo DecodeStatus α) : Prop where
  res : r'.res = r.res
  out : r'.out = r.out
  s : r'.s = r.s

theorem SameEnd.bind {α : Type} {x : Decoder α} {f : α → Decoder Unit} {s' : Span} {pi : PacketInfo}
    (h : SameEnd (x.run m s pi) (x.run m s' pi)) : SameEnd ((x >>= f).run m s pi) ((x >>= f).run m s' pi) := by
  simp only [run_bind]
  cases hr : (x.run m s pi).res with
  | error e =>
      rw [andThen_error hr, andThen_error (h.res.trans hr)]
      exact ⟨rfl, h.out, h.s⟩
  | ok a =>
      rw [andThen_ok hr, andThen_ok (h.res.trans hr), h.out, h.s]
      exact ⟨rfl, rfl, rfl⟩

/-- A header that was valid, and nothing is said of one that was not. -/
theorem sameEnd_of_wp {α : Type} {x : Decoder α} {f : α → Decoder Unit} {s' : Span} (hpi : pi.hasL3 = false)
    (h : wp (fun _ => True) m x (fun a s₁ pi₁ => wp (fun _ => True) m x
      (fun b s₂ pi₂ => b = a ∧ s₂ = s₁ ∧ pi₂ = pi₁) (fun _ _ _ => False) s' pi)
      (fun _ _ pi₁ => pi₁ = pi) s pi)
    (hl3 : ((x >>= f).run m s pi).out.hasL3 = true) :
    SameEnd ((x >>= f).run m s pi) ((x >>= f).run m s' pi) := by
  obtain ⟨hok, herr⟩ := wp_top_iff.mp h
  cases hr : (x.run m s pi).res with
  | error e =>
      rw [run_bind, andThen_error hr, herr e hr, hpi] at hl3
      exact absurd hl3 Bool.false_ne_true
  | ok a =>
      obtain ⟨b, hb, rfl, hs, hout⟩ := exists_of_wp (hok a hr)
      exact SameEnd.bind ⟨hb.trans hr.symm, hout, hs⟩

/-- **Behind the declared end of the packet, more bytes make no difference to the outer packet.** -/
theorem decodeOuter_longer {q : ℕ} (hq : NetworkAt m 12 q) (hp : s.p = 0) (hs : s.cap = s.wire)
    (htotal : be16 m (q - 2) = ethertypeIpv4 → (be16 m (q + 2)).toNat ≠ 0)
    (hl3 : (decodeOuter.run m s {}).out.hasL3 = true) (k : ℕ) :
    SameEnd (decodeOuter.run m s {}) (decodeOuter.run m (s.longer k) {}) := by
  have hno : (decodeL2.run m s {}).out.hasL3 = false := by
    have hshape := wp_top_iff.mp (@decodeL2_shape m s {})
    cases hr : (decodeL2.run m s {}).res with
    | error e => exact PacketInfo.eq_of_erase PacketInfo.noVlan PacketInfo.hasL3 (fun _ => rfl) (hshape.2 e hr).2
    | ok type => exact PacketInfo.eq_of_erase PacketInfo.noVlan PacketInfo.hasL3 (fun _ => rfl) (hshape.1 type hr)
  have hfull : wp Level m decodeL2 (fun _ s' _ => s'.cap = s'.wire) _ s {} := full_decodeL2 hs
  have hsafe : Safe s.cap m decodeL2 s {} _ := safe_decodeL2 ⟨by omega, hs.le⟩
  have hq' : NetworkAt m (s.p + 12) q := by rwa [hp, Nat.zero_add]
  have hplace := wp_top_iff.mp (wp_top (@decodeL2_network m q s {} hq'))
  unfold decodeOuter at hl3 ⊢
  simp only [run_bind] at hl3 ⊢
  cases hr : (decodeL2.run m s {}).res with
  | error e =>
      rw [andThen_error hr, hno] at hl3
      exact absurd hl3 Bool.false_ne_true
  | ok type =>
      obtain ⟨hres, hout, hspan⟩ := lenient_decodeL2 m s {} type k (fun a b hab => hsafe.1 _ hab) hr
      obtain ⟨hpos, htype, -⟩ := hplace.1 type hr
      have hlevel := (wp_top_iff.mp (wp_top hfull)).1 type hr
      rw [andThen_ok hr] at hl3 ⊢
      rw [andThen_ok hres, hout, hspan]
      have hnext : SameEnd ((if type = ethertypeIpv4 then decodeIpv4 else if type = ethertypeIpv6 then decodeIpv6
            else pure ()).run m (decodeL2.run m s {}).s (decodeL2.run m s {}).out)
          ((if type = ethertypeIpv4 then decodeIpv4 else if type = ethertypeIpv6 then decodeIpv6
            else pure ()).run m ((decodeL2.run m s {}).s.longer k) (decodeL2.run m s {}).out) := by
        by_cases h4 : type = ethertypeIpv4
        · rw [if_pos h4] at hl3 ⊢
          have htotal' := htotal (htype.symm.trans h4)
          rw [← hpos] at htotal'
          exact sameEnd_of_wp hno (decodeIpv4Header_longer hlevel htotal' k) hl3
        rw [if_neg h4] at hl3 ⊢
        by_cases h6 : type = ethertypeIpv6
        · rw [if_pos h6] at hl3 ⊢
          exact sameEnd_of_wp hno (decodeIpv6Header_longer hlevel k) hl3
        · rw [if_neg h6] at hl3
          exact absurd (hno.symm.trans hl3) Bool.false_ne_true
      exact ⟨hnext.res, hnext.out, hnext.s⟩

end longer

/-! ### Nothing behind the end is read -/

section inside

variable {m : Mem} {s : Span} {pi : PacketInfo} {e : ℕ}

theorem below_of_accountable : ∀ ev, Accountable e ev → Below e ev
  | .read _, h => h
  | .sub _ _, _ => trivial
  | .at _, _ => trivial

theorem decodeIpv4_inside (hpi : pi.hasL4 = false) (htotal : ipv4MinHdr ≤ (be16 m (s.p + 2)).toNat) :
    wp (Below (s.p + (be16 m (s.p + 2)).toNat)) m decodeIpv4
      (fun _ s' pi' => InBounds (s.p + (be16 m (s.p + 2)).toNat) s' ∧ UdpRoom s' pi') (fun _ _ _ => True) s pi := by
  unfold ipv4MinHdr at htotal
  simp only [decodeIpv4, decodeIpv4Header, wp_bind, wp_ite, wp_pure, wp_need, wp_load8, wp_exitIf, wp_be16At,
    wp_wireLeft, wp_requireCap, wp_loadBytes, wp_modifyOut, wp_clip, wp_advance, wp_getOut, below_read,
    below_sub, below_at, implies_true, and_true, true_and, if_neg (show (be16 m (s.p + 2)).toNat ≠ 0 by omega)]
  intro _
  refine ⟨by omega, fun _ _ => ⟨by omega, by omega, fun hlen hopts => ?_⟩⟩
  refine ⟨by omega, fun k hk => by omega, fun k hk => by omega, by omega, by omega, by omega, by omega, ?_⟩
  have hin : InBounds (s.p + (be16 m (s.p + 2)).toNat)
      ⟨s.p + (m (s.p + 0) &&& 15).toNat * 4, min s.cap (be16 m (s.p + 2)).toNat - (m (s.p + 0) &&& 15).toNat * 4,
        (be16 m (s.p + 2)).toNat - (m (s.p + 0) &&& 15).toNat * 4⟩ := by
    unfold InBounds
    dsimp only
    omega
  refine ⟨fun _ => ⟨hin, fun h4 => absurd (hpi.symm.trans h4) Bool.false_ne_true⟩, fun _ => ?_⟩
  exact wp_log (wp_mono (safe_decodeL4 hin hpi) (fun _ _ _ h => h) fun _ _ _ _ => trivial) below_of_accountable

theorem decodeIpv6_inside (hpi : pi.hasL4 = false) :
    wp (Below (s.p + ipv6HdrLen + (be16 m (s.p + 4)).toNat)) m decodeIpv6
      (fun _ s' pi' => InBounds (s.p + ipv6HdrLen + (be16 m (s.p + 4)).toNat) s' ∧ UdpRoom s' pi')
      (fun _ _ _ => True) s pi := by
  simp only [decodeIpv6, decodeIpv6Header, wp_bind, wp_need, wp_load8, wp_exitIf, wp_be16At, wp_wireMinus,
    wp_loadBytes, wp_modifyOut, wp_advance, wp_clip, wp_pure, below_read, below_sub, below_at, implies_true,
    and_true, true_and]
  intro _
  unfold ipv6HdrLen
  refine ⟨by omega, fun _ => ⟨by omega, by omega, fun _ => ⟨by omega, fun k hk => by omega,
    fun k hk => by omega, ?_⟩⟩⟩
  refine wp_log (wp_mono (safe_decodeIpv6Chain _ _ ?_ hpi) (fun _ _ _ h => h) fun _ _ _ _ => trivial)
    below_of_accountable
  unfold InBounds
  dsimp only
  omega

/-- The outer decoder reads nothing behind the declared end of the packet. -/
theorem decodeOuter_inside (hp : s.p = 0) (h : IpEnd m e)
    (hroom : ∀ q, NetworkAt m 12 q → be16 m (q - 2) = ethertypeIpv4 → (be16 m (q + 2)).toNat ≠ 0 →
      ipv4MinHdr ≤ (be16 m (q + 2)).toNat) :
    wp (Below e) m decodeOuter (fun _ s' pi' => InBounds e s' ∧ UdpRoom s' pi') (fun _ _ _ => True) s {} := by
  have hlink : ∀ {q}, NetworkAt m 12 q → q ≤ e → wp (Below e) m decodeL2
      (fun type s' pi' => s'.p = q ∧ type = be16 m (q - 2) ∧ pi'.hasL4 = false) (fun _ _ _ => True) s {} := by
    intro q hq hle
    have hq' : NetworkAt m (s.p + 12) q := by rwa [hp, Nat.zero_add]
    refine wp_mono (wp_log (decodeL2_network hq') (Below.mono hle)) ?_ fun _ _ _ h => h
    rintro type s' pi' ⟨hpos, htype, hpi⟩
    exact ⟨hpos, htype, PacketInfo.eq_of_erase PacketInfo.noVlan PacketInfo.hasL4 (fun _ => rfl) hpi⟩
  simp only [decodeOuter, wp_bind]
  cases h with
  | @ipv4 q hq htype htotal =>
      refine wp_mono (hlink hq (Nat.le_add_right _ _)) ?_ fun _ _ _ h => h
      rintro type s' pi' ⟨rfl, rfl, hpi⟩
      rw [htype, if_pos rfl]
      exact decodeIpv4_inside hpi (hroom _ hq htype htotal)
  | @ipv6 q hq htype =>
      refine wp_mono (hlink hq (by omega)) ?_ fun _ _ _ h => h
      rintro type s' pi' ⟨rfl, rfl, hpi⟩
      rw [htype, if_neg (by decide), if_pos rfl]
      exact decodeIpv6_inside hpi

theorem decodeTunnel_inside (h : pi.status = .ok → InBounds e s ∧ UdpRoom s pi) :
    wp (Below e) m decodeTunnel (fun _ _ _ => True) (fun _ _ _ => True) s pi := by
  by_cases hst : pi.status = .ok
  · obtain ⟨hin, hudp⟩ := h hst
    refine wp_log (wp_mono (safe_decodeTunnel hin fun _ => hudp) (fun _ _ _ _ => trivial) fun _ _ _ _ => trivial)
      below_of_accountable
  · simp only [decodeTunnel, wp_bind, wp_getOut, wp_wireLeft, wp_ite, wp_pure]
    exact ⟨fun hc => absurd hc.1 hst, fun _ => trivial⟩

/-- Nothing behind the declared end of the packet is read. -/
theorem frameWalk_inside (hp : s.p = 0) (h : IpEnd m e)
    (hroom : ∀ q, NetworkAt m 12 q → be16 m (q - 2) = ethertypeIpv4 → (be16 m (q + 2)).toNat ≠ 0 →
      ipv4MinHdr ≤ (be16 m (q + 2)).toNat) :
    wp (Below e) m frameWalk (fun _ _ _ => True) (fun _ _ _ => True) s {} := by
  simp only [frameWalk, wp_bind, wp_attempt, wp_modifyOut]
  refine wp_mono (wp_and (decodeOuter_inside hp h hroom) decodeOuter_exits) (fun _ s' pi' h => ?_)
    fun st s' pi' h => ?_
  · exact decodeTunnel_inside fun _ => h.1
  · exact decodeTunnel_inside fun hst => absurd hst h.2

/-- A valid IPv4 header has its declared length, unless this is zero. -/
theorem decodeIpv4Header_room : wp (fun _ => True) m decodeIpv4Header
    (fun _ _ _ => (be16 m (s.p + 2)).toNat ≠ 0 → ipv4MinHdr ≤ (be16 m (s.p + 2)).toNat)
    (fun _ _ pi' => pi' = pi) s pi := by
  simp only [decodeIpv4Header, wp_bind, wp_need, wp_load8, wp_exitIf, wp_be16At, wp_wireLeft, wp_requireCap,
    wp_loadBytes, wp_modifyOut, wp_clip, wp_advance, implies_true, and_true, true_and]
  intro _ _ hihl htotal _ hne
  rw [if_neg hne] at htotal
  omega

theorem decodeIpv4_room (hpi : pi.hasL3 = false) : Ends m decodeIpv4 (fun _ _ pi' => pi'.hasL3 = true →
    (be16 m (s.p + 2)).toNat ≠ 0 → ipv4MinHdr ≤ (be16 m (s.p + 2)).toNat) s pi := by
  simp only [decodeIpv4, ends_bind]
  refine wp_mono decodeIpv4Header_room (fun _ s' pi' h => ?_) fun _ _ pi' h hl3 => ?_
  · simp only [wp_getOut, ends_ite, ends_pure]
    exact ⟨fun _ _ => h, fun _ => Ends.mono decodeL4_noL4 fun _ _ _ _ _ => h⟩
  · rw [h, hpi] at hl3
    exact absurd hl3 Bool.false_ne_true

/-- A frame with a valid IP header has a network header. -/
theorem decodeOuter_ip (hp : s.p = 0) : Ends m decodeOuter (fun _ _ pi' => pi'.hasL3 = true →
    ∃ q, NetworkAt m 12 q ∧ (be16 m (q - 2) = ethertypeIpv4 ∧
        ((be16 m (q + 2)).toNat ≠ 0 → ipv4MinHdr ≤ (be16 m (q + 2)).toNat) ∨
      be16 m (q - 2) = ethertypeIpv6)) s {} := by
  have hnot : ∀ {a b : PacketInfo}, b.hasL3 = false → a.noVlan = b.noVlan → a.hasL3 = false := by
    intro a b hb heq
    exact (PacketInfo.eq_of_erase PacketInfo.noVlan PacketInfo.hasL3 (fun _ => rfl) heq).trans hb
  simp only [decodeOuter, ends_bind]
  refine wp_mono (wp_and (decodeL2_place (s := s)) decodeL2_shape) (fun type s' pi₁ h => ?_) fun _ _ pi' h hl3 => ?_
  · obtain ⟨⟨hq, htype⟩, hpi⟩ := h
    rw [hp, Nat.zero_add] at hq
    have hno : pi₁.hasL3 = false := hnot rfl hpi
    simp only [ends_ite, ends_pure]
    refine ⟨fun h4 => ?_, fun _ => ⟨fun h6 => ?_, fun _ hl3 => ?_⟩⟩
    · exact Ends.mono (decodeIpv4_room hno) fun _ _ _ h hl3 => ⟨_, hq, .inl ⟨htype.symm.trans h4, h hl3⟩⟩
    · exact wp_top_iff.mpr ⟨fun _ _ _ => ⟨_, hq, .inr (htype.symm.trans h6)⟩,
        fun _ _ _ => ⟨_, hq, .inr (htype.symm.trans h6)⟩⟩
    · exact absurd (hno.symm.trans hl3) Bool.false_ne_true
  · exact absurd ((hnot rfl h.2.2).symm.trans hl3) Bool.false_ne_true

/-- Nothing behind the declared end of the message is read. -/
theorem decodeGtpu_inside : wp (Below (s.p + gtpuHdrLen + (be16 m (s.p + 2)).toNat)) m decodeGtpu
    (fun _ _ _ => True) (fun _ _ _ => True) s pi := by
  simp only [decodeGtpu, decodeGtpuHeaders, wp_bind, wp_need, wp_load8, wp_ite, wp_pure, wp_be16At, wp_be32At,
    wp_modifyOut, wp_wireMinus, wp_exitIf, wp_advance, wp_clip, below_read, below_sub, below_at, implies_true,
    and_true, true_and, Bool.false_eq_true, false_imp_iff]
  intro _
  unfold gtpuHdrLen
  refine ⟨by omega, fun _ => ⟨by omega, by omega, by omega, by omega, by omega, by omega, by omega,
    fun _ => ?_⟩⟩
  have hin : InBounds (s.p + 8 + (be16 m (s.p + 2)).toNat)
      ⟨s.p + 8, min (s.cap - 8) (be16 m (s.p + 2)).toNat, (be16 m (s.p + 2)).toNat⟩ := by
    unfold InBounds
    dsimp only
    omega
  refine wp_mono (wp_log (safe_decodeGtpuOpt hin _) below_of_accountable) (fun next s₁ pi₁ h₁ => ?_)
    fun _ _ _ _ => trivial
  refine wp_mono (wp_log (safe_decodeGtpuExts _ 0 next h₁.1) below_of_accountable) (fun _ s₂ pi₂ h₂ => ?_)
    fun _ _ _ _ => trivial
  intro _
  exact wp_mono (wp_log (safe_decodeGtpuInner h₂.1) below_of_accountable) (fun _ _ _ _ => trivial)
    fun _ _ _ _ => trivial

theorem decodeTunnel_message : wp (Below (s.p + udpHdrLen + gtpuHdrLen + (be16 m (s.p + udpHdrLen + 2)).toNat)) m
    decodeTunnel (fun _ _ _ => True) (fun _ _ _ => True) s pi := by
  simp only [decodeTunnel, wp_bind, wp_getOut, wp_wireLeft, wp_ite, wp_modifyOut, wp_advance, wp_attempt,
    wp_pure, below_sub, below_at, implies_true, and_true, true_and]
  exact fun _ => decodeGtpu_inside

end inside

/-! ### Frames -/

section frame

variable {frame : Mem} {caplen wirelen n e : ℕ}

/-- The bytes behind `e` do not matter. -/
def Unread (frame : Mem) (caplen wirelen e : ℕ) : Prop :=
  ∀ frame' : Mem, (∀ i < e, frame' i = frame i) →
    decodeFrame frame' caplen wirelen = decodeFrame frame caplen wirelen

/-- The bytes behind `e` do not matter, nor does it matter how many they are. -/
def Contained (frame : Mem) (n e : ℕ) : Prop :=
  ∀ n' ≥ n, ∀ frame' : Mem, (∀ i < e, frame' i = frame i) → decodeFrame frame' n' n' = decodeFrame frame n n

theorem unread_of_wp (h : wp (Below e) frame frameWalk (fun _ _ _ => True) (fun _ _ _ => True)
    (frameSpan caplen wirelen) {}) : Unread frame caplen wirelen e := by
  intro frame' hagree
  have hmoved := frameWalk.reloc frame frame' (frameSpan caplen wirelen) (frameSpan caplen wirelen) {} rfl rfl
    fun k hk => (hagree _ (h.1 _ hk)).symm
  exact hmoved.out.symm

theorem frameSpan_full (n : ℕ) : frameSpan n n = ⟨0, n, n⟩ := by
  unfold frameSpan
  rw [if_neg (lt_irrefl n)]

/-- A longer capture of the same bytes is decoded alike. -/
theorem decodeFrame_longer {q : ℕ} (hq : NetworkAt frame 12 q)
    (htotal : be16 frame (q - 2) = ethertypeIpv4 → (be16 frame (q + 2)).toNat ≠ 0)
    (hl3 : (decodeFrame frame n n).hasL3 = true) (k : ℕ) :
    decodeFrame frame (n + k) (n + k) = decodeFrame frame n n := by
  have hspan : frameSpan (n + k) (n + k) = (frameSpan n n).longer k := by
    rw [frameSpan_full, frameSpan_full]
    rfl
  rw [decodeFrame_field PacketInfo.hasL3 fun _ => rfl] at hl3
  have hsame := decodeOuter_longer (s := frameSpan n n) hq rfl (by rw [frameSpan_full]) htotal hl3 k
  have hresult : outerResult (decodeOuter.run frame ((frameSpan n n).longer k) {}) =
      outerResult (decodeOuter.run frame (frameSpan n n) {}) := by
    unfold outerResult
    rw [hsame.out, hsame.res]
  rw [decodeFrame_eq, decodeFrame_eq, hspan, hsame.s, hresult]

theorem contained_of_ipEnd {q : ℕ} (hq : NetworkAt frame 12 q) (h : IpEnd frame e)
    (htotal : be16 frame (q - 2) = ethertypeIpv4 → (be16 frame (q + 2)).toNat ≠ 0)
    (hroom : be16 frame (q - 2) = ethertypeIpv4 → ipv4MinHdr ≤ (be16 frame (q + 2)).toNat)
    (hl3 : (decodeFrame frame n n).hasL3 = true) : Contained frame n e := by
  intro n' hn frame' hagree
  obtain ⟨k, rfl⟩ := Nat.exists_eq_add_of_le hn
  rw [← decodeFrame_longer hq htotal hl3 k]
  have hinside := frameWalk_inside (s := frameSpan (n + k) (n + k)) rfl h (by
    intro q' hq' htype _
    obtain rfl := hq.unique hq'
    exact hroom htype)
  exact unread_of_wp hinside frame' hagree

theorem unread_of_tunnel {h : ℕ} (hat : TransportAt frame ipprotoUdp h) (hle : h + udpHdrLen ≤ e)
    (htunnel : wp (Below e) frame decodeTunnel (fun _ _ _ => True) (fun _ _ _ => True)
      (outerRun frame caplen wirelen).s (outerResult (outerRun frame caplen wirelen))) :
    Unread frame caplen wirelen e := by
  intro frame' hagree
  obtain ⟨hs, hpi⟩ := @outerResult_congr frame frame' h caplen wirelen hat
    fun i hi => hagree i (hi.trans_le hle)
  rw [decodeFrame_eq, decodeFrame_eq, hs, hpi]
  have hmoved := decodeTunnel.reloc frame frame' (outerRun frame caplen wirelen).s
    (outerRun frame caplen wirelen).s (outerResult (outerRun frame caplen wirelen)) rfl rfl
    fun k hk => (hagree _ (htunnel.1 _ hk)).symm
  exact hmoved.out.symm

theorem decodeFrame_udpLength (hfrag : (decodeFrame frame caplen wirelen).frag = .none)
    (hl4 : (decodeFrame frame caplen wirelen).hasL4 = true)
    (hproto : (decodeFrame frame caplen wirelen).ipProto = ipprotoUdp) :
    ∃ h, TransportAt frame ipprotoUdp h ∧ udpHdrLen ≤ (be16 frame (h + 4)).toNat ∧
      Unread frame caplen wirelen (h + (be16 frame (h + 4)).toNat) := by
  have hst := (decodeFrame_l4_iff.mp hl4).2.1
  obtain ⟨hat, hudp⟩ := outerRun_onUdp hst hfrag hl4 hproto
  have hroom := hudp.room
  rw [hudp.wire] at hroom
  have hsafe : Safe caplen frame decodeOuter (frameSpan caplen wirelen) {} fun _ s' pi' => UdpRoom s' pi' :=
    safe_decodeOuter (frameSpan_inBounds caplen wirelen) rfl
  have hcap : (outerRun frame caplen wirelen).s.cap ≤ (outerRun frame caplen wirelen).s.wire := by
    have hwp := wp_top_iff.mp (wp_top hsafe)
    cases hr : (decodeOuter.run frame (frameSpan caplen wirelen) {}).res with
    | ok a => exact (hwp.1 a hr).1.2
    | error e => exact (hwp.2 e hr).2
  refine ⟨_, hat, hroom, unread_of_tunnel hat (Nat.add_le_add_left hroom _) ?_⟩
  apply decodeTunnel_inside
  intro _
  refine ⟨⟨?_, hcap⟩, fun _ _ => hudp.header⟩
  exact Nat.add_le_add_left (hudp.wire ▸ hcap) _

/-- **Declared lengths contain the decoder.** -/
theorem decodeFrame_declared (frame : Mem) (n : ℕ) :
    ((decodeFrame frame n n).hasL3 = true → ∃ q, NetworkAt frame 12 q ∧
      (be16 frame (q - 2) = ethertypeIpv4 ∧
          ((be16 frame (q + 2)).toNat ≠ 0 → Contained frame n (q + (be16 frame (q + 2)).toNat)) ∨
        be16 frame (q - 2) = ethertypeIpv6 ∧
          Contained frame n (q + ipv6HdrLen + (be16 frame (q + 4)).toNat))) ∧
      ((decodeFrame frame n n).frag = .none → (decodeFrame frame n n).hasL4 = true →
        (decodeFrame frame n n).ipProto = ipprotoUdp → ∃ h, TransportAt frame ipprotoUdp h ∧
          Unread frame n n (h + (be16 frame (h + 4)).toNat)) ∧
      ((decodeFrame frame n n).gtpV1u = true → ∃ h, TransportAt frame ipprotoUdp h ∧
        (udpHdrLen + gtpuHdrLen + (be16 frame (h + udpHdrLen + 2)).toNat ≤ (be16 frame (h + 4)).toNat →
          Unread frame n n (h + udpHdrLen + gtpuHdrLen + (be16 frame (h + udpHdrLen + 2)).toNat))) := by
  refine ⟨fun hl3 => ?_, fun hfrag hl4 hproto => ?_, fun hv => ?_⟩
  · have hl3' := hl3
    rw [decodeFrame_field PacketInfo.hasL3 fun _ => rfl] at hl3'
    obtain ⟨q, hq, ⟨htype, hroom⟩ | htype⟩ := (decodeOuter_ip (s := frameSpan n n) rfl).result hl3'
    · refine ⟨q, hq, .inl ⟨htype, fun htotal => ?_⟩⟩
      exact contained_of_ipEnd hq (.ipv4 hq htype htotal) (fun _ => htotal) (fun _ => hroom htotal) hl3
    · have hno : be16 frame (q - 2) ≠ ethertypeIpv4 := by
        rw [htype]
        decide
      exact ⟨q, hq, .inr ⟨htype, contained_of_ipEnd hq (.ipv6 hq htype) (fun h => absurd h hno)
        (fun h => absurd h hno) hl3⟩⟩
  · obtain ⟨h, hat, -, hunread⟩ := decodeFrame_udpLength hfrag hl4 hproto
    exact ⟨h, hat, hunread⟩
  · have hgtpu : (decodeFrame frame n n).isGtpu = true := by
      by_contra hno
      have hnone := congrArg PacketInfo.gtpV1u (tunnel_of_noGtpu (Bool.eq_false_iff.mpr hno))
      have hfalse : (decodeFrame frame n n).gtpV1u = false := hnone
      exact absurd (hfalse.symm.trans hv) Bool.false_ne_true
    obtain ⟨hst, hfrag, hport, -⟩ := isGtpu_iff.mp hgtpu
    rw [decodeIsGtpuPort, Bool.and_eq_true, Bool.and_eq_true, decide_eq_true_eq] at hport
    obtain ⟨hat, -⟩ := outerRun_onUdp hst hfrag hport.1.1 hport.1.2
    refine ⟨_, hat, fun _ => unread_of_tunnel hat ?_ decodeTunnel_message⟩
    omega

/-- A G-PDU behind which UDP, IP and Ethernet each have some more bytes. -/
def looseFrame : List UInt8 :=
  [0x02, 0, 0, 0, 0, 0x02, 0x02, 0, 0, 0, 0, 0x01, 0x08, 0x00,
    0x45, 0, 0, 64, 0, 7, 0, 0, 64, 17, 0, 0, 10, 0, 0, 1, 10, 0, 0, 2,
    0x08, 0x68, 0x08, 0x68, 0, 40, 0, 0,
    0x30, 0xFF, 0, 20, 0, 0, 0, 9, 0x45, 0, 0, 20, 0, 0, 0, 0, 64, 59, 0, 0, 10, 9, 0, 1, 10, 9, 0, 2,
    1, 2, 3, 4, 5, 6, 7, 8, 9, 10]

theorem decodeFrame_declared_loose : (decodeFrame (Mem.ofList looseFrame) 80 80).hasInner = true ∧
    Contained (Mem.ofList looseFrame) 80 78 ∧ Unread (Mem.ofList looseFrame) 80 80 74 ∧
    Unread (Mem.ofList looseFrame) 80 80 70 := by
  obtain ⟨hip, hudp, hgtpu⟩ := decodeFrame_declared (Mem.ofList looseFrame) 80
  have hat : TransportAt (Mem.ofList looseFrame) ipprotoUdp 34 := .ipv4 (.type (by decide +kernel)) (by decide +kernel)
  obtain ⟨q, hq, hends⟩ := hip (by decide +kernel)
  obtain ⟨h, hh, hunread⟩ := hudp (by decide +kernel) (by decide +kernel) (by decide +kernel)
  obtain ⟨h', hh', hunread'⟩ := hgtpu (by decide +kernel)
  obtain rfl : q = 14 := hq.unique (.type (by decide +kernel))
  obtain ⟨-, rfl⟩ := hat.unique hh
  obtain ⟨-, rfl⟩ := hat.unique hh'
  refine ⟨by decide +kernel, ?_, hunread, hunread' (by decide +kernel)⟩
  obtain ⟨-, hcontained⟩ | ⟨htype, -⟩ := hends
  · exact hcontained (by decide +kernel)
  · exact absurd htype (by decide +kernel)

end frame

end Pcapstat
