import Pcapstat.DecodePlace
import Pcapstat.Verdict

/-! # A decoded frame is coherent

Which layer flags and which GTP-U fields of a finished `packet_info` imply which others.  The counters
and the rules of the two tables rely on these implications; `decodeFrame_coherent` collects them. -/

namespace Pcapstat

open SpanWalk SpanWalk.Walk DecodeStatus

/-! ### The outer packet -/

section outer

variable {pi : PacketInfo} {st : DecodeStatus}

theorem OuterShape.l4_iff (h : OuterShape st pi) : pi.hasL4 = true ↔
    pi.hasL3 = true ∧ st = .ok ∧ pi.frag ≠ .later ∧ isTransport pi.ipProto = true := by
  have hnone : pi.hasL4 = false → pi.hasL3 = false → (pi.hasL4 = true ↔
      pi.hasL3 = true ∧ st = .ok ∧ pi.frag ≠ .later ∧ isTransport pi.ipProto = true) := by
    intro h4 h3
    rw [h4, h3]
    exact ⟨fun h => absurd h Bool.false_ne_true, fun h => absurd h.1 Bool.false_ne_true⟩
  cases h with
  | link _ hpi =>
      exact hnone (congrArg PacketInfo.hasL4 hpi)
        (congrArg PacketInfo.hasL3 hpi)
  | nonIp _ _ hpi =>
      exact hnone (congrArg PacketInfo.hasL4 hpi)
        (congrArg PacketInfo.hasL3 hpi)
  | ip _ hpi hshape =>
      cases hshape with
      | header _ =>
          exact hnone (congrArg PacketInfo.hasL4 hpi)
            (congrArg PacketInfo.hasL3 hpi)
      | upper _ hl3 _ hup =>
          have hl3' : pi.hasL3 = true :=
            (PacketInfo.eq_of_erase PacketInfo.noUpper PacketInfo.hasL3 (fun _ => rfl) hup.frame).trans hl3
          rw [hup.l4, hl3']
          exact (and_iff_right rfl).symm

/-- A valid IP header, and a clean frame, have a link header. -/
theorem OuterShape.hasL2 (h : OuterShape st pi) : (pi.hasL3 = true → pi.hasL2 = true) ∧
    (st = .ok → pi.hasL2 = true) := by
  cases h with
  | link hst hpi =>
      have hl3 : pi.hasL3 = false := congrArg PacketInfo.hasL3 hpi
      refine ⟨fun h => absurd (hl3.symm.trans h) Bool.false_ne_true, fun h => ?_⟩
      rw [h] at hst
      exact absurd hst (by decide)
  | nonIp _ _ hpi =>
      have hl2 : pi.hasL2 = true := congrArg PacketInfo.hasL2 hpi
      exact ⟨fun _ => hl2, fun _ => hl2⟩
  | @ip _ type pi₁ _ _ hpi hshape =>
      have hl2₁ : pi₁.hasL2 = true := congrArg PacketInfo.hasL2 hpi
      have hl2 : pi.hasL2 = true := by
        cases hshape with
        | header _ => exact hl2₁
        | upper hno _ _ hup =>
            have h₁ := PacketInfo.eq_of_erase PacketInfo.noUpper PacketInfo.hasL2 (fun _ => rfl) hup.frame
            have h₂ := PacketInfo.eq_of_erase PacketInfo.noIp PacketInfo.hasL2 (fun _ => rfl) hno
            exact h₁.trans (h₂.trans hl2₁)
      exact ⟨fun _ => hl2, fun _ => hl2⟩

theorem OuterShape.ports (h : OuterShape st pi) : (pi.frag = .later ∨
    (pi.ipProto ≠ ipprotoTcp ∧ pi.ipProto ≠ ipprotoUdp)) → pi.srcPort = 0 ∧ pi.dstPort = 0 := by
  intro hno
  cases h with
  | link _ hpi =>
      exact ⟨congrArg PacketInfo.srcPort hpi,
        congrArg PacketInfo.dstPort hpi⟩
  | nonIp _ _ hpi =>
      exact ⟨congrArg PacketInfo.srcPort hpi,
        congrArg PacketInfo.dstPort hpi⟩
  | ip _ hpi hshape =>
      cases hshape with
      | header _ =>
          exact ⟨congrArg PacketInfo.srcPort hpi,
            congrArg PacketInfo.dstPort hpi⟩
      | upper _ _ _ hup =>
          obtain hl | ⟨htcp, hudp⟩ := hno
          · exact (hup.later hl).2
          · exact hup.ports htcp hudp

end outer

/-- The run of the outer decoder. -/
def outerRun (m : Mem) (caplen wirelen : ℕ) : Ran PacketInfo DecodeStatus Unit :=
  decodeOuter.run m (frameSpan caplen wirelen) {}

theorem outerRun_shape (m : Mem) (caplen wirelen : ℕ) :
    OuterShape (.ofRes (outerRun m caplen wirelen).res) (outerRun m caplen wirelen).out :=
  decodeOuter_shape.result

section frame

variable {m : Mem} {caplen wirelen : ℕ}

/-- The fields of the outer packet are those of the outer decoder. -/
theorem decodeFrame_field {β : Type} (f : PacketInfo → β) (hf : ∀ q, f q.outer = f q) :
    f (decodeFrame m caplen wirelen) = f (outerResult (outerRun m caplen wirelen)) :=
  PacketInfo.eq_of_erase PacketInfo.outer f hf (decodeFrame_outer m caplen wirelen)

theorem decodeFrame_l4_iff : (decodeFrame m caplen wirelen).hasL4 = true ↔
    (decodeFrame m caplen wirelen).hasL3 = true ∧ (decodeFrame m caplen wirelen).status = .ok ∧
      (decodeFrame m caplen wirelen).frag ≠ .later ∧
      isTransport (decodeFrame m caplen wirelen).ipProto = true := by
  rw [decodeFrame_field PacketInfo.hasL4 fun _ => rfl, decodeFrame_field PacketInfo.hasL3 fun _ => rfl,
    decodeFrame_field PacketInfo.status fun _ => rfl, decodeFrame_field PacketInfo.frag fun _ => rfl,
    decodeFrame_field PacketInfo.ipProto fun _ => rfl]
  exact (outerRun_shape m caplen wirelen).l4_iff

theorem decodeFrame_ports (h : (decodeFrame m caplen wirelen).frag = .later ∨
    ((decodeFrame m caplen wirelen).ipProto ≠ ipprotoTcp ∧
      (decodeFrame m caplen wirelen).ipProto ≠ ipprotoUdp)) :
    (decodeFrame m caplen wirelen).srcPort = 0 ∧ (decodeFrame m caplen wirelen).dstPort = 0 := by
  rw [decodeFrame_field PacketInfo.frag fun _ => rfl, decodeFrame_field PacketInfo.ipProto fun _ => rfl] at h
  rw [decodeFrame_field PacketInfo.srcPort fun _ => rfl, decodeFrame_field PacketInfo.dstPort fun _ => rfl]
  exact (outerRun_shape m caplen wirelen).ports h

end frame

/-- The statuses of a frame whose IP header is valid although something behind it is not. -/
def upperProblems : List DecodeStatus := extProblems ++ l4Problems

/-- The outer part of a coherent `packet_info`. -/
structure OuterCoherent (pi : PacketInfo) : Prop where
  l3_of_l4 : pi.hasL4 = true → pi.hasL3 = true
  l2_of_l3 : pi.hasL3 = true → pi.hasL2 = true
  ok_of_l4 : pi.hasL4 = true → pi.status = .ok ∧ pi.frag ≠ .later
  l2_of_ok : pi.status = .ok → pi.hasL2 = true
  l3_of_ok : pi.status = .ok → pi.ethertype = ethertypeIpv4 ∨ pi.ethertype = ethertypeIpv6 → pi.hasL3 = true
  l4_of_ok : pi.status = .ok → pi.hasL3 = true → pi.frag ≠ .later → isTransport pi.ipProto = true →
    pi.hasL4 = true
  problems : pi.status ≠ .ok → (pi.hasL3 = true ↔ pi.status ∈ upperProblems) ∧
    pi.status ∈ earlyProblems ++ upperProblems

theorem early_not_upper : ∀ {st : DecodeStatus}, st ∈ earlyProblems → st ∉ upperProblems ∧ st ≠ .ok := by
  decide

theorem decodeFrame_outerCoherent (m : Mem) (caplen wirelen : ℕ) :
    OuterCoherent (decodeFrame m caplen wirelen) := by
  have hcase := (decodeFrame_shape m caplen wirelen).outerCase
  have hl4 := @decodeFrame_l4_iff m caplen wirelen
  have hl2 := (outerRun_shape m caplen wirelen).hasL2
  have hl2₃ : (decodeFrame m caplen wirelen).hasL3 = true → (decodeFrame m caplen wirelen).hasL2 = true := by
    rw [decodeFrame_field PacketInfo.hasL3 fun _ => rfl, decodeFrame_field PacketInfo.hasL2 fun _ => rfl]
    exact hl2.1
  have hl2ok : (decodeFrame m caplen wirelen).status = .ok → (decodeFrame m caplen wirelen).hasL2 = true := by
    rw [decodeFrame_field PacketInfo.status fun _ => rfl, decodeFrame_field PacketInfo.hasL2 fun _ => rfl]
    exact hl2.2
  generalize decodeFrame m caplen wirelen = pi at *
  refine ⟨fun h => (hl4.mp h).1, hl2₃, fun h => ⟨(hl4.mp h).2.1, (hl4.mp h).2.2.1⟩, hl2ok, ?_, ?_, ?_⟩
  · intro hst htype
    cases hcase with
    | early hearly _ _ => exact absurd hst (early_not_upper hearly).2
    | nonIp _ _ _ h4 h6 => exact (htype.elim h4 h6).elim
    | ip _ hl3 _ _ => exact hl3
  · intro hst hl3 hfrag htrans
    exact hl4.mpr ⟨hl3, hst, hfrag, htrans⟩
  · intro hst
    rw [List.mem_append]
    cases hcase with
    | early hearly hl3 _ =>
        refine ⟨⟨fun h => absurd (hl3.symm.trans h) Bool.false_ne_true, fun h => ?_⟩, .inl hearly⟩
        exact absurd h (early_not_upper hearly).1
    | nonIp hok _ _ _ _ => exact absurd hok hst
    | ip hverdict hl3 _ _ =>
        have hup : pi.status ∈ upperProblems := by
          rw [ipVerdicts, List.cons_append, List.mem_cons] at hverdict
          exact hverdict.resolve_left hst
        exact ⟨⟨fun _ => hup, fun _ => hl3⟩, .inr hup⟩

/-! ### The tunnel -/

section tunnel

variable {m : Mem} {s : Span} {pi : PacketInfo} {caplen wirelen : ℕ}

theorem decodeFrame_tunnel : decodeFrame m caplen wirelen =
    if TunnelCond (outerRun m caplen wirelen).s (outerResult (outerRun m caplen wirelen)) then
      tunnelResult (gtpuRun m (outerRun m caplen wirelen).s (outerResult (outerRun m caplen wirelen)))
    else outerResult (outerRun m caplen wirelen) := by
  rw [decodeFrame_eq, decodeTunnel_out]
  rfl

theorem isGtpu_iff_cond : (decodeFrame m caplen wirelen).isGtpu = true ↔
    TunnelCond (outerRun m caplen wirelen).s (outerResult (outerRun m caplen wirelen)) := by
  have hno := outerResult_noTunnel m (frameSpan caplen wirelen)
  have htun := (outerRun_shape m caplen wirelen).tunnel
  rw [decodeFrame_tunnel]
  by_cases hc : TunnelCond (outerRun m caplen wirelen).s (outerResult (outerRun m caplen wirelen))
  · rw [if_pos hc]
    refine ⟨fun _ => hc, fun _ => ?_⟩
    have henv := gtpuRun_envelope (m := m) hno hc
    exact (PacketInfo.eq_of_erase PacketInfo.envelope PacketInfo.isGtpu (fun _ => rfl) henv).trans rfl
  · rw [if_neg hc]
    refine ⟨fun h => ?_, fun h => absurd h hc⟩
    have hfalse : (outerResult (outerRun m caplen wirelen)).isGtpu = false := congrArg PacketInfo.isGtpu htun
    exact absurd (hfalse.symm.trans h) Bool.false_ne_true

theorem outerRun_onUdp (hst : (decodeFrame m caplen wirelen).status = .ok)
    (hfrag : (decodeFrame m caplen wirelen).frag = .none)
    (hl4 : (decodeFrame m caplen wirelen).hasL4 = true)
    (hproto : (decodeFrame m caplen wirelen).ipProto = ipprotoUdp) :
    TransportAt m ipprotoUdp (outerRun m caplen wirelen).s.p ∧
      OnUdp m (outerRun m caplen wirelen).s (outerRun m caplen wirelen).out := by
  have hl3 := (decodeFrame_l4_iff.mp hl4).1
  rw [decodeFrame_field PacketInfo.status fun _ => rfl] at hst
  rw [decodeFrame_field PacketInfo.frag fun _ => rfl] at hfrag
  rw [decodeFrame_field PacketInfo.hasL3 fun _ => rfl] at hl3
  rw [decodeFrame_field PacketInfo.ipProto fun _ => rfl] at hproto
  have hlater : (outerRun m caplen wirelen).out.frag ≠ .later := by
    intro h
    exact absurd (h.symm.trans hfrag) (by decide)
  obtain ⟨hat, hplaced⟩ := (decodeOuter_placed (m := m) (s := frameSpan caplen wirelen) rfl).result hst hl3 hlater
  have hproto' : (outerRun m caplen wirelen).out.ipProto = ipprotoUdp := hproto
  refine ⟨?_, hplaced.udp hproto' hfrag⟩
  rw [← hproto']
  exact hat

theorem isGtpu_iff : (decodeFrame m caplen wirelen).isGtpu = true ↔
    (decodeFrame m caplen wirelen).status = .ok ∧ (decodeFrame m caplen wirelen).frag = .none ∧
      decodeIsGtpuPort (decodeFrame m caplen wirelen) = true ∧
      ∃ h, TransportAt m ipprotoUdp h ∧ udpHdrLen + gtpuHdrLen ≤ (be16 m (h + 4)).toNat := by
  rw [isGtpu_iff_cond, TunnelCond]
  have hst := @decodeFrame_field m caplen wirelen _ PacketInfo.status fun _ => rfl
  have hfrag := @decodeFrame_field m caplen wirelen _ PacketInfo.frag fun _ => rfl
  have hport := @decodeFrame_field m caplen wirelen _ decodeIsGtpuPort fun _ => rfl
  rw [← hst, ← hfrag, ← hport]
  refine and_congr_right fun hst => and_congr_right fun hfrag => and_congr_right fun hport => ?_
  have hudp : (decodeFrame m caplen wirelen).hasL4 = true ∧
      (decodeFrame m caplen wirelen).ipProto = ipprotoUdp := by
    rw [decodeIsGtpuPort, Bool.and_eq_true, Bool.and_eq_true, decide_eq_true_eq] at hport
    exact hport.1
  obtain ⟨hat, hon⟩ := outerRun_onUdp hst hfrag hudp.1 hudp.2
  rw [hon.wire]
  constructor
  · exact fun hlen => ⟨_, hat, hlen⟩
  · rintro ⟨h, hat', hlen⟩
    obtain ⟨-, rfl⟩ := hat.unique hat'
    exact hlen

/-- Without a GTP-U message no field of one is set. -/
theorem tunnel_of_noGtpu (h : (decodeFrame m caplen wirelen).isGtpu = false) :
    (decodeFrame m caplen wirelen).tunnel = {} := by
  have hc : ¬ TunnelCond (outerRun m caplen wirelen).s (outerResult (outerRun m caplen wirelen)) := by
    rw [← isGtpu_iff_cond, h]
    exact Bool.false_ne_true
  rw [decodeFrame_tunnel, if_neg hc]
  exact (outerRun_shape m caplen wirelen).tunnel

theorem decodeGtpuHeaders_v1u (hv : pi.gtpV1u = false) :
    wp (fun _ => True) m decodeGtpuHeaders
      (fun b _ pi' => pi'.gtpV1u = false → b = false ∧ pi' = pi)
      (fun _ _ pi' => pi'.gtpV1u = false → pi' = pi) s pi := by
  simp only [decodeGtpuHeaders, wp_bind, wp_need, wp_load8, wp_ite, wp_pure, wp_be16At, wp_be32At,
    wp_modifyOut, wp_wireMinus, wp_exitIf, wp_advance, wp_clip, true_and, hv, implies_true, and_true,
    Bool.true_eq_false, false_imp_iff]
  intro _ _ _
  refine wp_mono (decodeGtpuOpt_shape _) (fun next s' pi' h => ?_) fun e s' pi' h hno => ?_
  · obtain ⟨seq, rfl⟩ := h
    refine wp_mono (decodeGtpuExts_shape _ 0 next) (fun _ _ _ h hno => ?_) fun e _ _ h hno => ?_
    · obtain ⟨k, rfl⟩ := h
      exact absurd hno (by simp)
    · obtain ⟨-, k, rfl⟩ := h
      exact absurd hno (by simp)
  · obtain ⟨-, rfl⟩ := h
    exact absurd hno (by simp)

theorem decodeGtpu_v1u (hv : pi.gtpV1u = false) :
    Ends m decodeGtpu (fun _ _ pi' => pi'.gtpV1u = false → pi' = pi) s pi := by
  simp only [decodeGtpu, ends_bind]
  refine wp_mono (decodeGtpuHeaders_v1u hv) (fun b s' pi₁ h => ?_) fun _ _ _ h => h
  simp only [ends_ite, ends_pure]
  refine ⟨fun hb => Ends.mono decodeGtpuInner_shape fun st _ pi' h' hno => ?_, fun _ hno => (h hno).2⟩
  have hv' : pi'.gtpV1u = pi₁.gtpV1u :=
    PacketInfo.eq_of_erase PacketInfo.noUser PacketInfo.gtpV1u (fun _ => rfl) h'.frame
  exact absurd ((h (hv'.symm.trans hno)).1.symm.trans hb) Bool.false_ne_true

theorem PacketInfo.tunnel_message (pi : PacketInfo) {st : DecodeStatus} (h : pi.tunnel = {}) :
    ({ pi with isGtpu := true, gtpStatus := st } : PacketInfo).tunnel =
      { isGtpu := true, gtpStatus := st } :=
  congrArg (fun q : PacketInfo => { q with isGtpu := true, gtpStatus := st }) h

theorem tunnel_of_noV1u (h : (decodeFrame m caplen wirelen).gtpV1u = false) :
    (decodeFrame m caplen wirelen).tunnel =
      { isGtpu := (decodeFrame m caplen wirelen).isGtpu
        gtpStatus := (decodeFrame m caplen wirelen).gtpStatus } := by
  have htun := (outerRun_shape m caplen wirelen).tunnel
  have hno := outerResult_noTunnel m (frameSpan caplen wirelen)
  rw [decodeFrame_tunnel] at h ⊢
  by_cases hc : TunnelCond (outerRun m caplen wirelen).s (outerResult (outerRun m caplen wirelen))
  · rw [if_pos hc] at h ⊢
    have hrun := (@decodeGtpu_v1u m
      ⟨(outerRun m caplen wirelen).s.p + udpHdrLen, (outerRun m caplen wirelen).s.cap - udpHdrLen,
        (outerRun m caplen wirelen).s.wire - udpHdrLen⟩
      { outerResult (outerRun m caplen wirelen) with isGtpu := true } hno.v1u).result h
    have hout : (gtpuRun m (outerRun m caplen wirelen).s (outerResult (outerRun m caplen wirelen))).out =
        { outerResult (outerRun m caplen wirelen) with isGtpu := true } := hrun
    rw [tunnelResult, hout]
    exact PacketInfo.tunnel_message (outerRun m caplen wirelen).out htun
  · rw [if_neg hc] at h ⊢
    have hgtpu : (outerResult (outerRun m caplen wirelen)).isGtpu = false := congrArg PacketInfo.isGtpu htun
    have hst : (outerResult (outerRun m caplen wirelen)).gtpStatus = .ok := congrArg PacketInfo.gtpStatus htun
    rw [hgtpu, hst]
    exact htun

/-! #### The user packet -/

/-- The inner part of a coherent `packet_info`. -/
structure InnerCoherent (pi : PacketInfo) : Prop where
  inner_of_l4 : pi.innerHasL4 = true → pi.hasInner = true
  nested : pi.gtpNested = true → pi.innerHasL4 = true ∧ pi.innerProto = ipprotoUdp ∧
    (pi.innerSrcPort = gtpuPort ∨ pi.innerDstPort = gtpuPort)

theorem IpShape.hasL3 {st : DecodeStatus} {inn : PacketInfo} (h : IpShape {} st inn)
    (hl4 : inn.hasL4 = true) : inn.hasL3 = true := by
  cases h with
  | header _ => exact absurd hl4 Bool.false_ne_true
  | upper _ hl3 _ hup =>
      exact (PacketInfo.eq_of_erase PacketInfo.noUpper PacketInfo.hasL3 (fun _ => rfl) hup.frame).trans hl3

/-- No user packet has been looked at. -/
structure PacketInfo.NoInner (pi : PacketInfo) : Prop where
  hasInner : pi.hasInner = false
  innerHasL4 : pi.innerHasL4 = false
  nested : pi.gtpNested = false

theorem PacketInfo.NoInner.coherent (h : pi.NoInner) : InnerCoherent pi := by
  constructor
  · intro hl4
    exact absurd (h.innerHasL4.symm.trans hl4) Bool.false_ne_true
  · intro hn
    exact absurd (h.nested.symm.trans hn) Bool.false_ne_true

theorem UserShape.coherent {st : DecodeStatus} {pi' : PacketInfo} (h : UserShape pi st pi')
    (hpi : pi.NoInner) : InnerCoherent pi' := by
  cases h with
  | absent _ => exact hpi.coherent
  | @packet _ inn hshape =>
      have hl4 : (pi.setInner inn).innerHasL4 = inn.hasL4 := by
        rw [PacketInfo.setInner, hpi.innerHasL4, Bool.false_or]
      constructor
      · intro h4
        rw [hl4] at h4
        rw [PacketInfo.setInner, hshape.hasL3 h4, Bool.or_true]
      · intro hn
        rw [hl4]
        simp only [PacketInfo.setInner] at hn ⊢
        cases h4 : inn.hasL4 with
        | false =>
            rw [h4, if_neg Bool.false_ne_true, hpi.nested] at hn
            exact absurd hn Bool.false_ne_true
        | true =>
            rw [h4, if_pos rfl, decodeIsGtpuPort, Bool.and_eq_true, Bool.and_eq_true, Bool.or_eq_true,
              decide_eq_true_eq, decide_eq_true_eq, decide_eq_true_eq] at hn
            rw [hshape.hasL3 h4, if_pos rfl, if_pos rfl, if_pos rfl]
            exact ⟨rfl, hn.1.2, hn.2⟩

theorem decodeGtpu_inner (hwire : gtpuHdrLen ≤ s.wire) (hno : NoTunnel pi) (hpi : pi.NoInner) :
    Ends m decodeGtpu (fun _ _ pi' => InnerCoherent pi') s pi := by
  have hkeep : ∀ {q : PacketInfo}, q.noGtpu = pi.noGtpu → q.NoInner := by
    intro q hq
    exact ⟨(PacketInfo.eq_of_erase PacketInfo.noGtpu PacketInfo.hasInner (fun _ => rfl) hq).trans hpi.hasInner,
      (PacketInfo.eq_of_erase PacketInfo.noGtpu PacketInfo.innerHasL4 (fun _ => rfl) hq).trans hpi.innerHasL4,
      (PacketInfo.eq_of_erase PacketInfo.noGtpu PacketInfo.gtpNested (fun _ => rfl) hq).trans hpi.nested⟩
  apply Ends.mono (decodeGtpu_shape hwire hno.v1u hno.msgOk)
  intro st _ pi' h
  cases h with
  | problem h => exact (hkeep h.frame).coherent
  | signal h => exact (hkeep h.frame).coherent
  | gpdu h h' => exact h'.coherent (hkeep h.frame)

theorem decodeFrame_innerCoherent (m : Mem) (caplen wirelen : ℕ) :
    InnerCoherent (decodeFrame m caplen wirelen) := by
  have htun := (outerRun_shape m caplen wirelen).tunnel
  have hno := outerResult_noTunnel m (frameSpan caplen wirelen)
  have hinner : (outerResult (outerRun m caplen wirelen)).NoInner :=
    ⟨congrArg PacketInfo.hasInner htun, congrArg PacketInfo.innerHasL4 htun, congrArg PacketInfo.gtpNested htun⟩
  rw [decodeFrame_tunnel]
  split_ifs with hc
  · have hrun := (@decodeGtpu_inner m
      ⟨(outerRun m caplen wirelen).s.p + udpHdrLen, (outerRun m caplen wirelen).s.cap - udpHdrLen,
        (outerRun m caplen wirelen).s.wire - udpHdrLen⟩
      { outerResult (outerRun m caplen wirelen) with isGtpu := true }
      (Nat.le_sub_of_add_le' hc.2.2.2) ⟨hno.v1u, hno.msgOk, hno.inner⟩
      ⟨hinner.hasInner, hinner.innerHasL4, hinner.nested⟩).result
    exact ⟨hrun.inner_of_l4, hrun.nested⟩
  · exact hinner.coherent

end tunnel

/-- The tunnel part of a coherent `packet_info`. -/
structure TunnelCoherent (m : Mem) (pi : PacketInfo) : Prop where
  isGtpu : pi.isGtpu = true ↔ pi.status = .ok ∧ pi.frag = .none ∧ decodeIsGtpuPort pi = true ∧
    ∃ h, TransportAt m ipprotoUdp h ∧ udpHdrLen + gtpuHdrLen ≤ (be16 m (h + 4)).toNat
  noGtpu : pi.isGtpu = false → pi.tunnel = {}
  noV1u : pi.gtpV1u = false → pi.tunnel = { isGtpu := pi.isGtpu, gtpStatus := pi.gtpStatus }
  msgOk : pi.gtpMsgOk = true ↔ pi.gtpV1u = true ∧ pi.gtpStatus ∉ gtpuProblems
  inner : pi.hasInner = true → pi.gtpMsgOk = true ∧ pi.gtpMsgType = gtpuMsgGpdu ∧
    (pi.innerVersion = 4 ∨ pi.innerVersion = 6)
  clean : pi.gtpV1u = true → pi.gtpStatus = .ok → pi.gtpMsgType = gtpuMsgGpdu → pi.hasInner = true
  user : InnerCoherent pi

theorem earlyInner_not_problem : ∀ {st : DecodeStatus}, st ∈ earlyInnerProblems →
    st ∉ gtpuProblems ∧ st ≠ .ok := by
  decide

theorem ipVerdict_not_problem : ∀ {st : DecodeStatus}, st ∈ ipVerdicts → st ∉ gtpuProblems := by decide

theorem gtpuProblem_ne_ok : ∀ {st : DecodeStatus}, st ∈ gtpuProblems → st ≠ .ok := by decide

theorem decodeFrame_tunnelCoherent (m : Mem) (caplen wirelen : ℕ) :
    TunnelCoherent m (decodeFrame m caplen wirelen) := by
  have hcase := (decodeFrame_shape m caplen wirelen).gtpuCase
  have hno := @tunnel_of_noGtpu m caplen wirelen
  refine ⟨isGtpu_iff, hno, tunnel_of_noV1u, ?_, ?_, ?_, decodeFrame_innerCoherent m caplen wirelen⟩
  all_goals generalize decodeFrame m caplen wirelen = pi at *
  · cases hcase with
    | absent hg hmsg =>
        have hv : pi.gtpV1u = false := congrArg PacketInfo.gtpV1u (hno hg)
        rw [hmsg, hv]
        exact ⟨fun h => absurd h Bool.false_ne_true, fun h => absurd h.1 Bool.false_ne_true⟩
    | problem _ hst hmsg _ _ =>
        rw [hmsg]
        exact ⟨fun h => absurd h Bool.false_ne_true, fun h => absurd hst h.2⟩
    | signal _ hst hmsg _ _ =>
        rw [hmsg, hst]
        exact ⟨fun h => ⟨h, by decide⟩, fun h => h.1⟩
    | noUser _ hst hmsg hv _ _ =>
        rw [hmsg, hv]
        exact ⟨fun _ => ⟨rfl, (earlyInner_not_problem hst).1⟩, fun _ => rfl⟩
    | user _ hst hmsg hv _ _ _ =>
        rw [hmsg, hv]
        exact ⟨fun _ => ⟨rfl, ipVerdict_not_problem hst⟩, fun _ => rfl⟩
  · intro hin
    cases hcase with
    | absent hg _ =>
        have hin' : pi.hasInner = false := congrArg PacketInfo.hasInner (hno hg)
        exact absurd (hin'.symm.trans hin) Bool.false_ne_true
    | problem _ _ _ hin' _ => exact absurd (hin'.symm.trans hin) Bool.false_ne_true
    | signal _ _ _ hin' _ => exact absurd (hin'.symm.trans hin) Bool.false_ne_true
    | noUser _ _ _ _ _ hin' => exact absurd (hin'.symm.trans hin) Bool.false_ne_true
    | user _ _ hmsg _ htype _ hver => exact ⟨hmsg, htype, hver⟩
  · intro hv hst htype
    cases hcase with
    | absent hg _ =>
        have hv' : pi.gtpV1u = false := congrArg PacketInfo.gtpV1u (hno hg)
        exact absurd (hv'.symm.trans hv) Bool.false_ne_true
    | problem _ hbad _ _ _ => exact absurd hst (gtpuProblem_ne_ok hbad)
    | signal _ _ _ _ hsig => exact absurd ⟨hv, htype⟩ hsig
    | noUser _ hbad _ _ _ _ => exact absurd hst (earlyInner_not_problem hbad).2
    | user _ _ _ _ _ hin _ => exact hin

/-- **A decoded frame is coherent.** -/
theorem decodeFrame_coherent (m : Mem) (caplen wirelen : ℕ) :
    OuterCoherent (decodeFrame m caplen wirelen) ∧ TunnelCoherent m (decodeFrame m caplen wirelen) :=
  ⟨decodeFrame_outerCoherent m caplen wirelen, decodeFrame_tunnelCoherent m caplen wirelen⟩

end Pcapstat
