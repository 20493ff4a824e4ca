import Pcapstat.DecodeShape

/-! # Cutting a frame short

The same frame captured twice, with `k` and with `m ≥ k` bytes, is decoded by two runs whose
spans differ in `cap` only.  Each decoder is `CutSafe`: the shorter run does what the longer one
does until it misses bytes, and then it ends with a truncation status.  What it had found by
then (`PacketInfo.Le`) the longer run finds as well. -/

namespace Pcapstat

open SpanWalk SpanWalk.Walk

/-! ### What a run has established -/

namespace PacketInfo

/-- The fields of `Le` alone. -/
def established (pi : PacketInfo) : PacketInfo :=
  { hasL2 := pi.hasL2, hasL3 := pi.hasL3, ipVersion := pi.ipVersion, srcAddr := pi.srcAddr
    dstAddr := pi.dstAddr, gtpV1u := pi.gtpV1u, teid := pi.teid, gtpMsgType := pi.gtpMsgType
    gtpMsgOk := pi.gtpMsgOk, hasInner := pi.hasInner, innerVersion := pi.innerVersion
    innerSrc := pi.innerSrc, innerDst := pi.innerDst, vlanCount := pi.vlanCount }

/-- What `a` says was found, `b` says as well. -/
structure Le (a b : PacketInfo) : Prop where
  l2 : a.hasL2 = true → b.hasL2 = true
  l3 : a.hasL3 = true → b.hasL3 = true ∧ b.ipVersion = a.ipVersion ∧ b.srcAddr = a.srcAddr ∧
    b.dstAddr = a.dstAddr
  v1u : a.gtpV1u = true → b.gtpV1u = true ∧ b.teid = a.teid ∧ b.gtpMsgType = a.gtpMsgType
  msgOk : a.gtpMsgOk = true → b.gtpMsgOk = true
  inner : a.hasInner = true → b.hasInner = true ∧ b.innerVersion = a.innerVersion ∧
    b.innerSrc = a.innerSrc ∧ b.innerDst = a.innerDst
  vlans : a.vlanCount ≤ b.vlanCount

theorem Le.refl (a : PacketInfo) : a.Le a :=
  ⟨id, fun h => ⟨h, rfl, rfl, rfl⟩, fun h => ⟨h, rfl, rfl⟩, id, fun h => ⟨h, rfl, rfl, rfl⟩, le_rfl⟩

theorem Le.trans {a b c : PacketInfo} (h : a.Le b) (h' : b.Le c) : a.Le c where
  l2 ha := h'.l2 (h.l2 ha)
  l3 ha := by
    obtain ⟨hb, hv, hs, hd⟩ := h.l3 ha
    obtain ⟨hc, hv', hs', hd'⟩ := h'.l3 hb
    exact ⟨hc, hv'.trans hv, hs'.trans hs, hd'.trans hd⟩
  v1u ha := by
    obtain ⟨hb, ht, hm⟩ := h.v1u ha
    obtain ⟨hc, ht', hm'⟩ := h'.v1u hb
    exact ⟨hc, ht'.trans ht, hm'.trans hm⟩
  msgOk ha := h'.msgOk (h.msgOk ha)
  inner ha := by
    obtain ⟨hb, hv, hs, hd⟩ := h.inner ha
    obtain ⟨hc, hv', hs', hd'⟩ := h'.inner hb
    exact ⟨hc, hv'.trans hv, hs'.trans hs, hd'.trans hd⟩
  vlans := h.vlans.trans h'.vlans

instance : IsPreorder PacketInfo Le where
  refl := Le.refl
  trans _ _ _ := Le.trans

theorem Le.of_established {a b : PacketInfo} (h : b.established = a.established) : a.Le b := by
  have h' : ∀ {β : Type} (f : PacketInfo → β), (∀ q, f (established q) = f q) → f b = f a :=
    fun f hf => eq_of_erase established f hf h
  constructor
  · rw [h' hasL2 fun _ => rfl]; exact id
  · rw [h' hasL3 fun _ => rfl, h' ipVersion fun _ => rfl, h' srcAddr fun _ => rfl,
      h' dstAddr fun _ => rfl]
    exact fun h => ⟨h, rfl, rfl, rfl⟩
  · rw [h' gtpV1u fun _ => rfl, h' teid fun _ => rfl, h' gtpMsgType fun _ => rfl]
    exact fun h => ⟨h, rfl, rfl⟩
  · rw [h' gtpMsgOk fun _ => rfl]; exact id
  · rw [h' hasInner fun _ => rfl, h' innerVersion fun _ => rfl, h' innerSrc fun _ => rfl,
      h' innerDst fun _ => rfl]
    exact fun h => ⟨h, rfl, rfl, rfl⟩
  · rw [h' vlanCount fun _ => rfl]

end PacketInfo

/-- A reason that blames the capture. -/
def Truncation (st : DecodeStatus) : Prop := decodeStatusIsTruncation st = true

/-- A reason that blames the capture, inside the GTP-U headers. -/
def GtpuTruncation (st : DecodeStatus) : Prop := st = .truncGtpu ∨ st = .truncGtpuExt

theorem GtpuTruncation.truncation : ∀ {st : DecodeStatus}, GtpuTruncation st → Truncation st
  | _, .inl rfl => rfl
  | _, .inr rfl => rfl

/-- A decoder that a cut stops only with a truncation status. -/
abbrev Cuttable {α : Type} (P : PacketInfo → Prop) (x : Decoder α) (R : α → PacketInfo → Prop) :
    Prop :=
  CutSafe Truncation PacketInfo.Le P x R

section cut

variable {P : PacketInfo → Prop}

theorem cutSafe_assign {T : DecodeStatus → Prop} {g : PacketInfo → PacketInfo}
    (hg : ∀ pi, (g pi).established = pi.established) :
    CutSafe T PacketInfo.Le P (modifyOut g : Decoder Unit) fun _ _ => True :=
  .modifyOut fun pi _ => ⟨.of_established (hg pi), trivial⟩

/-! ### Transport layer -/

theorem cuttable_decodeTcp : Cuttable P decodeTcp fun _ _ => True :=
  .bind (.need rfl) fun _ => .bind (cutSafe_be16At 0) fun _ => .bind (cutSafe_be16At 2) fun _ =>
    .bind (.load8 13) fun _ => .bind (cutSafe_assign fun _ => rfl) fun _ => .bind (.load8 12) fun _ =>
      .bind .wireLeft fun _ => .bind .exitIf fun _ => .bind (.requireCap rfl) fun _ =>
        cutSafe_assign fun _ => rfl

theorem cuttable_decodeUdp (frag : FragKind) : Cuttable P (decodeUdp frag) fun _ _ => True :=
  .bind (.need rfl) fun _ => .bind (cutSafe_be16At 0) fun _ => .bind (cutSafe_be16At 2) fun _ =>
    .bind (cutSafe_assign fun _ => rfl) fun _ => .bind (cutSafe_be16At 4) fun _ =>
      .bind .wireLeft fun _ => .bind .exitIf fun _ =>
        .ite (fun _ => .bind (.clip _) fun _ => cutSafe_assign fun _ => rfl)
          fun _ => cutSafe_assign fun _ => rfl

theorem cuttable_decodeIcmp : Cuttable P decodeIcmp fun _ _ => True :=
  .bind (.need rfl) fun _ => .bind (.load8 0) fun _ => .bind (.load8 1) fun _ =>
    cutSafe_assign fun _ => rfl

theorem cuttable_decodeL4 : Cuttable P decodeL4 fun _ _ => True :=
  .bind .getOut fun _ => .ite (fun _ => cuttable_decodeTcp) fun _ =>
    .ite (fun _ => cuttable_decodeUdp _) fun _ => .ite (fun _ => cuttable_decodeIcmp) fun _ =>
      .pure fun _ _ => trivial

/-! ### Network layer -/

/-- No valid IP header yet. -/
def NoL3 (pi : PacketInfo) : Prop := pi.hasL3 = false

theorem PacketInfo.Le.of_noL3 {a b : PacketInfo} (ha : NoL3 a) (h : b.noIp = a.noIp) : a.Le b := by
  have h' : ∀ {β : Type} (f : PacketInfo → β), (∀ q, f (noIp q) = f q) → f b = f a :=
    fun f hf => eq_of_erase noIp f hf h
  refine ⟨?_, fun h => absurd (ha.symm.trans h) Bool.false_ne_true, ?_, ?_, ?_, ?_⟩
  · rw [h' hasL2 fun _ => rfl]; exact id
  · rw [h' gtpV1u fun _ => rfl, h' teid fun _ => rfl, h' gtpMsgType fun _ => rfl]
    exact fun h => ⟨h, rfl, rfl⟩
  · rw [h' gtpMsgOk fun _ => rfl]; exact id
  · rw [h' hasInner fun _ => rfl, h' innerVersion fun _ => rfl, h' innerSrc fun _ => rfl,
      h' innerDst fun _ => rfl]
    exact fun h => ⟨h, rfl, rfl, rfl⟩
  · rw [h' vlanCount fun _ => rfl]

theorem cutSafe_setIp {T : DecodeStatus → Prop} {g : PacketInfo → PacketInfo}
    (hg : ∀ pi, (g pi).noIp = pi.noIp) :
    CutSafe T PacketInfo.Le NoL3 (modifyOut g : Decoder Unit) fun _ _ => True :=
  .modifyOut fun pi h => ⟨.of_noL3 h (hg pi), trivial⟩

theorem cuttable_decodeIpv4Header : Cuttable NoL3 decodeIpv4Header fun _ _ => True :=
  .bind (.need rfl) fun _ => .bind (.load8 0) fun _ => .bind .exitIf fun _ => .bind .exitIf fun _ =>
    .bind (cutSafe_be16At 2) fun _ => .bind .wireLeft fun _ => .bind .exitIf fun _ =>
      .bind (.requireCap rfl) fun _ => .bind (.load8 9) fun _ => .bind (.loadBytes 12 4) fun _ =>
        .bind (.loadBytes 16 4) fun _ => .bind (cutSafe_be16At 4) fun _ =>
          .bind (cutSafe_be16At 6) fun _ =>
            .bind (cutSafe_setIp fun _ => rfl) fun _ =>
              .bind (.clip _) fun _ => .advance _

theorem cuttable_decodeIpv4 : Cuttable NoL3 decodeIpv4 fun _ _ => True :=
  .bind cuttable_decodeIpv4Header fun _ => .bind .getOut fun _ =>
    .ite (fun _ => .pure fun _ _ => trivial) fun _ =>
      cuttable_decodeL4

theorem cuttable_decodeUpper (next : UInt8) : Cuttable P (decodeUpper next) fun _ _ => True :=
  .bind (cutSafe_assign fun _ => rfl) fun _ => cuttable_decodeL4

theorem cuttable_decodeIpv6Chain : ∀ (left : ℕ) (next : UInt8) {P : PacketInfo → Prop},
    Cuttable P (decodeIpv6Chain left next) fun _ _ => True
  | 0, next, _ => .ite (fun _ => .fail _) fun _ => cuttable_decodeUpper next
  | left + 1, next, _ =>
      .ite
        (fun _ => .ite
          (fun _ => .bind (.need rfl) fun _ => .bind (cutSafe_be16At 2) fun _ =>
            .bind (cutSafe_be32At 4) fun _ => .bind (cutSafe_assign fun _ => rfl) fun _ =>
              .bind (.load8 0) fun _ => .bind (.advance _) fun _ => .bind .getOut fun _ =>
                .ite (fun _ => cutSafe_assign fun _ => rfl) fun _ => cuttable_decodeIpv6Chain left _)
          fun _ => .bind (.need rfl) fun _ => .bind (.load8 1) fun _ => .bind (.need rfl) fun _ =>
            .bind (.load8 0) fun _ => .bind (.advance _) fun _ => cuttable_decodeIpv6Chain left _)
        fun _ => cuttable_decodeUpper next

theorem cuttable_decodeIpv6Header : Cuttable NoL3 decodeIpv6Header fun _ _ => True :=
  .bind (.need rfl) fun _ => .bind (.load8 0) fun _ => .bind .exitIf fun _ =>
    .bind (cutSafe_be16At 4) fun _ => .bind (.wireMinus _) fun _ => .bind .exitIf fun _ =>
      .bind (.load8 6) fun _ => .bind (.loadBytes 8 16) fun _ => .bind (.loadBytes 24 16) fun _ =>
        .bind (cutSafe_setIp fun _ => rfl) fun _ =>
          .bind (.advance _) fun _ => .bind (.clip _) fun _ =>
            .pure fun _ _ => trivial

theorem cuttable_decodeIpv6 : Cuttable NoL3 decodeIpv6 fun _ _ => True :=
  .bind cuttable_decodeIpv6Header fun next => cuttable_decodeIpv6Chain _ next

/-! ### Frame -/

theorem cuttable_decodeVlans : ∀ (left : ℕ) (type : UInt16),
    Cuttable NoL3 (decodeVlans left type) fun _ => NoL3
  | 0, _ => .ite (fun _ => .fail _) fun _ => .pure fun _ h => h
  | left + 1, _ =>
      .ite
        (fun _ => .bind (.need rfl) fun _ => .bind (cutSafe_be16At 0) fun _ =>
          .bind (.modifyOut fun pi h => ⟨⟨id, fun h => ⟨h, rfl, rfl, rfl⟩, fun h => ⟨h, rfl, rfl⟩, id,
            fun h => ⟨h, rfl, rfl, rfl⟩, Nat.le_succ pi.vlanCount⟩, h⟩) fun _ =>
            .bind (cutSafe_be16At 2) fun _ => .bind (.advance _) fun _ => cuttable_decodeVlans left _)
        fun _ => .pure fun _ h => h

theorem cuttable_decodeL2 : Cuttable NoL3 decodeL2 fun _ => NoL3 :=
  .bind (.need rfl) fun _ => .bind (cutSafe_be16At 12) fun _ => .bind (.advance _) fun _ =>
    .bind (cuttable_decodeVlans _ _) fun _ =>
      .bind (.modifyOut fun _ h => ⟨⟨fun _ => rfl, fun h => ⟨h, rfl, rfl, rfl⟩, fun h => ⟨h, rfl, rfl⟩, id,
        fun h => ⟨h, rfl, rfl, rfl⟩, le_rfl⟩, h⟩) fun _ =>
        .pure fun _ h => h

theorem cuttable_decodeOuter : Cuttable NoL3 decodeOuter fun _ _ => True :=
  .bind cuttable_decodeL2 fun _ => .ite (fun _ => cuttable_decodeIpv4) fun _ =>
    .ite (fun _ => cuttable_decodeIpv6) fun _ =>
      .pure fun _ _ => trivial

/-! ### GTP-U -/

/-- The GTP-U header has been read, and the user packet has not. -/
structure AfterHeader (pi : PacketInfo) : Prop where
  v1u : pi.gtpV1u = true
  inner : pi.hasInner = false

/-- Nothing of the GTP-U message has been read. -/
structure NoTunnel (pi : PacketInfo) : Prop where
  v1u : pi.gtpV1u = false
  msgOk : pi.gtpMsgOk = false
  inner : pi.hasInner = false

theorem OuterShape.noTunnel {st : DecodeStatus} {pi : PacketInfo} (h : OuterShape st pi) : NoTunnel pi :=
  ⟨congrArg PacketInfo.gtpV1u h.tunnel, congrArg PacketInfo.gtpMsgOk h.tunnel,
    congrArg PacketInfo.hasInner h.tunnel⟩

theorem OuterShape.gtpStatus {st : DecodeStatus} {pi : PacketInfo} (h : OuterShape st pi) :
    pi.gtpStatus = .ok := congrArg PacketInfo.gtpStatus h.tunnel

theorem cutSafe_decodeGtpuOpt (flags : UInt8) :
    CutSafe GtpuTruncation PacketInfo.Le AfterHeader (decodeGtpuOpt flags) fun _ => AfterHeader :=
  have rest : ∀ next, CutSafe GtpuTruncation PacketInfo.Le AfterHeader
      (advance gtpuOptLen >>= fun _ => pure next : Decoder UInt8) fun _ => AfterHeader :=
    fun _ => .bind (.advance _) fun _ => .pure fun _ h => h
  have body : CutSafe GtpuTruncation PacketInfo.Le AfterHeader
      (if flags &&& gtpuFlagE ≠ 0 then load8 3 >>= fun next => advance gtpuOptLen >>= fun _ => pure next
        else pure 0 >>= fun next => advance gtpuOptLen >>= fun _ => pure next : Decoder UInt8)
      fun _ => AfterHeader :=
    .ite (fun _ => .bind (.load8 3) rest) fun _ => .bind (.pure fun _ h => h) rest
  .ite
    (fun _ => .bind (.need (.inl rfl)) fun _ =>
      .ite
        (fun _ => .bind (cutSafe_be16At 0) fun _ =>
          .bind (.modifyOut fun _ h => ⟨.of_established rfl, h.v1u, h.inner⟩) fun _ => body)
        fun _ => body)
    fun _ => .pure fun _ h => h

theorem cutSafe_decodeGtpuExts : ∀ (left hops : ℕ) (next : UInt8),
    CutSafe GtpuTruncation PacketInfo.Le AfterHeader (decodeGtpuExts left hops next) fun _ => AfterHeader
  | 0, _, _ => .exitIf
  | left + 1, hops, _ =>
      .ite (fun _ => .pure fun _ h => h) fun _ =>
        .bind (.need (.inr rfl)) fun _ => .bind (.load8 0) fun _ => .bind .exitIf fun _ =>
          .bind (.need (.inr rfl)) fun _ => .bind (.load8 _) fun _ => .bind (.advance _) fun _ =>
            .bind (.modifyOut fun _ h => ⟨.of_established rfl, h.v1u, h.inner⟩) fun _ =>
              cutSafe_decodeGtpuExts left (hops + 1) _

theorem cutSafe_decodeGtpuHeaders :
    CutSafe GtpuTruncation PacketInfo.Le NoTunnel decodeGtpuHeaders
      fun userPacket pi => userPacket = true → AfterHeader pi :=
  .bind (.need (.inl rfl)) fun _ => .bind (.load8 0) fun _ =>
    .ite (fun _ => .pure fun _ _ h => absurd h Bool.false_ne_true) fun _ =>
      .bind (.load8 1) fun _ => .bind (cutSafe_be16At 2) fun _ => .bind (cutSafe_be32At 4) fun _ =>
        .bind (R := fun _ => AfterHeader)
          (.modifyOut fun _ h => ⟨⟨id, fun h => ⟨h, rfl, rfl, rfl⟩,
            fun h' => absurd (h.v1u.symm.trans h') Bool.false_ne_true, id, fun h => ⟨h, rfl, rfl, rfl⟩,
            le_rfl⟩, rfl, h.inner⟩) fun _ =>
          .bind (.wireMinus _) fun _ => .bind .exitIf fun _ => .bind (.advance _) fun _ =>
            .bind (.clip _) fun _ => .bind (cutSafe_decodeGtpuOpt _) fun _ =>
              .bind (cutSafe_decodeGtpuExts _ 0 _) fun _ =>
                .bind (R := fun _ => AfterHeader)
                  (.modifyOut fun _ h => ⟨⟨id, fun h => ⟨h, rfl, rfl, rfl⟩, fun h => ⟨h, rfl, rfl⟩,
                    fun _ => rfl, fun h => ⟨h, rfl, rfl, rfl⟩, le_rfl⟩, h.v1u, h.inner⟩) fun _ =>
                  .pure fun _ h _ => h

/-- The user packet of the shorter run says no more than that of the longer one. -/
theorem PacketInfo.Le.setInner {pi a b : PacketInfo} (hpi : pi.hasInner = false) (h : a.Le b) :
    (pi.setInner a).Le (pi.setInner b) where
  l2 := id
  l3 h := ⟨h, rfl, rfl, rfl⟩
  v1u h := ⟨h, rfl, rfl⟩
  msgOk := id
  inner ha := by
    have ha : a.hasL3 = true := by simpa [PacketInfo.setInner, hpi] using ha
    obtain ⟨hb, hv, hs, hd⟩ := h.l3 ha
    simp [PacketInfo.setInner, ha, hb, hv, hs, hd]
  vlans := le_rfl

theorem PacketInfo.Le.to_setInner {pi : PacketInfo} (hpi : pi.hasInner = false) (inn : PacketInfo) :
    pi.Le (pi.setInner inn) where
  l2 := id
  l3 h := ⟨h, rfl, rfl, rfl⟩
  v1u h := ⟨h, rfl, rfl⟩
  msgOk := id
  inner h := absurd (hpi.symm.trans h) Bool.false_ne_true
  vlans := le_rfl

theorem Truncation.ne_ok {st : DecodeStatus} (h : Truncation st) : st ≠ .ok := by
  rintro rfl
  exact absurd h Bool.false_ne_true

theorem Truncation.userStatus_eq {st : DecodeStatus} (h : Truncation st) : userStatus st = st := by
  apply if_neg
  rintro rfl
  exact absurd h Bool.false_ne_true

theorem cuttable_decodeGtpuInner : Cuttable AfterHeader decodeGtpuInner fun _ _ => True := by
  refine .bind (.need rfl) fun _ => .bind (.load8 0) fun b => .bind .exitIf fun _ => ?_
  have hip : Cuttable NoL3 (if b >>> 4 = 4 then decodeIpv4 else decodeIpv6) fun _ _ => True :=
    .ite (fun _ => cuttable_decodeIpv4) fun _ => cuttable_decodeIpv6
  refine .scratch_bind hip rfl (fun r => ?_) fun m s₁ s₂ pi e inn r hpi he hle => ?_
  · exact .bind (.modifyOut fun pi h => ⟨.to_setInner h.inner r.2, trivial⟩) fun _ => .exitIf
  · have hres : ((exitWith (userStatus e)).run m s₁ (pi.setInner inn)).res = .error e := by
      simp [exitWith, exitIf, he.userStatus_eq, he.ne_ok]
    exact ⟨e, hres, he, PacketInfo.Le.setInner hpi.inner hle⟩

theorem cuttable_decodeGtpu : Cuttable NoTunnel decodeGtpu fun _ _ => True :=
  .bind (cutSafe_decodeGtpuHeaders.conseq (fun _ => GtpuTruncation.truncation) (fun _ h => h) fun _ _ h => h)
    fun _ => .ite (fun hb => cuttable_decodeGtpuInner.conseq (fun _ h => h) (fun _ h => h hb) fun _ _ h => h)
      fun _ => .pure fun _ _ => trivial

end cut

/-! ### Whole frames -/

/-- How the result `A` of a cut capture relates to the result `B` of a longer one. -/
inductive FrameCut : PacketInfo → PacketInfo → Prop where
  /-- the cut was not noticed -/
  | same {A : PacketInfo} : FrameCut A A
  /-- the cut fell into the user packet -/
  | user {A B : PacketInfo} : Truncation A.gtpStatus → A.gtpV1u = true → A.noUser = B.noUser →
      A.Le B → FrameCut A B
  /-- the cut fell into the GTP-U headers -/
  | gtpu {A B : PacketInfo} : GtpuTruncation A.gtpStatus → A.envelope = B.envelope → A.Le B →
      FrameCut A B
  /-- the cut fell into the outer packet -/
  | outer {A B : PacketInfo} : Truncation A.status → A.gtpStatus = .ok → A.Le B → FrameCut A B

theorem FrameCut.le {A B : PacketInfo} (h : FrameCut A B) : A.Le B := by
  cases h with
  | same => exact .refl A
  | user _ _ _ h => exact h
  | gtpu _ _ h => exact h
  | outer _ _ h => exact h

section frame

variable {m : Mem} {s s₁ s₂ : Span} {pi : PacketInfo}

/-- What `decode_frame` makes of a run of `decodeGtpu`. -/
def tunnelResult (r : Ran PacketInfo DecodeStatus Unit) : PacketInfo :=
  { r.out with gtpStatus := .ofRes r.res }

theorem Le_tunnelResult (r : Ran PacketInfo DecodeStatus Unit) : r.out.Le (tunnelResult r) :=
  .of_established rfl

theorem tunnelResult_Le (r : Ran PacketInfo DecodeStatus Unit) : (tunnelResult r).Le r.out :=
  .of_established rfl

theorem gtpu_cut (h : NoTunnel pi) (hs : s₁.Cut s₂)
    (henv : (decodeGtpu.run m s₁ pi).out.envelope = (decodeGtpu.run m s₂ pi).out.envelope) :
    FrameCut (tunnelResult (decodeGtpu.run m s₁ pi)) (tunnelResult (decodeGtpu.run m s₂ pi)) := by
  rcases cuttable_decodeGtpu.cut m s₁ s₂ pi h hs with h' | ⟨e, he, hT, hL⟩
  · simp only [tunnelResult, h'.res, h'.out]
    exact .same
  have hle := (tunnelResult_Le _).trans (hL.trans (Le_tunnelResult _))
  have hst : (tunnelResult (decodeGtpu.run m s₁ pi)).gtpStatus = e := by simp only [tunnelResult, he]; rfl
  have hrun : ∀ s, decodeGtpu.run m s pi = andThen (decodeGtpuHeaders.run m s pi)
      (fun b => if b then decodeGtpuInner else pure ()) m := fun _ => rfl
  rcases cutSafe_decodeGtpuHeaders.cut m s₁ s₂ pi h hs with h' | ⟨e', he', hT', -⟩
  · cases hr : (decodeGtpuHeaders.run m s₂ pi).res with
    | error e' =>
        rw [hrun, hrun, andThen_error hr, andThen_error (h'.res.trans hr), h'.out]
        exact .same
    | ok b =>
        cases b with
        | false =>
            rw [hrun, andThen_ok (h'.res.trans hr)] at he
            exact absurd he (by simp [Pure.pure, Walk.pure])
        | true =>
            have hq := cutSafe_decodeGtpuHeaders.post h (h'.res.trans hr) rfl
            have huser : ∀ (s : Span) (pi : PacketInfo),
                (decodeGtpuInner.run m s pi).out.noUser = pi.noUser :=
              fun s pi => (@decodeGtpuInner_shape m s pi).result.frame
            have hv : (decodeGtpu.run m s₁ pi).out.gtpV1u = true := by
              rw [hrun, andThen_ok (h'.res.trans hr)]
              exact (PacketInfo.eq_of_erase PacketInfo.noUser PacketInfo.gtpV1u (fun _ => rfl)
                (huser _ _)).trans hq.v1u
            have hno : (decodeGtpu.run m s₁ pi).out.noUser = (decodeGtpu.run m s₂ pi).out.noUser := by
              rw [hrun, hrun, andThen_ok (h'.res.trans hr), andThen_ok hr]
              exact (huser _ _).trans ((congrArg PacketInfo.noUser h'.out).trans (huser _ _).symm)
            exact .user (hst ▸ hT) hv hno hle
  · have hee : e = e' := by
      rw [hrun, andThen_error he'] at he
      exact (Except.error.inj he).symm
    exact .gtpu (hst.trans hee ▸ hT') henv hle

/-- When `decodeTunnel` decodes the datagram. -/
def TunnelCond (s : Span) (pi : PacketInfo) : Prop :=
  pi.status = .ok ∧ pi.frag = .none ∧ decodeIsGtpuPort pi ∧ s.wire ≥ udpHdrLen + gtpuHdrLen

instance (s : Span) (pi : PacketInfo) : Decidable (TunnelCond s pi) := inferInstanceAs (Decidable (_ ∧ _))

/-- `decodeGtpu` as `decodeTunnel` calls it. -/
def gtpuRun (m : Mem) (s : Span) (pi : PacketInfo) : Ran PacketInfo DecodeStatus Unit :=
  decodeGtpu.run m ⟨s.p + udpHdrLen, s.cap - udpHdrLen, s.wire - udpHdrLen⟩ { pi with isGtpu := true }

theorem decodeTunnel_out (m : Mem) (s : Span) (pi : PacketInfo) :
    (decodeTunnel.run m s pi).out =
      if TunnelCond s pi then tunnelResult (gtpuRun m s pi) else pi := by
  have h : wp (fun _ => True) m decodeTunnel
      (fun _ _ pi' => pi' = if TunnelCond s pi then tunnelResult (gtpuRun m s pi) else pi)
      (fun _ _ _ => False) s pi := by
    simp only [decodeTunnel, wp_bind, wp_getOut, wp_wireLeft, wp_ite, wp_modifyOut, wp_advance,
      wp_attempt, wp_pure, true_and]
    refine ⟨fun hc => ?_, fun hc => (if_neg hc).symm⟩
    rw [if_pos (show TunnelCond s pi from hc), tunnelResult]
    refine wp_top_iff.mpr ⟨fun a ha => ?_, fun e he => ?_⟩
    · rw [show (gtpuRun m s pi).res = .ok a from ha]
      rfl
    · rw [show (gtpuRun m s pi).res = .error e from he]
      rfl
  obtain ⟨hok, herr⟩ := wp_top_iff.mp h
  cases hr : (decodeTunnel.run m s pi).res with
  | ok a => exact hok a hr
  | error e => exact (herr e hr).elim

theorem gtpuRun_envelope (h : NoTunnel pi) (hc : TunnelCond s pi) :
    (gtpuRun m s pi).out.envelope = { pi with isGtpu := true }.envelope :=
  (@decodeGtpu_shape m ⟨s.p + udpHdrLen, s.cap - udpHdrLen, s.wire - udpHdrLen⟩
    { pi with isGtpu := true } (Nat.le_sub_of_add_le' hc.2.2.2) h.v1u h.msgOk).result.frame

theorem decodeTunnel_grow (h : NoTunnel pi) : pi.Le (decodeTunnel.run m s pi).out := by
  rw [decodeTunnel_out]
  split_ifs with hc
  · have hstart : pi.Le { pi with isGtpu := true } := .of_established rfl
    have hle : PacketInfo.Le { pi with isGtpu := true } (gtpuRun m s pi).out :=
      cuttable_decodeGtpu.le m _ ⟨h.v1u, h.msgOk, h.inner⟩
    exact hstart.trans (hle.trans (Le_tunnelResult _))
  · exact .refl pi

theorem decodeTunnel_cut (h : NoTunnel pi) (hs : s₁.Cut s₂) :
    FrameCut (decodeTunnel.run m s₁ pi).out (decodeTunnel.run m s₂ pi).out := by
  rw [decodeTunnel_out, decodeTunnel_out]
  by_cases hc₁ : TunnelCond s₁ pi
  · have hc₂ : TunnelCond s₂ pi := ⟨hc₁.1, hc₁.2.1, hc₁.2.2.1, hs.wire ▸ hc₁.2.2.2⟩
    rw [if_pos hc₁, if_pos hc₂]
    refine gtpu_cut ⟨h.v1u, h.msgOk, h.inner⟩ ?_
      ((gtpuRun_envelope h hc₁).trans (gtpuRun_envelope h hc₂).symm)
    exact ⟨congrArg (· + udpHdrLen) hs.p, congrArg (· - udpHdrLen) hs.wire,
      Nat.sub_le_sub_right hs.cap udpHdrLen, Nat.sub_le_sub_right hs.room udpHdrLen⟩
  · have hc₂ : ¬ TunnelCond s₂ pi :=
      fun hc₂ => hc₁ ⟨hc₂.1, hc₂.2.1, hc₂.2.2.1, hs.wire ▸ hc₂.2.2.2⟩
    rw [if_neg hc₁, if_neg hc₂]
    exact .same

/-- The status of a run of `decodeOuter`, recorded. -/
def outerResult (r : Ran PacketInfo DecodeStatus Unit) : PacketInfo :=
  { r.out with status := .ofRes r.res }

theorem decodeFrame_eq (frame : Mem) (caplen wirelen : ℕ) :
    decodeFrame frame caplen wirelen =
      (decodeTunnel.run frame (decodeOuter.run frame (frameSpan caplen wirelen) {}).s
        (outerResult (decodeOuter.run frame (frameSpan caplen wirelen) {}))).out := rfl

theorem outerResult_noTunnel (frame : Mem) (s : Span) :
    NoTunnel (outerResult (decodeOuter.run frame s {})) := by
  obtain ⟨hv, hok, hinner⟩ := (decodeOuter_shape (m := frame) (s := s)).result.noTunnel
  exact ⟨hv, hok, hinner⟩

theorem decodeFrame_cut {frame : Mem} {k m w : ℕ} (hkm : k ≤ m) (hmw : m ≤ w) :
    FrameCut (decodeFrame frame k w) (decodeFrame frame m w) := by
  have hs : (frameSpan k w).Cut (frameSpan m w) := by
    refine ⟨rfl, ?_, hkm, ?_⟩ <;> simp only [frameSpan] <;> split_ifs <;> omega
  rw [decodeFrame_eq, decodeFrame_eq]
  have hno := fun k => outerResult_noTunnel frame (frameSpan k w)
  rcases cuttable_decodeOuter.cut frame _ _ {} rfl hs with h | ⟨e, he, hT, hL⟩
  · have hpi : outerResult (decodeOuter.run frame (frameSpan k w) {}) =
        outerResult (decodeOuter.run frame (frameSpan m w) {}) := by simp only [outerResult, h.res, h.out]
    rw [hpi]
    exact decodeTunnel_cut (hno m) h.s
  · have hst : (outerResult (decodeOuter.run frame (frameSpan k w) {})).status = e := by
      simp only [outerResult, he]; rfl
    have hc : ¬ TunnelCond (decodeOuter.run frame (frameSpan k w) {}).s
        (outerResult (decodeOuter.run frame (frameSpan k w) {})) :=
      fun hc => hT.ne_ok (hst.symm.trans hc.1)
    have hgtp : (outerResult (decodeOuter.run frame (frameSpan k w) {})).gtpStatus = .ok :=
      (decodeOuter_shape (m := frame) (s := frameSpan k w)).result.gtpStatus
    have hgrow := decodeTunnel_grow (m := frame)
      (s := (decodeOuter.run frame (frameSpan m w) {}).s) (hno m)
    rw [decodeTunnel_out frame _ (outerResult (decodeOuter.run frame (frameSpan k w) {})), if_neg hc]
    refine .outer (hst ▸ hT) hgtp ?_
    have h₁ : (outerResult (decodeOuter.run frame (frameSpan k w) {})).Le
        (decodeOuter.run frame (frameSpan k w) {}).out := .of_established rfl
    have h₂ : (decodeOuter.run frame (frameSpan m w) {}).out.Le
        (outerResult (decodeOuter.run frame (frameSpan m w) {})) := .of_established rfl
    exact h₁.trans (hL.trans (h₂.trans hgrow))

end frame

/-! ### Main result -/

theorem FrameCut.outer_eq {A B : PacketInfo} (h : FrameCut A B)
    (hA : decodeStatusIsTruncation A.status = false) : A.envelope = B.envelope := by
  cases h with
  | same => rfl
  | user _ _ h _ => exact PacketInfo.eq_of_erase PacketInfo.noUser PacketInfo.envelope (fun _ => rfl) h
  | gtpu _ h _ => exact h
  | outer h _ _ => exact absurd (h.symm.trans hA) Bool.noConfusion

theorem FrameCut.eq {A B : PacketInfo} (h : FrameCut A B)
    (hA : decodeStatusIsTruncation A.status = false)
    (hA' : decodeStatusIsTruncation A.gtpStatus = false) : A = B := by
  cases h with
  | same => rfl
  | user h _ _ _ => exact absurd (h.symm.trans hA') Bool.noConfusion
  | gtpu h _ _ => exact absurd (h.truncation.symm.trans hA') Bool.noConfusion
  | outer h _ _ => exact absurd (h.symm.trans hA) Bool.noConfusion

/-- A prefix of a clean frame is clean or truncated. -/
theorem FrameCut.prefix_clean {A B : PacketInfo} (h : FrameCut A B) (hB : B.status = .ok)
    (hB' : B.gtpStatus = .ok) :
    (A.status = .ok ∨ decodeStatusIsTruncation A.status = true) ∧
      (A.gtpStatus = .ok ∨ decodeStatusIsTruncation A.gtpStatus = true) := by
  have hst : ∀ {q : PacketInfo}, q.envelope = B.envelope → q.status = .ok := fun hq =>
    (PacketInfo.eq_of_erase PacketInfo.envelope PacketInfo.status (fun _ => rfl) hq).trans hB
  cases h with
  | same => exact ⟨.inl hB, .inl hB'⟩
  | user h _ hno _ =>
      exact ⟨.inl (hst (PacketInfo.eq_of_erase PacketInfo.noUser PacketInfo.envelope (fun _ => rfl) hno)),
        .inr h⟩
  | gtpu h henv _ => exact ⟨.inl (hst henv), .inr h.truncation⟩
  | outer h h' _ => exact ⟨.inr h, .inl h'⟩

/-- **A snapshot length never changes a verdict.** -/
theorem decodeFrame_snapshot (F : Mem) :
    (∀ k m w, k ≤ m → m ≤ w →
      let A := decodeFrame F k w
      let B := decodeFrame F m w
      (decodeStatusIsTruncation A.status = false →
        A.status = B.status ∧ A.outer = B.outer ∧ A.isGtpu = B.isGtpu) ∧
      (decodeStatusIsTruncation A.status = false → decodeStatusIsTruncation A.gtpStatus = false →
        A = B) ∧
      (A.hasL2 = true → B.hasL2 = true) ∧
      (A.hasL3 = true → B.hasL3 = true ∧ B.srcAddr = A.srcAddr ∧ B.dstAddr = A.dstAddr) ∧
      (A.gtpV1u = true → B.gtpV1u = true ∧ B.teid = A.teid ∧ B.gtpMsgType = A.gtpMsgType) ∧
      (A.gtpMsgOk = true → B.gtpMsgOk = true ∧ B.teid = A.teid ∧ B.gtpMsgType = A.gtpMsgType) ∧
      (A.hasInner = true → B.hasInner = true ∧ B.innerSrc = A.innerSrc ∧ B.innerDst = A.innerDst) ∧
      A.vlanCount ≤ B.vlanCount) ∧
    ∀ w, (decodeFrame F w w).status = .ok → (decodeFrame F w w).gtpStatus = .ok → ∀ k ≤ w,
      ((decodeFrame F k w).status = .ok ∨ decodeStatusIsTruncation (decodeFrame F k w).status = true) ∧
      ((decodeFrame F k w).gtpStatus = .ok ∨
        decodeStatusIsTruncation (decodeFrame F k w).gtpStatus = true) := by
  refine ⟨fun k m w hkm hmw => ?_, fun w hst hgtp k hk => (decodeFrame_cut hk le_rfl).prefix_clean hst hgtp⟩
  have hcut := @decodeFrame_cut F k m w hkm hmw
  have hle := hcut.le
  refine ⟨fun hA => ?_, hcut.eq, hle.l2, fun h => ?_, hle.v1u, fun h => ?_, fun h => ?_, hle.vlans⟩
  · have henv := hcut.outer_eq hA
    exact ⟨PacketInfo.eq_of_erase PacketInfo.envelope PacketInfo.status (fun _ => rfl) henv,
      PacketInfo.eq_of_erase PacketInfo.envelope PacketInfo.outer (fun _ => rfl) henv,
      PacketInfo.eq_of_erase PacketInfo.envelope PacketInfo.isGtpu (fun _ => rfl) henv⟩
  · obtain ⟨hb, -, hs, hd⟩ := hle.l3 h
    exact ⟨hb, hs, hd⟩
  · exact ⟨hle.msgOk h, (hle.v1u ((decodeFrame_shape F k w).v1u_of_msgOk h)).2⟩
  · obtain ⟨hb, -, hs, hd⟩ := hle.inner h
    exact ⟨hb, hs, hd⟩

/-- An Ethernet frame with a 28-byte IPv4 / UDP packet and 18 bytes of padding. -/
def paddedFrame : List UInt8 :=
  [0x02, 0, 0, 0, 0, 0x02, 0x02, 0, 0, 0, 0, 0x01, 0x08, 0x00,
    0x45, 0, 0, 28, 0, 7, 0, 0, 64, 17, 0, 0, 10, 0, 0, 1, 10, 0, 0, 2,
    0x30, 0x39, 0, 53, 0, 8, 0, 0]

theorem decodeFrame_snapshot_padded :
    decodeFrame (Mem.ofList paddedFrame) 42 60 = decodeFrame (Mem.ofList paddedFrame) 60 60 ∧
      ((decodeFrame (Mem.ofList paddedFrame) 20 60).status = .ok ∨
        decodeStatusIsTruncation (decodeFrame (Mem.ofList paddedFrame) 20 60).status = true) :=
  ⟨((decodeFrame_snapshot (Mem.ofList paddedFrame)).1 42 60 60 (by decide) (by decide)).2.1
      (by decide +kernel) (by decide +kernel),
    ((decodeFrame_snapshot (Mem.ofList paddedFrame)).2 60 (by decide +kernel) (by decide +kernel) 20
      (by decide)).1⟩

end Pcapstat
