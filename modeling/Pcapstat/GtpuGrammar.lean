import Pcapstat.Coherence
import Pcapstat.DecodeBounds
import Pcapstat.DecodeFull
import Pcapstat.GtpuMessage

/-! # `decode_gtpu` accepts the grammar

Followed over a payload that is a message, or that has a defect, the decoder does one thing only
(`decodeGtpu_message`, `decodeGtpu_defect`); as a payload is one or the other (`gtpu_cases`), what it
did says which. -/

namespace Pcapstat

open SpanWalk SpanWalk.Walk

section steps

variable {m : Mem} {s : Span} {pi : PacketInfo} {Q : Unit → Span → PacketInfo → Prop}
  {E : DecodeStatus → Span → PacketInfo → Prop}

/-! ### The chain -/

theorem wp_decodeGtpuExts_cons {e : GtpuExt} {next : UInt8} {rest : List UInt8} {left hops : ℕ}
    (h : Covers m s (e.bytes next ++ rest))
    (hrest : ∀ s', Covers m s' rest → wp (fun _ => True) m (decodeGtpuExts left (hops + 1) next) Q E s'
      { pi with gtpExtCount := hops + 1 }) :
    wp (fun _ => True) m (decodeGtpuExts (left + 1) hops e.type) Q E s pi := by
  have hlen : (e.bytes next).length = e.units.toNat * 4 := by
    rw [e.length_bytes, Nat.mul_comm]
  have hcontent := e.length_eq
  have hunits : m (s.p + 0) = e.units := h.byte rfl
  have hnext : m (s.p + (e.units.toNat * 4 - 1)) = next := by
    apply h.byte
    have hidx : e.units.toNat * 4 - 1 = e.content.length + 1 := by omega
    rw [hidx, GtpuExt.bytes, List.cons_append, List.getElem?_cons_succ, List.append_assoc,
      List.getElem?_append_right (Nat.le_refl _), Nat.sub_self]
    rfl
  have hroom : e.units.toNat * 4 ≤ (e.bytes next ++ rest).length := by
    rw [List.length_append, hlen]
    exact Nat.le_add_right _ _
  unfold decodeGtpuExts
  rw [if_neg e.typed]
  simp only [wp_bind, h.wp_need, wp_load8, wp_exitIf, wp_advance, wp_modifyOut, hunits, hnext, true_and]
  refine ⟨fun _ => ⟨fun _ => ⟨fun _ => hrest _ (h.advance hlen), ?_⟩, ?_⟩, ?_⟩
  · intro hlt
    exact absurd hroom (Nat.not_le_of_lt hlt)
  · intro hzero
    omega
  · intro hlt
    omega

theorem wp_decodeGtpuExts_broken {r : List UInt8} {left hops : ℕ} {next : UInt8} {st : DecodeStatus}
    (hbroken : BrokenExt left r st) (hnext : next ≠ 0) (h : Covers m s r) (hend : E st s pi) :
    wp (fun _ => True) m (decodeGtpuExts left hops next) Q E s pi := by
  cases hbroken with
  | tooMany =>
      simp only [decodeGtpuExts, wp_exitIf]
      exact ⟨fun hzero => absurd hnext hzero, fun _ => hend⟩
  | missing =>
      unfold decodeGtpuExts
      rw [if_neg hnext]
      simp only [wp_bind, h.wp_need]
      exact ⟨fun hle => absurd hle (by decide), fun _ => hend⟩
  | noUnits =>
      have hunits : m (s.p + 0) = 0 := h.byte rfl
      unfold decodeGtpuExts
      rw [if_neg hnext]
      simp only [wp_bind, h.wp_need, wp_load8, wp_exitIf, hunits, true_and]
      refine ⟨fun _ => ⟨fun hne => absurd rfl hne, fun _ => hend⟩, fun hlt => ?_⟩
      rw [List.length_cons] at hlt
      omega
  | @overrun _ units r hne hover =>
      have hunits : m (s.p + 0) = units := h.byte rfl
      have hpos : units.toNat ≠ 0 := fun hzero => hne (UInt8.toNat_inj.mp hzero)
      unfold decodeGtpuExts
      rw [if_neg hnext]
      simp only [wp_bind, h.wp_need, wp_load8, wp_exitIf, hunits, true_and]
      refine ⟨fun _ => ⟨fun _ => ⟨fun hle => ?_, fun _ => hend⟩, fun hzero => ?_⟩, fun hlt => ?_⟩
      · omega
      · omega
      · rw [List.length_cons] at hlt
        omega

/-- The chain is stepped over, and the headers are counted. -/
theorem wp_decodeGtpuExts {last : UInt8} {rest : List UInt8} : ∀ {es : List GtpuExt} {left hops : ℕ}
    {s : Span} {pi : PacketInfo}, Covers m s (putExts es last ++ rest) → es.length ≤ left →
    pi.gtpExtCount = hops →
    (∀ s', Covers m s' rest → wp (fun _ => True) m
      (decodeGtpuExts (left - es.length) (hops + es.length) last) Q E s'
      { pi with gtpExtCount := hops + es.length }) →
    wp (fun _ => True) m (decodeGtpuExts left hops (firstType es last)) Q E s pi
  | [], left, hops, s, pi, h, _, hcount, hrest => by
      have hsame := hrest s h
      subst hcount
      exact hsame
  | e :: es, 0, _, _, _, _, hle, _, _ => absurd hle (Nat.not_succ_le_zero _)
  | e :: es, left + 1, hops, s, pi, h, hle, hcount, hrest => by
      show wp _ m (decodeGtpuExts (left + 1) hops e.type) Q E s pi
      rw [putExts, List.append_assoc] at h
      apply wp_decodeGtpuExts_cons h
      intro s₁ h₁
      refine wp_decodeGtpuExts h₁ (Nat.le_of_succ_le_succ hle) rfl fun s₂ h₂ => ?_
      have hsame := hrest s₂ h₂
      rw [List.length_cons, Nat.succ_sub_succ, ← Nat.add_assoc, Nat.add_right_comm] at hsame
      exact hsame

/-! ### The headers -/

theorem wp_decodeGtpuOpt {flags npdu next : UInt8} {seq : UInt16} {rest : List UInt8}
    {Q : UInt8 → Span → PacketInfo → Prop} (hopt : HasOpt flags)
    (h : Covers m s (putGtpuOpt seq npdu next ++ rest))
    (hrest : ∀ s', Covers m s' rest → Q (if flags &&& gtpuFlagE ≠ 0 then next else 0) s'
      { pi with gtpSeq := if flags &&& gtpuFlagS ≠ 0 then seq else pi.gtpSeq }) :
    wp (fun _ => True) m (decodeGtpuOpt flags) Q E s pi := by
  have hseq : be16 m (s.p + 0) = seq := be16_covers h rfl rfl
  have hnext : m (s.p + 3) = next := h.byte rfl
  have hend := hrest _ (h.advance (length_putGtpuOpt seq npdu next))
  unfold HasOpt at hopt
  unfold decodeGtpuOpt
  rw [if_pos hopt]
  simp only [wp_bind, h.wp_need, wp_ite, wp_be16At, wp_modifyOut, wp_load8, wp_advance, wp_pure, hseq, hnext,
    true_and]
  refine ⟨fun _ => ⟨fun hs => ⟨fun he => ?_, fun he => ?_⟩, fun hs => ⟨fun he => ?_, fun he => ?_⟩⟩, ?_⟩
  · rwa [if_pos he, if_pos hs] at hend
  · rwa [if_neg he, if_pos hs] at hend
  · rwa [if_pos he, if_neg hs] at hend
  · rwa [if_neg he, if_neg hs] at hend
  · intro hlt
    rw [List.length_append, length_putGtpuOpt] at hlt
    omega

/-- The fields of the header alone. -/
def PacketInfo.setGtpu (pi : PacketInfo) (flags type : UInt8) (teid : UInt32) : PacketInfo :=
  { pi with gtpV1u := true, gtpFlags := flags, gtpMsgType := type, teid := teid }

section header

variable {flags type : UInt8} {len : UInt16} {teid : UInt32} {body : List UInt8}
  {Q : Bool → Span → PacketInfo → Prop}

theorem not_isV1u_iff : ¬ IsV1u flags ↔ flags >>> 5 ≠ 1 ∨ flags &&& gtpuFlagPt = 0 := by
  unfold IsV1u
  rw [not_and_or, not_not]

theorem wp_decodeGtpuHeaders_other {r : List UInt8} (h : Covers m s (flags :: r))
    (hroom : gtpuHdrLen ≤ (flags :: r).length) (hv : ¬ IsV1u flags) (hend : Q false s pi) :
    wp (fun _ => True) m decodeGtpuHeaders Q E s pi := by
  have hflags : m (s.p + 0) = flags := h.byte rfl
  unfold decodeGtpuHeaders
  simp only [wp_bind, h.wp_need, wp_load8, hflags, true_and]
  refine ⟨fun _ => ?_, fun hlt => absurd hroom (Nat.not_le_of_lt hlt)⟩
  rw [if_pos (not_isV1u_iff.mp hv), wp_pure]
  exact hend

theorem wp_decodeGtpuHeaders (h : Covers m s (putGtpu flags type len teid ++ body)) (hv : IsV1u flags)
    (hbad : body.length < len.toNat → E .badGtpuLen s (pi.setGtpu flags type teid))
    (hgood : ∀ inside tail s', body = inside ++ tail → inside.length = len.toNat → Covers m s' inside →
      wp (fun _ => True) m (decodeGtpuOpt flags) (fun next s₁ pi₁ =>
        wp (fun _ => True) m (decodeGtpuExts gtpuMaxExtHeaders 0 next) (fun _ s₂ pi₂ =>
          Q (type = gtpuMsgGpdu) s₂ { pi₂ with gtpMsgOk := true }) E s₁ pi₁) E s'
        (pi.setGtpu flags type teid)) :
    wp (fun _ => True) m decodeGtpuHeaders Q E s pi := by
  have hflags : m (s.p + 0) = flags := h.byte rfl
  have htype : m (s.p + 1) = type := h.byte rfl
  have hlen : be16 m (s.p + 2) = len := be16_covers h rfl rfl
  have hteid : be32 m (s.p + 4) = teid := be32_covers h rfl rfl rfl rfl
  have hwire : s.wire - gtpuHdrLen = body.length := (h.advance (length_putGtpu flags type len teid)).wire
  have hv' : ¬ (flags >>> 5 ≠ 1 ∨ flags &&& gtpuFlagPt = 0) := fun hno => not_isV1u_iff.mpr hno hv
  unfold decodeGtpuHeaders
  simp only [wp_bind, h.wp_need, wp_load8, hflags, true_and]
  refine ⟨fun _ => ?_, fun hlt => ?_⟩
  swap
  · rw [List.length_append, length_putGtpu] at hlt
    omega
  rw [if_neg hv']
  simp only [wp_bind, wp_load8, wp_be16At, wp_be32At, wp_modifyOut, wp_wireMinus, wp_exitIf, wp_advance,
    wp_clip, wp_pure, htype, hlen, hteid, hwire, true_and]
  refine ⟨fun hle => ?_, hbad⟩
  have htake : (body.take len.toNat).length = len.toNat := List.length_take_of_le (Nat.le_of_not_lt hle)
  have hsplit : body = body.take len.toNat ++ body.drop len.toNat := (List.take_append_drop _ _).symm
  have hbody := h.advance (length_putGtpu flags type len teid)
  rw [hsplit] at hbody
  have hclip := hbody.clip htake
  rw [hwire] at hclip
  exact hgood _ _ _ hsplit htake hclip

end header

/-! ### The user packet -/

/-- `decode_gtpu_inner` on a buffer that holds `r`. -/
def userRun (r : List UInt8) : Ran PacketInfo DecodeStatus Unit :=
  decodeGtpuInner.run (Mem.ofList r) ⟨0, r.length, r.length⟩ {}

/-- The fields of the user packet. -/
def PacketInfo.user (pi : PacketInfo) : PacketInfo :=
  { hasInner := pi.hasInner, innerHasL4 := pi.innerHasL4, gtpNested := pi.gtpNested
    innerVersion := pi.innerVersion, innerProto := pi.innerProto, innerSrc := pi.innerSrc
    innerDst := pi.innerDst, innerSrcPort := pi.innerSrcPort, innerDstPort := pi.innerDstPort }

/-- `pi` with the user packet of `u`. -/
def PacketInfo.withUser (pi u : PacketInfo) : PacketInfo :=
  { pi with
    hasInner := u.hasInner, innerHasL4 := u.innerHasL4, gtpNested := u.gtpNested
    innerVersion := u.innerVersion, innerProto := u.innerProto, innerSrc := u.innerSrc
    innerDst := u.innerDst, innerSrcPort := u.innerSrcPort, innerDstPort := u.innerDstPort }

/-- What is done with a user packet does not depend on the fields found before. -/
theorem decodeGtpuInner_cases (m : Mem) (s : Span) :
    (∃ st, ∀ pi, Ends m decodeGtpuInner (fun st' _ pi' => st' = st ∧ pi' = pi) s pi) ∨
      ∃ st inn, ∀ pi, Ends m decodeGtpuInner (fun st' _ pi' => st' = st ∧ pi' = pi.setInner inn) s pi := by
  simp only [decodeGtpuInner, exitWith, ends_bind, ends_exitIf, wp_need, wp_load8, wp_exitIf,
    wp_scratch, wp_modifyOut, true_and]
  by_cases hcap : 1 ≤ s.cap
  swap
  · by_cases hwire : 1 ≤ s.wire
    · exact .inl ⟨.truncGtpuInner, fun pi => ⟨fun h => absurd h hcap, fun _ _ => ⟨rfl, trivial⟩,
        fun _ h => absurd hwire (Nat.not_le_of_lt h)⟩⟩
    · exact .inl ⟨.badGtpuInner, fun pi => ⟨fun h => absurd h hcap, fun _ h => absurd h hwire,
        fun _ _ => ⟨rfl, trivial⟩⟩⟩
  by_cases hver : m (s.p + 0) >>> 4 ≠ 4 ∧ m (s.p + 0) >>> 4 ≠ 6
  · exact .inl ⟨.badGtpuInner, fun pi => ⟨fun _ => ⟨fun h => absurd hver h, fun _ => ⟨rfl, trivial⟩⟩,
      fun h => absurd hcap (Nat.not_le_of_lt h), fun h => absurd hcap (Nat.not_le_of_lt h)⟩⟩
  refine .inr ?_
  generalize (if m (s.p + 0) >>> 4 = 4 then decodeIpv4 else decodeIpv6) = ip
  refine ⟨userStatus (.ofRes (ip.run m s {}).res), (ip.run m s {}).out, fun pi => ⟨fun _ =>
    ⟨fun _ => ?_, fun h => absurd h hver⟩, fun h => absurd hcap (Nat.not_le_of_lt h),
    fun h => absurd hcap (Nat.not_le_of_lt h)⟩⟩
  refine wp_top_iff.mpr ⟨fun a ha => ?_, fun e he => ?_⟩
  · rw [ha]
    exact ⟨fun _ => ⟨rfl, rfl⟩, fun h => absurd rfl h⟩
  · rw [he]
    refine ⟨fun hst => ⟨?_, rfl⟩, fun _ => ⟨rfl, rfl⟩⟩
    exact (Decidable.not_not.mp hst).symm

theorem decodeGtpuInner_user {r : List UInt8} (h : Covers m s r) (hpi : pi.user = {}) :
    Ends m decodeGtpuInner (fun st _ pi' => st = .ofRes (userRun r).res ∧ pi' = pi.withUser (userRun r).out)
      s pi := by
  have hread : ∀ i, Event.read i ∈ (decodeGtpuInner.run m s {}).log → i < s.p + s.cap := by
    have hin : InBounds (s.p + s.cap) s := ⟨Nat.le_refl _, (h.cap.trans h.wire.symm).le⟩
    exact fun i hi => (safe_decodeGtpuInner hin).1 _ hi
  obtain ⟨hres, hout⟩ := h.run_eq (covers_ofList r) hread
  have hres' : (decodeGtpuInner.run m s {}).res = (userRun r).res := hres
  have hout' : (decodeGtpuInner.run m s {}).out = (userRun r).out := hout
  obtain ⟨st, hall⟩ | ⟨st, inn, hall⟩ := decodeGtpuInner_cases m s
  · obtain ⟨hst, hnone⟩ := (hall {}).result
    rw [hres'] at hst
    rw [hout'] at hnone
    apply Ends.mono (hall pi)
    rintro st' _ pi' ⟨rfl, rfl⟩
    rw [hnone, ← hpi]
    exact ⟨hst.symm, rfl⟩
  · obtain ⟨hst, hinn⟩ := (hall {}).result
    rw [hres'] at hst
    rw [hout'] at hinn
    apply Ends.mono (hall pi)
    rintro st' _ pi' ⟨rfl, rfl⟩
    rw [hinn, ← hpi]
    exact ⟨hst.symm, rfl⟩

/-! ### Whole payloads -/

/-- What `gtp_status` says of a message. -/
def GtpuMessage.status (msg : GtpuMessage) : DecodeStatus :=
  if msg.msgType = gtpuMsgGpdu then .ofRes (userRun msg.rest).res else .ok

/-- The GTP-U fields of a datagram that carries the message. -/
def GtpuMessage.info (msg : GtpuMessage) : PacketInfo :=
  PacketInfo.withUser
    { isGtpu := true
      gtpStatus := msg.status
      gtpV1u := true
      gtpFlags := msg.flags
      gtpMsgType := msg.msgType
      gtpMsgOk := true
      gtpSeq := if msg.flags &&& gtpuFlagS ≠ 0 then msg.seq else 0
      teid := msg.teid
      gtpExtCount := msg.exts.length }
    (if msg.msgType = gtpuMsgGpdu then (userRun msg.rest).out else {})

theorem wp_opt_message {msg : GtpuMessage} {rest : List UInt8} {Q : UInt8 → Span → PacketInfo → Prop}
    (h : Covers m s (msg.opt ++ rest)) (hseq : pi.gtpSeq = 0)
    (hrest : ∀ s', Covers m s' rest → Q (firstType msg.exts 0) s'
      { pi with gtpSeq := if msg.flags &&& gtpuFlagS ≠ 0 then msg.seq else 0 }) :
    wp (fun _ => True) m (decodeGtpuOpt msg.flags) Q E s pi := by
  have hnone : ¬ msg.flags &&& gtpuFlagE ≠ 0 → firstType msg.exts 0 = 0 := by
    intro he
    rw [msg.exts_e (not_not.mp he)]
    rfl
  unfold GtpuFields.opt at h
  by_cases hopt : HasOpt msg.flags
  · rw [if_pos hopt] at h
    apply wp_decodeGtpuOpt hopt h
    intro s' h'
    have hend := hrest s' h'
    unfold GtpuFields.nextType
    rw [hseq]
    by_cases he : msg.flags &&& gtpuFlagE ≠ 0
    · rwa [if_pos he, if_pos he]
    · rw [hnone he] at hend
      rwa [if_neg he]
  · rw [if_neg hopt] at h
    have hend := hrest s h
    have hclear : ∀ x : UInt8, ¬ x &&& (gtpuFlagE ||| gtpuFlagS ||| gtpuFlagPn) ≠ 0 →
        ¬ x &&& gtpuFlagE ≠ 0 ∧ ¬ x &&& gtpuFlagS ≠ 0 := by decide +kernel
    obtain ⟨he, hs⟩ := hclear msg.flags hopt
    rw [if_neg hs, hnone he, ← hseq] at hend
    unfold HasOpt at hopt
    unfold decodeGtpuOpt
    rw [if_neg hopt, wp_pure]
    exact hend

/-- **A message decodes to its fields.** -/
theorem decodeGtpu_message {msg : GtpuMessage} {tail : List UInt8} (h : Covers m s (msg.bytes ++ tail))
    (hpi : pi.tunnel = { isGtpu := true }) :
    Ends m decodeGtpu (fun st _ pi' => ({ pi' with gtpStatus := st } : PacketInfo).tunnel = msg.info) s pi := by
  have hgtpu : msg.info = { msg.info with isGtpu := pi.isGtpu } := by
    rw [show pi.isGtpu = true from congrArg PacketInfo.isGtpu hpi]
    rfl
  have hseq : pi.gtpSeq = 0 := congrArg PacketInfo.gtpSeq hpi
  have hcount : pi.gtpExtCount = 0 := congrArg PacketInfo.gtpExtCount hpi
  have huser : pi.user = {} := congrArg PacketInfo.user hpi
  simp only [decodeGtpu, ends_bind]
  rw [GtpuMessage.bytes, List.append_assoc] at h
  refine wp_decodeGtpuHeaders h msg.v1u (fun hlt => ?_) fun inside tail' s₁ hsplit hlen h₁ => ?_
  · rw [msg.length_field, List.length_append] at hlt
    omega
  rw [msg.length_field] at hlen
  obtain rfl := List.append_inj_left hsplit hlen.symm
  rw [GtpuFields.body] at h₁
  refine wp_opt_message h₁ hseq fun s₂ h₂ => ?_
  refine wp_decodeGtpuExts h₂ msg.exts_le hcount fun s₃ h₃ => ?_
  have hdone : ∀ left hops, decodeGtpuExts left hops 0 = pure () := by
    intro left hops
    cases left with
    | zero => rfl
    | succ left => rfl
  rw [hdone, wp_pure, Nat.zero_add]
  simp only [ends_ite, ends_pure, decide_eq_true_eq]
  constructor
  · intro htype
    refine Ends.mono (decodeGtpuInner_user h₃ huser) ?_
    rintro st _ pi' ⟨rfl, rfl⟩
    rw [hgtpu]
    unfold GtpuMessage.info GtpuMessage.status
    rw [if_pos htype, if_pos htype]
    rfl
  · intro htype
    rw [hgtpu]
    unfold GtpuMessage.info GtpuMessage.status
    rw [if_neg htype, if_neg htype, ← huser]
    rfl

/-- What is not of version 1 leaves no trace. -/
theorem decodeGtpu_other {flags : UInt8} {r : List UInt8} (h : Covers m s (flags :: r))
    (hroom : gtpuHdrLen ≤ (flags :: r).length) (hv : ¬ IsV1u flags) :
    Ends m decodeGtpu (fun st _ pi' => st = .ok ∧ pi' = pi) s pi := by
  simp only [decodeGtpu, ends_bind]
  apply wp_decodeGtpuHeaders_other h hroom hv
  simp only [ends_ite, ends_pure]
  exact ⟨fun hno => absurd hno Bool.false_ne_true, fun _ => ⟨trivial, trivial⟩⟩

/-- What is known of a message of version 1 that was not accepted. -/
structure Refused (pi : PacketInfo) : Prop where
  v1u : pi.gtpV1u = true
  msgOk : pi.gtpMsgOk = false
  user : pi.user = {}

/-- **A defect is reported as what it is.** -/
theorem decodeGtpu_defect {p : List UInt8} {st : DecodeStatus} (hdefect : GtpuDefect p st)
    (h : Covers m s p) (hpi : pi.tunnel = { isGtpu := true }) :
    Ends m decodeGtpu (fun st' _ pi' => st' = st ∧ Refused pi') s pi := by
  have hcount : pi.gtpExtCount = 0 := congrArg PacketInfo.gtpExtCount hpi
  have hok : pi.gtpMsgOk = false := congrArg PacketInfo.gtpMsgOk hpi
  have huser : pi.user = {} := congrArg PacketInfo.user hpi
  simp only [decodeGtpu, ends_bind]
  cases hdefect with
  | length hp hv hlen =>
      subst hp
      refine wp_decodeGtpuHeaders h hv (fun _ => ⟨rfl, rfl, hok, huser⟩) ?_
      rintro inside tail _ rfl hinside _
      rw [List.length_append] at hlen
      omega
  | opt hp hv hopt hle hlen =>
      subst hp
      refine wp_decodeGtpuHeaders h hv (fun _ => ⟨rfl, rfl, hok, huser⟩) ?_
      rintro inside tail s₁ rfl hinside h₁
      unfold HasOpt at hopt
      unfold decodeGtpuOpt
      rw [if_pos hopt]
      simp only [wp_bind, h₁.wp_need]
      refine ⟨fun hroom => ?_, fun _ => ⟨trivial, rfl, hok, huser⟩⟩
      omega
  | @ext flags type len teid seq npdu last es r tail _ hp hv he hlen hle hlast hbroken =>
      subst hp
      refine wp_decodeGtpuHeaders h hv (fun hlt => ?_) fun inside tail' s₁ hsplit hinside h₁ => ?_
      · rw [List.length_append, hlen] at hlt
        omega
      obtain rfl := List.append_inj_left hsplit (hlen.trans hinside.symm)
      apply wp_decodeGtpuOpt (hasOpt_of_e he) h₁
      intro s₂ h₂
      rw [if_pos he]
      refine wp_decodeGtpuExts h₂ hle hcount fun s₃ h₃ => ?_
      exact wp_decodeGtpuExts_broken hbroken hlast h₃ ⟨rfl, rfl, hok, huser⟩

end steps

/-! ### Frames -/

/-- A complete, clean and unfragmented UDP datagram from or to port 2152, with the payload `p`. -/
structure GtpuDatagram (frame : Mem) (caplen wirelen : ℕ) (p : List UInt8) : Prop where
  complete : wirelen ≤ caplen
  clean : (decodeFrame frame caplen wirelen).status = .ok
  whole : (decodeFrame frame caplen wirelen).frag = .none
  port : decodeIsGtpuPort (decodeFrame frame caplen wirelen) = true
  payload : ∃ h, TransportAt frame ipprotoUdp h ∧ (be16 frame (h + 4)).toNat = udpHdrLen + p.length ∧
    frame.bytes (h + udpHdrLen) p.length = p

section frame

variable {frame : Mem} {caplen wirelen : ℕ} {p : List UInt8}

/-- Every complete, clean and unfragmented datagram of GTP-U has a payload. -/
theorem exists_gtpuDatagram (hfull : wirelen ≤ caplen) (hst : (decodeFrame frame caplen wirelen).status = .ok)
    (hfrag : (decodeFrame frame caplen wirelen).frag = .none)
    (hport : decodeIsGtpuPort (decodeFrame frame caplen wirelen) = true) :
    ∃ p, GtpuDatagram frame caplen wirelen p := by
  have hudp := hport
  rw [decodeIsGtpuPort, Bool.and_eq_true, Bool.and_eq_true, decide_eq_true_eq] at hudp
  obtain ⟨hat, hon⟩ := outerRun_onUdp hst hfrag hudp.1.1 hudp.1.2
  have hroom := hon.room
  rw [hon.wire] at hroom
  refine ⟨frame.bytes ((outerRun frame caplen wirelen).s.p + udpHdrLen)
    ((be16 frame ((outerRun frame caplen wirelen).s.p + 4)).toNat - udpHdrLen), hfull, hst, hfrag, hport,
    _, hat, ?_, ?_⟩
  · rw [Mem.bytes_length]
    exact (Nat.add_sub_cancel' hroom).symm
  · rw [Mem.bytes_length]

theorem GtpuDatagram.ends (h : GtpuDatagram frame caplen wirelen p) (hroom : gtpuHdrLen ≤ p.length)
    (S : PacketInfo → Prop)
    (hS : ∀ s pi, Covers frame s p → pi.tunnel = { isGtpu := true } →
      Ends frame decodeGtpu (fun st _ pi' => S { pi' with gtpStatus := st }) s pi) :
    S (decodeFrame frame caplen wirelen) := by
  have hudp : (decodeFrame frame caplen wirelen).hasL4 = true ∧
      (decodeFrame frame caplen wirelen).ipProto = ipprotoUdp := by
    have hport := h.port
    rw [decodeIsGtpuPort, Bool.and_eq_true, Bool.and_eq_true, decide_eq_true_eq] at hport
    exact hport.1
  obtain ⟨hat, hon⟩ := outerRun_onUdp h.clean h.whole hudp.1 hudp.2
  obtain ⟨q, hat', hlen, hbytes⟩ := h.payload
  obtain ⟨-, rfl⟩ := hat.unique hat'
  have hwire := hon.wire
  rw [hlen] at hwire
  have hcap : (outerRun frame caplen wirelen).s.cap = (outerRun frame caplen wirelen).s.wire := by
    have hs : (frameSpan caplen wirelen).cap = (frameSpan caplen wirelen).wire :=
      (if_neg (Nat.not_lt_of_le h.complete)).symm
    have hfull := wp_top_iff.mp (wp_top (@full_decodeOuter frame _ {} hs))
    cases hr : (outerRun frame caplen wirelen).res with
    | ok a => exact hfull.1 a hr
    | error e => exact (hfull.2 e hr).2
  have hcond : TunnelCond (outerRun frame caplen wirelen).s (outerResult (outerRun frame caplen wirelen)) := by
    refine ⟨?_, ?_, ?_, ?_⟩
    · exact (decodeFrame_field PacketInfo.status fun _ => rfl).symm.trans h.clean
    · exact (decodeFrame_field PacketInfo.frag fun _ => rfl).symm.trans h.whole
    · exact (decodeFrame_field decodeIsGtpuPort fun _ => rfl).symm.trans h.port
    · rw [hwire]
      exact Nat.add_le_add_left hroom _
  have hcover : Covers frame ⟨(outerRun frame caplen wirelen).s.p + udpHdrLen,
      (outerRun frame caplen wirelen).s.cap - udpHdrLen,
      (outerRun frame caplen wirelen).s.wire - udpHdrLen⟩ p := by
    rw [hcap, hwire, Nat.add_sub_cancel_left]
    exact ⟨rfl, rfl, hbytes⟩
  have htun : ({ outerResult (outerRun frame caplen wirelen) with isGtpu := true } : PacketInfo).tunnel =
      { isGtpu := true } :=
    congrArg (fun q : PacketInfo => { q with isGtpu := true }) (outerRun_shape frame caplen wirelen).tunnel
  rw [decodeFrame_tunnel, if_pos hcond]
  exact (hS _ _ hcover htun).result

/-- What the decoder says of a payload is what the grammar says. -/
structure GtpuVerdict (p : List UInt8) (pi : PacketInfo) : Prop where
  /-- the messages are accepted, and nothing else is -/
  accepted : pi.gtpMsgOk = true ↔ ∃ msg : GtpuMessage, ∃ tail, p = msg.bytes ++ tail
  /-- a message is decoded to its fields, and a user packet from the remainder -/
  decoded : ∀ (msg : GtpuMessage) (tail : List UInt8), p = msg.bytes ++ tail → pi.tunnel = msg.info
  /-- what is not GTPv1-U is passed over -/
  other : ∀ flags r, p = flags :: r → ¬ IsV1u flags → pi.tunnel = { isGtpu := true }
  /-- what is GTPv1-U and no message is reported with the one defect that it has -/
  defect : ∀ flags r, p = flags :: r → IsV1u flags → pi.gtpMsgOk = false →
    pi.gtpStatus ∈ [DecodeStatus.badGtpuLen, .badGtpuExtLen, .badGtpuExt] ∧
      ∀ st, pi.gtpStatus = st ↔ GtpuDefect p st

theorem BrokenExt.status {more : ℕ} {r : List UInt8} {st : DecodeStatus} (h : BrokenExt more r st) :
    st = .badGtpuExtLen ∨ st = .badGtpuExt := by
  cases h with
  | tooMany => exact .inr rfl
  | missing => exact .inr rfl
  | noUnits => exact .inl rfl
  | overrun _ _ => exact .inr rfl

theorem GtpuDefect.status {st : DecodeStatus} (h : GtpuDefect p st) :
    st ∈ [DecodeStatus.badGtpuLen, .badGtpuExtLen, .badGtpuExt] := by
  cases h with
  | length _ _ _ => decide
  | opt _ _ _ _ _ => decide
  | ext _ _ _ _ _ _ hbroken =>
      obtain rfl | rfl := hbroken.status
      · decide
      · decide

theorem GtpuDatagram.message {msg : GtpuMessage} {tail : List UInt8}
    (h : GtpuDatagram frame caplen wirelen (msg.bytes ++ tail)) :
    (decodeFrame frame caplen wirelen).tunnel = msg.info := by
  have hroom : gtpuHdrLen ≤ (msg.bytes ++ tail).length := by
    rw [GtpuMessage.bytes, List.append_assoc, List.length_append, length_putGtpu]
    exact Nat.le_add_right _ _
  exact h.ends hroom (fun q => q.tunnel = msg.info) fun s pi hcover htun => decodeGtpu_message hcover htun

/-- **`decode_gtpu` accepts exactly the grammar of GTPv1-U.** -/
theorem decodeFrame_gtpu (h : GtpuDatagram frame caplen wirelen p) (hroom : gtpuHdrLen ≤ p.length) :
    GtpuVerdict p (decodeFrame frame caplen wirelen) := by
  have hmessage : ∀ (msg : GtpuMessage) tail, p = msg.bytes ++ tail →
      (decodeFrame frame caplen wirelen).tunnel = msg.info := by
    rintro msg tail rfl
    exact h.message
  have hother : ∀ flags r, p = flags :: r → ¬ IsV1u flags →
      (decodeFrame frame caplen wirelen).tunnel = { isGtpu := true } := by
    rintro flags r rfl hv
    refine h.ends hroom (fun q => q.tunnel = { isGtpu := true }) fun s pi hcover htun =>
      Ends.mono (decodeGtpu_other hcover hroom hv) ?_
    rintro st _ pi' ⟨rfl, rfl⟩
    exact congrArg (fun q : PacketInfo => { q with gtpStatus := .ok }) htun
  have hdefect : ∀ st, GtpuDefect p st → (decodeFrame frame caplen wirelen).gtpStatus = st ∧
      (decodeFrame frame caplen wirelen).gtpMsgOk = false := by
    intro st hst
    refine h.ends hroom (fun q => q.gtpStatus = st ∧ q.gtpMsgOk = false) fun s pi hcover htun =>
      Ends.mono (decodeGtpu_defect hst hcover htun) ?_
    rintro st' _ pi' ⟨rfl, hrefused⟩
    exact ⟨rfl, hrefused.msgOk⟩
  have hcases := gtpu_cases hroom
  generalize decodeFrame frame caplen wirelen = pi at hmessage hother hdefect ⊢
  refine ⟨⟨fun hok => ?_, ?_⟩, hmessage, hother, fun flags r hp hv hno => ?_⟩
  · obtain ⟨flags, r, hp, hv⟩ | hmsg | ⟨st, hst⟩ := hcases
    · have hfalse : pi.gtpMsgOk = false := congrArg PacketInfo.gtpMsgOk (hother flags r hp hv)
      exact absurd (hfalse.symm.trans hok) Bool.false_ne_true
    · exact hmsg
    · exact absurd ((hdefect st hst).2.symm.trans hok) Bool.false_ne_true
  · rintro ⟨msg, tail, hp⟩
    exact congrArg PacketInfo.gtpMsgOk (hmessage msg tail hp)
  · obtain ⟨flags', r', hp', hv'⟩ | ⟨msg, tail, hmsg⟩ | ⟨st, hst⟩ := hcases
    · obtain ⟨rfl, -⟩ := List.cons.inj (hp.symm.trans hp')
      exact absurd hv hv'
    · have htrue : pi.gtpMsgOk = true := congrArg PacketInfo.gtpMsgOk (hmessage msg tail hmsg)
      exact absurd (hno.symm.trans htrue) Bool.false_ne_true
    · rw [(hdefect st hst).1]
      refine ⟨hst.status, fun st' => ⟨?_, fun hst' => ?_⟩⟩
      · rintro rfl
        exact hst
      · exact (hdefect st hst).1.symm.trans (hdefect st' hst').1

end frame

/-- A G-PDU with one extension header and an IPv4 header as user packet. -/
def extendedGpdu : List UInt8 :=
  putGtpu 0x34 gtpuMsgGpdu 28 9 ++ (putGtpuOpt 0 0 0x85 ++ (putGtpuExt 1 0 ++
    putIpv4 ipprotoIcmp [10, 1, 0, 1] [10, 1, 0, 2] 0 0 0))

/-- The frame that carries it. -/
def extendedFrame : List UInt8 :=
  putEth ethertypeIpv4 ++ (putIpv4 ipprotoUdp [10, 0, 0, 1] [10, 0, 0, 2] 44 0 0 ++
    (putUdp gtpuPort gtpuPort 36 ++ extendedGpdu))

theorem decodeFrame_gtpu_extended :
    GtpuVerdict extendedGpdu (decodeFrame (Mem.ofList extendedFrame) 78 78) := by
  have hst : (decodeFrame (Mem.ofList extendedFrame) 78 78).status = .ok := by decide +kernel
  have hfrag : (decodeFrame (Mem.ofList extendedFrame) 78 78).frag = .none := by decide +kernel
  have hl4 : (decodeFrame (Mem.ofList extendedFrame) 78 78).hasL4 = true := by decide +kernel
  have hproto : (decodeFrame (Mem.ofList extendedFrame) 78 78).ipProto = ipprotoUdp := by decide +kernel
  refine decodeFrame_gtpu ⟨by decide, hst, hfrag, by decide +kernel, ?_⟩ (by decide)
  exact ⟨_, (outerRun_onUdp hst hfrag hl4 hproto).1, by decide +kernel, by decide +kernel⟩

end Pcapstat
