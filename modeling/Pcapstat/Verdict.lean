import Pcapstat.DecodeShape

/-! # What a decoded frame says about itself

The shapes of `DecodeShape.lean`, read off the fields of the finished `packet_info`: how far
the outer packet was decoded (`OuterCase`) and how far the GTP-U message was (`GtpuCase`).
Neither depends on the ports, the only fields that the fragment cache fills in afterwards. -/

namespace Pcapstat

variable {pi : PacketInfo}

namespace DecodeStatus

/-- The reasons that precede a valid IP header. -/
def earlyProblems : List DecodeStatus :=
  [.truncEthernet, .truncVlan, .truncIpv4, .truncIpv6, .badShortFrame, .badVlanDepth, .badIpv4Version,
    .badIpv4Ihl, .badIpv4TotalLen, .badIpv6Version, .badIpv6PayloadLen]

/-- The verdicts on a packet with a valid IP header. -/
def ipVerdicts : List DecodeStatus := .ok :: extProblems ++ l4Problems

/-- The reasons to stop at a user packet before its IP header is valid. -/
def earlyInnerProblems : List DecodeStatus := innerProblems ++ ipProblems.erase .badShortFrame

theorem early_of_link : ∀ {st : DecodeStatus}, st ∈ linkProblems → st ∈ earlyProblems := by decide

theorem early_of_ip : ∀ {st : DecodeStatus}, st ∈ ipProblems → st ∈ earlyProblems := by decide

theorem earlyInner_of_ip : ∀ {st : DecodeStatus}, st ∈ ipProblems → userStatus st ∈ earlyInnerProblems := by
  decide

theorem userStatus_of_ipVerdict : ∀ {st : DecodeStatus}, st ∈ ipVerdicts → userStatus st ∈ ipVerdicts := by
  decide

end DecodeStatus

open DecodeStatus

theorem UpperShape.ipVerdict {st : DecodeStatus} {pi' : PacketInfo} (h : UpperShape pi st pi') :
    st ∈ ipVerdicts := by
  rw [ipVerdicts, List.cons_append, List.mem_cons, List.mem_append]
  exact h.status

/-! ### The outer packet -/

/-- How far the outer packet was decoded. -/
inductive OuterCase (pi : PacketInfo) : Prop where
  /-- the decoder stopped before a valid IP header -/
  | early : pi.status ∈ earlyProblems → pi.hasL3 = false →
      (pi.hasL2 = true → pi.ethertype = ethertypeIpv4 ∨ pi.ethertype = ethertypeIpv6) → OuterCase pi
  /-- the frame carries something other than IP -/
  | nonIp : pi.status = .ok → pi.hasL3 = false → pi.hasL2 = true → pi.ethertype ≠ ethertypeIpv4 →
      pi.ethertype ≠ ethertypeIpv6 → OuterCase pi
  /-- the IP header is valid -/
  | ip : pi.status ∈ ipVerdicts → pi.hasL3 = true → pi.ipVersion = 4 ∨ pi.ipVersion = 6 →
      (pi.frag = .later → pi.status = .ok ∧ pi.hasL4 = false) → OuterCase pi

theorem OuterShape.outerCase {st : DecodeStatus} {pi : PacketInfo} (h : OuterShape st pi)
    {q : PacketInfo} (hq : q.outer = { pi with status := st }.outer) : OuterCase q := by
  have field : ∀ {β : Type} (f : PacketInfo → β), (∀ r, f r.outer = f r) → f q = f { pi with status := st } :=
    fun f hf => PacketInfo.eq_of_erase PacketInfo.outer f hf hq
  have hstatus : q.status = st := field PacketInfo.status fun _ => rfl
  have hl2 : q.hasL2 = pi.hasL2 := field PacketInfo.hasL2 fun _ => rfl
  have hl3 : q.hasL3 = pi.hasL3 := field PacketInfo.hasL3 fun _ => rfl
  have htype : q.ethertype = pi.ethertype := field PacketInfo.ethertype fun _ => rfl
  cases h with
  | link hst hpi =>
      have hl2' : pi.hasL2 = false := congrArg PacketInfo.hasL2 hpi
      have hl3' : pi.hasL3 = false := congrArg PacketInfo.hasL3 hpi
      refine .early ?_ (hl3.trans hl3') fun h => absurd ((hl2.trans hl2').symm.trans h) Bool.false_ne_true
      rw [hstatus]
      exact early_of_link hst
  | @nonIp type _ h4 h6 hpi =>
      have htype' : pi.ethertype = type := congrArg PacketInfo.ethertype hpi
      refine .nonIp hstatus ?_ ?_ ?_ ?_
      · exact hl3.trans (congrArg PacketInfo.hasL3 hpi)
      · exact hl2.trans (congrArg PacketInfo.hasL2 hpi)
      · rwa [htype, htype']
      · rwa [htype, htype']
  | @ip _ type pi₁ _ hip hpi hshape =>
      have htype₁ : pi₁.ethertype = type := congrArg PacketInfo.ethertype hpi
      have hl3₁ : pi₁.hasL3 = false := congrArg PacketInfo.hasL3 hpi
      cases hshape with
      | header hst =>
          refine .early ?_ (hl3.trans hl3₁) fun _ => ?_
          · rw [hstatus]
            exact early_of_ip hst
          · rwa [htype, htype₁]
      | @upper pi₂ _ _ hl3₂ hver hup =>
          have hkeep : ∀ {β : Type} (f : PacketInfo → β), (∀ r, f r.noUpper = f r) → f pi = f pi₂ :=
            fun f hf => PacketInfo.eq_of_erase PacketInfo.noUpper f hf hup.frame
          have hfrag : q.frag = pi.frag := field PacketInfo.frag fun _ => rfl
          have hl4 : q.hasL4 = pi.hasL4 := field PacketInfo.hasL4 fun _ => rfl
          refine .ip ?_ ?_ ?_ fun hl => ?_
          · rw [hstatus]
            exact hup.ipVerdict
          · rw [hl3, hkeep PacketInfo.hasL3 fun _ => rfl, hl3₂]
          · rw [field PacketInfo.ipVersion fun _ => rfl, hkeep PacketInfo.ipVersion fun _ => rfl]
            exact hver
          · rw [hfrag] at hl
            refine ⟨hstatus.trans (hup.later hl).1, hl4.trans ?_⟩
            rw [← Bool.not_eq_true, hup.l4]
            exact fun h => h.2.1 hl

/-! ### The GTP-U message -/

/-- A packet on which `decode_gtpu` was called. -/
structure Tunnelled (pi : PacketInfo) : Prop where
  isGtpu : pi.isGtpu = true
  status : pi.status = .ok
  hasL3 : pi.hasL3 = true
  proto : pi.ipProto = ipprotoUdp
  frag : pi.frag = .none

/-- How far the GTP-U message was decoded. -/
inductive GtpuCase (pi : PacketInfo) : Prop where
  /-- there is none -/
  | absent : pi.isGtpu = false → pi.gtpMsgOk = false → GtpuCase pi
  /-- the decoder stopped inside the GTP-U headers -/
  | problem : Tunnelled pi → pi.gtpStatus ∈ gtpuProblems → pi.gtpMsgOk = false → pi.hasInner = false →
      (pi.gtpV1u = false → pi.gtpStatus = .truncGtpu) → GtpuCase pi
  /-- the message carries no user packet -/
  | signal : Tunnelled pi → pi.gtpStatus = .ok → pi.gtpMsgOk = pi.gtpV1u → pi.hasInner = false →
      ¬ (pi.gtpV1u = true ∧ pi.gtpMsgType = gtpuMsgGpdu) → GtpuCase pi
  /-- the user packet has no valid IP header -/
  | noUser : Tunnelled pi → pi.gtpStatus ∈ earlyInnerProblems → pi.gtpMsgOk = true → pi.gtpV1u = true →
      pi.gtpMsgType = gtpuMsgGpdu → pi.hasInner = false → GtpuCase pi
  /-- the user packet has a valid IP header -/
  | user : Tunnelled pi → pi.gtpStatus ∈ ipVerdicts → pi.gtpMsgOk = true → pi.gtpV1u = true →
      pi.gtpMsgType = gtpuMsgGpdu → pi.hasInner = true → pi.innerVersion = 4 ∨ pi.innerVersion = 6 →
      GtpuCase pi

/-- Only a packet with a valid IP header has a transport layer. -/
theorem OuterShape.hasL3_of_hasL4 {st : DecodeStatus} (h : OuterShape st pi) (h4 : pi.hasL4 = true) :
    pi.hasL3 = true := by
  cases h with
  | link _ hpi =>
      have hl4 : pi.hasL4 = false := congrArg PacketInfo.hasL4 hpi
      exact absurd (hl4.symm.trans h4) Bool.false_ne_true
  | nonIp _ _ hpi =>
      have hl4 : pi.hasL4 = false := congrArg PacketInfo.hasL4 hpi
      exact absurd (hl4.symm.trans h4) Bool.false_ne_true
  | ip _ hpi hshape =>
      cases hshape with
      | header _ =>
          have hl4 : pi.hasL4 = false := congrArg PacketInfo.hasL4 hpi
          exact absurd (hl4.symm.trans h4) Bool.false_ne_true
      | upper _ hl3 _ hup =>
          exact (PacketInfo.eq_of_erase PacketInfo.noUpper PacketInfo.hasL3 (fun _ => rfl) hup.frame).trans hl3

theorem UserShape.inner {st : DecodeStatus} {pi' : PacketInfo} (h : UserShape pi st pi')
    (hpi : pi.hasInner = false) : (pi'.hasInner = false ∧ st ∈ earlyInnerProblems) ∨
      (pi'.hasInner = true ∧ st ∈ ipVerdicts ∧ (pi'.innerVersion = 4 ∨ pi'.innerVersion = 6)) := by
  cases h with
  | absent hst =>
      refine .inl ⟨hpi, ?_⟩
      obtain rfl | rfl := hst <;> decide
  | @packet st inn hshape =>
      cases hshape with
      | header hst =>
          refine .inl ⟨?_, earlyInner_of_ip hst⟩
          rw [PacketInfo.setInner, hpi, Bool.false_or]
      | @upper pi₁ _ _ hl3 hver hup =>
          have hl3' : inn.hasL3 = true :=
            (PacketInfo.eq_of_erase PacketInfo.noUpper PacketInfo.hasL3 (fun _ => rfl) hup.frame).trans hl3
          have hver' : inn.ipVersion = pi₁.ipVersion :=
            PacketInfo.eq_of_erase PacketInfo.noUpper PacketInfo.ipVersion (fun _ => rfl) hup.frame
          refine .inr ⟨?_, userStatus_of_ipVerdict hup.ipVerdict, ?_⟩
          · simp only [PacketInfo.setInner, hl3', Bool.or_true]
          · simp only [PacketInfo.setInner, hl3', if_true, hver']
            exact hver

theorem FrameShape.tunnelled_of {pi₀ pi₁ : PacketInfo} {st : DecodeStatus} (h : OuterShape .ok pi₀)
    (hfrag : pi₀.frag = .none) (hport : decodeIsGtpuPort pi₀ = true)
    (hshape : GtpuShape { pi₀ with status := .ok, isGtpu := true } st pi₁) :
    Tunnelled { pi₁ with gtpStatus := st } := by
  have field : ∀ {β : Type} (f : PacketInfo → β), (∀ r, f r.envelope = f r) →
      f pi₁ = f { pi₀ with status := .ok, isGtpu := true } :=
    fun f hf => PacketInfo.eq_of_erase PacketInfo.envelope f hf hshape.frame
  rw [decodeIsGtpuPort, Bool.and_eq_true, Bool.and_eq_true, decide_eq_true_eq] at hport
  refine ⟨?_, ?_, ?_, ?_, ?_⟩
  · exact field PacketInfo.isGtpu fun _ => rfl
  · exact field PacketInfo.status fun _ => rfl
  · exact (field PacketInfo.hasL3 fun _ => rfl).trans (h.hasL3_of_hasL4 hport.1.1)
  · exact (field PacketInfo.ipProto fun _ => rfl).trans hport.1.2
  · exact (field PacketInfo.frag fun _ => rfl).trans hfrag

/-- **How far the outer packet of a frame was decoded.** -/
theorem FrameShape.outerCase (h : FrameShape pi) : OuterCase pi := by
  cases h with
  | plain h => exact h.outerCase rfl
  | @tunnel st pi₀ pi₁ h _ _ hshape =>
      have houter := PacketInfo.eq_of_erase PacketInfo.envelope PacketInfo.outer (fun _ => rfl) hshape.frame
      exact h.outerCase houter

/-- How far the GTP-U message of a frame was decoded. -/
theorem FrameShape.gtpuCase (h : FrameShape pi) : GtpuCase pi := by
  cases h with
  | @plain st pi₀ h =>
      exact .absent (congrArg PacketInfo.isGtpu h.tunnel) (congrArg PacketInfo.gtpMsgOk h.tunnel)
  | @tunnel st pi₀ pi₁ h hfrag hport hshape =>
      have htun := FrameShape.tunnelled_of h hfrag hport hshape
      have hinner : pi₀.hasInner = false := congrArg PacketInfo.hasInner h.tunnel
      cases hshape with
      | problem hp =>
          refine .problem htun hp.status hp.msgOk ?_ hp.v1u
          exact (PacketInfo.eq_of_erase PacketInfo.noGtpu PacketInfo.hasInner (fun _ => rfl) hp.frame).trans hinner
      | signal hd =>
          refine .signal htun rfl hd.msgOk ?_ fun hu => absurd (hd.user.mpr hu) Bool.false_ne_true
          exact (PacketInfo.eq_of_erase PacketInfo.noGtpu PacketInfo.hasInner (fun _ => rfl) hd.frame).trans hinner
      | @gpdu _ pi₂ _ hd hu =>
          have field : ∀ {β : Type} (f : PacketInfo → β), (∀ r, f r.noUser = f r) → f pi₁ = f pi₂ :=
            fun f hf => PacketInfo.eq_of_erase PacketInfo.noUser f hf hu.frame
          obtain ⟨hv, htype⟩ := hd.user.mp rfl
          have hv' := (field PacketInfo.gtpV1u fun _ => rfl).trans hv
          have htype' := (field PacketInfo.gtpMsgType fun _ => rfl).trans htype
          have hmsg := (field PacketInfo.gtpMsgOk fun _ => rfl).trans (hd.msgOk.trans hv)
          have hinner₂ : pi₂.hasInner = false :=
            (PacketInfo.eq_of_erase PacketInfo.noGtpu PacketInfo.hasInner (fun _ => rfl) hd.frame).trans hinner
          obtain ⟨hin, hst⟩ | ⟨hin, hst, hver⟩ := hu.inner hinner₂
          · exact .noUser htun hst hmsg hv' htype' hin
          · exact .user htun hst hmsg hv' htype' hin hver

theorem GtpuCase.tunnelled (h : GtpuCase pi) (hg : pi.isGtpu = true) : Tunnelled pi := by
  cases h with
  | absent h _ => exact absurd (h.symm.trans hg) Bool.false_ne_true
  | problem h _ _ _ _ => exact h
  | signal h _ _ _ _ => exact h
  | noUser h _ _ _ _ _ => exact h
  | user h _ _ _ _ _ _ => exact h

/-! ### Without the ports -/

/-- Without the ports. -/
def PacketInfo.noPorts (pi : PacketInfo) : PacketInfo := { pi with srcPort := 0, dstPort := 0 }

theorem OuterCase.noPorts_iff : OuterCase pi.noPorts ↔ OuterCase pi := by
  constructor <;> intro h <;> cases h with
  | early h₁ h₂ h₃ => exact .early h₁ h₂ h₃
  | nonIp h₁ h₂ h₃ h₄ h₅ => exact .nonIp h₁ h₂ h₃ h₄ h₅
  | ip h₁ h₂ h₃ h₄ => exact .ip h₁ h₂ h₃ h₄

theorem Tunnelled.noPorts_iff : Tunnelled pi.noPorts ↔ Tunnelled pi :=
  ⟨fun h => ⟨h.1, h.2, h.3, h.4, h.5⟩, fun h => ⟨h.1, h.2, h.3, h.4, h.5⟩⟩

theorem GtpuCase.noPorts_iff : GtpuCase pi.noPorts ↔ GtpuCase pi := by
  constructor <;> intro h <;> cases h with
  | absent h₁ h₂ => exact .absent h₁ h₂
  | problem h₁ h₂ h₃ h₄ h₅ => exact .problem ⟨h₁.1, h₁.2, h₁.3, h₁.4, h₁.5⟩ h₂ h₃ h₄ h₅
  | signal h₁ h₂ h₃ h₄ h₅ => exact .signal ⟨h₁.1, h₁.2, h₁.3, h₁.4, h₁.5⟩ h₂ h₃ h₄ h₅
  | noUser h₁ h₂ h₃ h₄ h₅ h₆ =>
      exact .noUser ⟨h₁.1, h₁.2, h₁.3, h₁.4, h₁.5⟩ h₂ h₃ h₄ h₅ h₆
  | user h₁ h₂ h₃ h₄ h₅ h₆ h₇ =>
      exact .user ⟨h₁.1, h₁.2, h₁.3, h₁.4, h₁.5⟩ h₂ h₃ h₄ h₅ h₆ h₇

end Pcapstat
