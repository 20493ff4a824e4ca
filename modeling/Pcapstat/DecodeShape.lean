import Pcapstat.Decode

/-! # What the decoder can return

Every decoder of `Decode.lean` has a *shape*: the statuses it can end with, which of them leave
which layer flag set, and which fields of `packet_info` it does not touch.  The counters, the
flow rule and the tunnel rule all rely on these facts.

Frames are stated by erasing the fields a decoder may write: `pi'.noL4 = pi.noL4` says that
only transport fields differ. -/

namespace Pcapstat

open SpanWalk SpanWalk.Walk

/-! ### Groups of statuses -/

namespace DecodeStatus

/-- Reasons to stop before the ethertype is known. -/
def linkProblems : List DecodeStatus := [.truncEthernet, .truncVlan, .badShortFrame, .badVlanDepth]

/-- Reasons to stop before the IP header is valid. -/
def ipProblems : List DecodeStatus :=
  [.truncIpv4, .truncIpv6, .badShortFrame, .badIpv4Version, .badIpv4Ihl, .badIpv4TotalLen,
    .badIpv6Version, .badIpv6PayloadLen]

/-- Reasons to stop inside the IPv6 extension chain. -/
def extProblems : List DecodeStatus := [.truncIpv6Ext, .badIpv6Ext]

/-- Reasons to stop at the transport header. -/
def l4Problems : List DecodeStatus :=
  [.truncTcp, .truncUdp, .truncIcmp, .badL4Len, .badTcpDoff, .badUdpLen]

/-- Reasons to stop inside the GTP-U headers. -/
def gtpuProblems : List DecodeStatus :=
  [.truncGtpu, .truncGtpuExt, .badGtpuLen, .badGtpuExtLen, .badGtpuExt]

/-- Reasons to stop at the user packet that no other decoder gives. -/
def innerProblems : List DecodeStatus := [.truncGtpuInner, .badGtpuInner, .badGtpuInnerShort]

end DecodeStatus

/-- The protocols whose transport header is decoded. -/
def isTransport (proto : UInt8) : Bool :=
  proto = ipprotoTcp || proto = ipprotoUdp || proto = ipprotoIcmp || proto = ipprotoIcmpv6

/-! ### Erasing fields -/

namespace PacketInfo

/-- Without the transport fields. -/
def noL4 (pi : PacketInfo) : PacketInfo :=
  { pi with hasL4 := false, srcPort := 0, dstPort := 0, tcpFlags := 0, icmpType := 0, icmpCode := 0 }

/-- Without what comes after a valid IP header. -/
def noUpper (pi : PacketInfo) : PacketInfo :=
  { pi.noL4 with ipProto := 0, frag := .none, fragId := 0 }

/-- Without the network and transport fields. -/
def noIp (pi : PacketInfo) : PacketInfo :=
  { pi.noUpper with hasL3 := false, ipVersion := 0, srcAddr := .zero, dstAddr := .zero }

/-- The outer packet: without the GTP-U fields. -/
def outer (pi : PacketInfo) : PacketInfo :=
  { pi with
    isGtpu := false, gtpStatus := .ok, gtpV1u := false, gtpFlags := 0, gtpMsgType := 0
    gtpMsgOk := false, gtpSeq := 0, teid := 0, gtpExtCount := 0, hasInner := false
    innerHasL4 := false, gtpNested := false, innerVersion := 0, innerProto := 0
    innerSrc := .zero, innerDst := .zero, innerSrcPort := 0, innerDstPort := 0 }

/-- The GTP-U fields alone. -/
def tunnel (pi : PacketInfo) : PacketInfo :=
  { isGtpu := pi.isGtpu, gtpStatus := pi.gtpStatus, gtpV1u := pi.gtpV1u, gtpFlags := pi.gtpFlags
    gtpMsgType := pi.gtpMsgType, gtpMsgOk := pi.gtpMsgOk, gtpSeq := pi.gtpSeq, teid := pi.teid
    gtpExtCount := pi.gtpExtCount, hasInner := pi.hasInner, innerHasL4 := pi.innerHasL4
    gtpNested := pi.gtpNested, innerVersion := pi.innerVersion, innerProto := pi.innerProto
    innerSrc := pi.innerSrc, innerDst := pi.innerDst, innerSrcPort := pi.innerSrcPort
    innerDstPort := pi.innerDstPort }

/-- A field that `e` does not erase is the same in two values that `e` makes equal. -/
theorem eq_of_erase {β : Type} (e : PacketInfo → PacketInfo) (f : PacketInfo → β)
    (hf : ∀ q, f (e q) = f q) {a b : PacketInfo} (h : e a = e b) : f a = f b := by
  rw [← hf a, h, hf b]

/-- No IP layer has been decoded into `pi`. -/
structure Fresh (pi : PacketInfo) : Prop where
  hasL3 : pi.hasL3 = false
  hasL4 : pi.hasL4 = false
  frag : pi.frag = .none
  srcPort : pi.srcPort = 0
  dstPort : pi.dstPort = 0

theorem fresh_default : Fresh {} := ⟨rfl, rfl, rfl, rfl, rfl⟩

end PacketInfo

/-- `x` ends with a status, a span and a `packet_info` related by `S`. -/
def Ends (m : Mem) (x : Decoder Unit) (S : DecodeStatus → Span → PacketInfo → Prop) (s : Span)
    (pi : PacketInfo) : Prop :=
  wp (fun _ => True) m x (fun _ => S .ok) S s pi

variable {m : Mem} {s : Span} {pi : PacketInfo}

theorem Ends.result {x : Decoder Unit} {S : DecodeStatus → Span → PacketInfo → Prop}
    (h : Ends m x S s pi) :
    S (.ofRes (x.run m s pi).res) (x.run m s pi).s (x.run m s pi).out := by
  obtain ⟨hok, herr⟩ := wp_top_iff.mp h
  cases hr : (x.run m s pi).res with
  | ok a => exact hok a hr
  | error e => exact herr e hr

theorem Ends.mono {x : Decoder Unit} {S S' : DecodeStatus → Span → PacketInfo → Prop}
    (h : Ends m x S s pi) (hS : ∀ st s' pi', S st s' pi' → S' st s' pi') : Ends m x S' s pi :=
  wp_mono h (fun _ => hS .ok) hS

section ends

variable {S : DecodeStatus → Span → PacketInfo → Prop}

@[simp] theorem ends_bind {α : Type} {x : Decoder α} {f : α → Decoder Unit} :
    Ends m (x >>= f) S s pi ↔
      wp (fun _ => True) m x (fun a s' pi' => Ends m (f a) S s' pi') S s pi := wp_bind

@[simp] theorem ends_ite {c : Prop} {d : Decidable c} {x y : Decoder Unit} :
    Ends m (@ite _ c d x y) S s pi ↔ (c → Ends m x S s pi) ∧ (¬ c → Ends m y S s pi) := wp_ite c x y

@[simp] theorem ends_pure : Ends m (pure ()) S s pi ↔ S .ok s pi := wp_pure ()

@[simp] theorem ends_fail {e : DecodeStatus} : Ends m (fail e) S s pi ↔ S e s pi := wp_fail e

@[simp] theorem ends_modifyOut {f : PacketInfo → PacketInfo} :
    Ends m (modifyOut f) S s pi ↔ S .ok s (f pi) := wp_modifyOut f

@[simp] theorem ends_exitIf {c : Prop} {d : Decidable c} {e : DecodeStatus} :
    Ends m (@exitIf _ _ c d e) S s pi ↔ (¬ c → S .ok s pi) ∧ (c → S e s pi) := wp_exitIf c e

end ends

/-! ### Transport layer -/

/-- What `decodeL4` makes of `pi`. -/
structure L4Shape (pi : PacketInfo) (st : DecodeStatus) (pi' : PacketInfo) : Prop where
  frame : pi'.noL4 = pi.noL4
  status : st = .ok ∨ st ∈ DecodeStatus.l4Problems
  l4 : pi'.hasL4 = true ↔ st = .ok ∧ isTransport pi.ipProto = true
  ports : pi.ipProto ≠ ipprotoTcp → pi.ipProto ≠ ipprotoUdp →
    pi'.srcPort = pi.srcPort ∧ pi'.dstPort = pi.dstPort

theorem L4Shape.bad {st : DecodeStatus} {pi' : PacketInfo} (hst : st ∈ DecodeStatus.l4Problems)
    (hframe : pi'.noL4 = pi.noL4) (h4 : pi'.hasL4 = false)
    (hproto : pi.ipProto = ipprotoTcp ∨ pi.ipProto = ipprotoUdp ∨
      pi'.srcPort = pi.srcPort ∧ pi'.dstPort = pi.dstPort) : L4Shape pi st pi' where
  frame := hframe
  status := .inr hst
  l4 := by
    have hne : st ≠ .ok := by rintro rfl; revert hst; decide
    simp [h4, hne]
  ports htcp hudp := (hproto.resolve_left htcp).resolve_left hudp

theorem L4Shape.good {pi' : PacketInfo} (hframe : pi'.noL4 = pi.noL4)
    (h4 : pi'.hasL4 = isTransport pi.ipProto)
    (hproto : pi.ipProto = ipprotoTcp ∨ pi.ipProto = ipprotoUdp ∨
      pi'.srcPort = pi.srcPort ∧ pi'.dstPort = pi.dstPort) : L4Shape pi .ok pi' where
  frame := hframe
  status := .inl rfl
  l4 := by simp [h4]
  ports htcp hudp := (hproto.resolve_left htcp).resolve_left hudp

theorem decodeL4_shape (hpi : pi.hasL4 = false) :
    Ends m decodeL4 (fun st _ pi' => L4Shape pi st pi') s pi := by
  simp only [decodeL4, ends_bind, ends_ite, ends_pure, wp_getOut]
  refine ⟨fun htcp => ?_, fun htcp => ⟨fun hudp => ?_, fun hudp => ⟨fun hicmp => ?_, fun hicmp => ?_⟩⟩⟩
  · simp only [decodeTcp, ends_bind, ends_modifyOut, wp_need, wp_be16At, wp_load8, wp_modifyOut,
      wp_wireLeft, wp_exitIf, wp_requireCap, true_and]
    refine ⟨fun _ => ⟨fun _ => ⟨fun _ => ?_, fun _ => ?_⟩, fun _ => ?_⟩, fun _ _ => ?_, fun _ _ => ?_⟩
    · exact .good rfl (by simp [isTransport, htcp]) (.inl htcp)
    all_goals exact .bad (by decide) rfl hpi (.inl htcp)
  · simp only [decodeUdp, ends_bind, ends_ite, ends_modifyOut, wp_need, wp_be16At, wp_modifyOut,
      wp_wireLeft, wp_exitIf, wp_clip, true_and]
    refine ⟨fun _ => ⟨fun _ => ⟨fun _ => ?_, fun _ => ?_⟩, fun _ => ?_⟩, fun _ _ => ?_, fun _ _ => ?_⟩
    iterate 2 exact .good rfl (by simp [isTransport, hudp]) (.inr (.inl hudp))
    all_goals exact .bad (by decide) rfl hpi (.inr (.inl hudp))
  · simp only [decodeIcmp, ends_bind, ends_modifyOut, wp_need, wp_load8, true_and]
    refine ⟨fun _ => ?_, fun _ _ => ?_, fun _ _ => ?_⟩
    · exact .good rfl (by rcases hicmp with h | h <;> simp [isTransport, h]) (.inr (.inr ⟨rfl, rfl⟩))
    all_goals exact .bad (by decide) rfl hpi (.inr (.inr ⟨rfl, rfl⟩))
  · refine .good rfl ?_ (.inr (.inr ⟨rfl, rfl⟩))
    simp only [not_or] at hicmp
    simp [hpi, isTransport, htcp, hudp, hicmp]

/-! ### Network layer -/

/-- What the decoders past a valid IP header make of `pi`. -/
structure UpperShape (pi : PacketInfo) (st : DecodeStatus) (pi' : PacketInfo) : Prop where
  frame : pi'.noUpper = pi.noUpper
  status : st = .ok ∨ st ∈ DecodeStatus.extProblems ∨ st ∈ DecodeStatus.l4Problems
  l4 : pi'.hasL4 = true ↔ st = .ok ∧ pi'.frag ≠ .later ∧ isTransport pi'.ipProto = true
  later : pi'.frag = .later → st = .ok ∧ pi'.srcPort = 0 ∧ pi'.dstPort = 0
  ports : pi'.ipProto ≠ ipprotoTcp → pi'.ipProto ≠ ipprotoUdp → pi'.srcPort = 0 ∧ pi'.dstPort = 0

/-- Nothing of the transport layer has been decoded into `pi`. -/
structure PacketInfo.NoPorts (pi : PacketInfo) : Prop where
  hasL4 : pi.hasL4 = false
  srcPort : pi.srcPort = 0
  dstPort : pi.dstPort = 0

theorem L4Shape.upper {st : DecodeStatus} {pi' : PacketInfo} (h : L4Shape pi st pi')
    (hpi : pi.NoPorts) (hfrag : pi.frag ≠ .later) : UpperShape pi st pi' := by
  have hfrag' : pi'.frag = pi.frag :=
    PacketInfo.eq_of_erase PacketInfo.noL4 PacketInfo.frag (fun _ => rfl) h.frame
  have hproto : pi'.ipProto = pi.ipProto :=
    PacketInfo.eq_of_erase PacketInfo.noL4 PacketInfo.ipProto (fun _ => rfl) h.frame
  refine ⟨?_, h.status.imp_right .inr, ?_, ?_, ?_⟩
  · exact PacketInfo.eq_of_erase PacketInfo.noL4 PacketInfo.noUpper (fun _ => rfl) h.frame
  · rw [h.l4, hfrag', hproto]
    simp [hfrag]
  · intro hl
    exact absurd (hfrag' ▸ hl) hfrag
  · rw [hproto]
    intro htcp hudp
    obtain ⟨hs, hd⟩ := h.ports htcp hudp
    exact ⟨hs.trans hpi.srcPort, hd.trans hpi.dstPort⟩

theorem UpperShape.ext {st : DecodeStatus} {pi' : PacketInfo} (hst : st ∈ DecodeStatus.extProblems)
    (hframe : pi'.noUpper = pi.noUpper) (hpi : pi'.NoPorts) (hfrag : pi'.frag ≠ .later) :
    UpperShape pi st pi' where
  frame := hframe
  status := .inr (.inl hst)
  l4 := by
    have hne : st ≠ .ok := by rintro rfl; revert hst; decide
    simp [hpi.hasL4, hne]
  later h := absurd h hfrag
  ports _ _ := ⟨hpi.srcPort, hpi.dstPort⟩

theorem UpperShape.ofLater {pi' : PacketInfo} (hframe : pi'.noUpper = pi.noUpper)
    (hpi : pi'.NoPorts) (hfrag : pi'.frag = .later) : UpperShape pi .ok pi' where
  frame := hframe
  status := .inl rfl
  l4 := by simp [hpi.hasL4, hfrag]
  later _ := ⟨rfl, hpi.srcPort, hpi.dstPort⟩
  ports _ _ := ⟨hpi.srcPort, hpi.dstPort⟩

theorem UpperShape.of_frame {st : DecodeStatus} {pi₁ pi' : PacketInfo} (h : UpperShape pi₁ st pi')
    (hframe : pi₁.noUpper = pi.noUpper) : UpperShape pi st pi' :=
  ⟨h.frame.trans hframe, h.status, h.l4, h.later, h.ports⟩

theorem decodeUpper_shape (hpi : pi.NoPorts) (hfrag : pi.frag ≠ .later) (next : UInt8) :
    Ends m (decodeUpper next) (fun st _ pi' => UpperShape pi st pi') s pi := by
  simp only [decodeUpper, ends_bind, wp_modifyOut]
  refine Ends.mono (decodeL4_shape hpi.hasL4) fun st _ pi' h => ?_
  exact (h.upper ⟨hpi.hasL4, hpi.srcPort, hpi.dstPort⟩ hfrag).of_frame rfl

theorem decodeIpv6Chain_shape : ∀ (left : ℕ) (next : UInt8) {s : Span} {pi : PacketInfo},
    pi.NoPorts → pi.frag ≠ .later →
      Ends m (decodeIpv6Chain left next) (fun st _ pi' => UpperShape pi st pi') s pi
  | 0, next, s, pi, hpi, hfrag => by
      simp only [decodeIpv6Chain, ends_ite, ends_fail]
      exact ⟨fun _ => .ext (by decide) rfl hpi hfrag, fun _ => decodeUpper_shape hpi hfrag next⟩
  | left + 1, next, s, pi, hpi, hfrag => by
      have hext : ∀ {st}, st ∈ DecodeStatus.extProblems → UpperShape pi st pi := fun hst =>
        .ext hst rfl hpi hfrag
      simp only [decodeIpv6Chain, ends_ite, ends_bind, ends_modifyOut, wp_need, wp_be16At, wp_be32At,
        wp_modifyOut, wp_load8, wp_advance, wp_getOut, true_and]
      refine ⟨fun _ => ⟨fun _ => ⟨fun _ => ⟨fun hl => ?_, fun hl => ?_⟩, fun _ _ => hext (by decide),
        fun _ _ => hext (by decide)⟩, fun _ => ⟨fun _ => ⟨fun _ => ?_, fun _ _ => hext (by decide),
        fun _ _ => hext (by decide)⟩, fun _ _ => hext (by decide), fun _ _ => hext (by decide)⟩⟩,
        fun _ => decodeUpper_shape hpi hfrag next⟩
      · exact .ofLater rfl ⟨hpi.hasL4, hpi.srcPort, hpi.dstPort⟩ hl
      · refine Ends.mono (decodeIpv6Chain_shape left _ ⟨hpi.hasL4, hpi.srcPort, hpi.dstPort⟩ hl) ?_
        exact fun _ _ _ h => h.of_frame rfl
      · exact decodeIpv6Chain_shape left _ hpi hfrag

/-- What an IP decoder makes of a fresh `pi`. -/
inductive IpShape (pi : PacketInfo) : DecodeStatus → PacketInfo → Prop where
  /-- the IP header is not valid, and nothing was written -/
  | header {st : DecodeStatus} : st ∈ DecodeStatus.ipProblems → IpShape pi st pi
  /-- the IP header is valid, and filled in `pi₁` -/
  | upper {st : DecodeStatus} {pi₁ pi' : PacketInfo} : pi₁.noIp = pi.noIp → pi₁.hasL3 = true →
      (pi₁.ipVersion = 4 ∨ pi₁.ipVersion = 6) → UpperShape pi₁ st pi' → IpShape pi st pi'

/-- A valid IP header, filled in `pi'`, and nothing past it. -/
structure HeaderShape (pi pi' : PacketInfo) : Prop where
  frame : pi'.noIp = pi.noIp
  l3 : pi'.hasL3 = true
  version : pi'.ipVersion = 4 ∨ pi'.ipVersion = 6
  ports : pi'.NoPorts

theorem decodeIpv4Header_shape (hpi : pi.Fresh) :
    wp (fun _ => True) m decodeIpv4Header (fun _ _ pi' => HeaderShape pi pi')
      (fun e _ pi' => e ∈ DecodeStatus.ipProblems ∧ pi' = pi) s pi := by
  simp only [decodeIpv4Header, wp_bind, wp_need, wp_load8, wp_exitIf, wp_be16At, wp_wireLeft,
    wp_requireCap, wp_loadBytes, wp_modifyOut, wp_clip, wp_advance, true_and, implies_true]
  refine ⟨fun _ => ⟨fun _ => ⟨fun _ => ⟨fun _ => ⟨fun _ => ?_, fun _ => ?_⟩, fun _ => ?_⟩, fun _ => ?_⟩,
    fun _ => ?_⟩, fun _ _ => ?_, fun _ _ => ?_⟩
  · exact ⟨rfl, rfl, .inl rfl, hpi.hasL4, hpi.srcPort, hpi.dstPort⟩
  all_goals decide

theorem decodeIpv6Header_shape (hpi : pi.Fresh) :
    wp (fun _ => True) m decodeIpv6Header (fun _ _ pi' => HeaderShape pi pi' ∧ pi'.frag = .none)
      (fun e _ pi' => e ∈ DecodeStatus.ipProblems ∧ pi' = pi) s pi := by
  simp only [decodeIpv6Header, wp_bind, wp_need, wp_load8, wp_exitIf, wp_be16At, wp_wireMinus,
    wp_loadBytes, wp_modifyOut, wp_advance, wp_clip, wp_pure, true_and, implies_true]
  refine ⟨fun _ => ⟨fun _ => ⟨fun _ => ?_, fun _ => ?_⟩, fun _ => ?_⟩, fun _ _ => ?_, fun _ _ => ?_⟩
  · exact ⟨⟨rfl, rfl, .inr rfl, hpi.hasL4, hpi.srcPort, hpi.dstPort⟩, hpi.frag⟩
  all_goals decide

theorem decodeIpv4_shape (hpi : pi.Fresh) :
    Ends m decodeIpv4 (fun st _ pi' => IpShape pi st pi') s pi := by
  simp only [decodeIpv4, ends_bind]
  refine wp_mono (decodeIpv4Header_shape hpi) (fun _ s' pi₁ h => ?_) fun e _ pi' h => ?_
  · simp only [wp_getOut, ends_ite, ends_pure]
    refine ⟨fun hl => .upper h.frame h.l3 h.version (.ofLater rfl h.ports hl), fun hl => ?_⟩
    apply Ends.mono (decodeL4_shape h.ports.hasL4)
    intro st _ pi' h'
    exact .upper h.frame h.l3 h.version (h'.upper h.ports hl)
  · obtain ⟨he, rfl⟩ := h
    exact .header he

theorem decodeIpv6_shape (hpi : pi.Fresh) :
    Ends m decodeIpv6 (fun st _ pi' => IpShape pi st pi') s pi := by
  simp only [decodeIpv6, ends_bind]
  refine wp_mono (decodeIpv6Header_shape hpi) (fun next s' pi₁ h => ?_) fun e _ pi' h => ?_
  · obtain ⟨h, hfrag⟩ := h
    apply Ends.mono (decodeIpv6Chain_shape _ next h.ports (by simp [hfrag]))
    intro st _ pi' h'
    exact .upper h.frame h.l3 h.version h'
  · obtain ⟨he, rfl⟩ := h
    exact .header he

/-! ### GTP-U -/

/-- Without what `decode_gtpu` reads from the GTP-U headers. -/
def PacketInfo.noGtpu (pi : PacketInfo) : PacketInfo :=
  { pi with
    gtpV1u := false, gtpFlags := 0, gtpMsgType := 0, gtpMsgOk := false, gtpSeq := 0, teid := 0
    gtpExtCount := 0 }

theorem decodeGtpuOpt_shape (flags : UInt8) :
    wp (fun _ => True) m (decodeGtpuOpt flags)
      (fun _ _ pi' => ∃ seq, pi' = { pi with gtpSeq := seq })
      (fun e _ pi' => e ∈ DecodeStatus.gtpuProblems ∧ pi' = pi) s pi := by
  simp only [decodeGtpuOpt, wp_ite, wp_bind, wp_need, wp_be16At, wp_modifyOut, wp_load8, wp_advance,
    wp_pure, true_and]
  refine ⟨fun _ => ⟨fun _ => ⟨fun _ => ⟨fun _ => ⟨_, rfl⟩, fun _ => ⟨_, rfl⟩⟩,
    fun _ => ⟨fun _ => ⟨_, rfl⟩, fun _ => ⟨_, rfl⟩⟩⟩, fun _ _ => ?_, fun _ _ => ?_⟩,
    fun _ => ⟨_, rfl⟩⟩
  all_goals exact ⟨by decide, trivial⟩

theorem decodeGtpuExts_shape : ∀ (left hops : ℕ) (next : UInt8) {s : Span} {pi : PacketInfo},
    wp (fun _ => True) m (decodeGtpuExts left hops next)
      (fun _ _ pi' => ∃ k, pi' = { pi with gtpExtCount := k })
      (fun e _ pi' => e ∈ DecodeStatus.gtpuProblems ∧ ∃ k, pi' = { pi with gtpExtCount := k }) s pi
  | 0, hops, next, s, pi => by
      simp only [decodeGtpuExts, wp_exitIf]
      exact ⟨fun _ => ⟨pi.gtpExtCount, rfl⟩, fun _ => ⟨by decide, pi.gtpExtCount, rfl⟩⟩
  | left + 1, hops, next, s, pi => by
      have bad : ∀ {st}, st ∈ DecodeStatus.gtpuProblems →
          st ∈ DecodeStatus.gtpuProblems ∧ ∃ k, pi = { pi with gtpExtCount := k } :=
        fun h => ⟨h, pi.gtpExtCount, rfl⟩
      simp only [decodeGtpuExts, wp_ite, wp_bind, wp_need, wp_load8, wp_exitIf, wp_advance,
        wp_modifyOut, wp_pure, true_and]
      refine ⟨fun _ => ⟨pi.gtpExtCount, rfl⟩, fun _ => ⟨fun _ => ⟨fun _ => ⟨fun _ => ?_,
        fun _ _ => bad (by decide), fun _ _ => bad (by decide)⟩, fun _ => bad (by decide)⟩,
        fun _ _ => bad (by decide), fun _ _ => bad (by decide)⟩⟩
      refine wp_mono (decodeGtpuExts_shape left (hops + 1) _) (fun _ _ _ h => ?_) fun _ _ _ h => ?_
      · obtain ⟨k, rfl⟩ := h
        exact ⟨k, rfl⟩
      · obtain ⟨he, k, rfl⟩ := h
        exact ⟨he, k, rfl⟩

/-- The GTP-U headers are read, and a user packet follows if `b`. -/
structure GtpuDone (pi : PacketInfo) (b : Bool) (pi' : PacketInfo) : Prop where
  frame : pi'.noGtpu = pi.noGtpu
  msgOk : pi'.gtpMsgOk = pi'.gtpV1u
  user : b = true ↔ pi'.gtpV1u = true ∧ pi'.gtpMsgType = gtpuMsgGpdu

/-- The GTP-U headers end with problem `st`. -/
structure GtpuProblem (pi : PacketInfo) (st : DecodeStatus) (pi' : PacketInfo) : Prop where
  frame : pi'.noGtpu = pi.noGtpu
  status : st ∈ DecodeStatus.gtpuProblems
  msgOk : pi'.gtpMsgOk = false
  v1u : pi'.gtpV1u = false → st = .truncGtpu

/-- `decode_frame` calls `decode_gtpu` only where the 8-byte header fits in `wire`. -/
theorem decodeGtpuHeaders_shape (hwire : gtpuHdrLen ≤ s.wire) (hv : pi.gtpV1u = false)
    (hok : pi.gtpMsgOk = false) :
    wp (fun _ => True) m decodeGtpuHeaders (fun b _ pi' => GtpuDone pi b pi')
      (fun e _ pi' => GtpuProblem pi e pi') s pi := by
  simp only [decodeGtpuHeaders, wp_bind, wp_need, wp_load8, wp_ite, wp_pure, wp_be16At, wp_be32At,
    wp_modifyOut, wp_wireMinus, wp_exitIf, wp_advance, wp_clip, true_and]
  refine ⟨fun _ => ⟨fun _ => ?_, fun _ => ⟨fun _ => ?_, fun _ => ?_⟩⟩, fun _ _ => ?_, fun _ h => ?_⟩
  · exact ⟨rfl, by rw [hok, hv], by simp [hv]⟩
  · refine wp_mono (decodeGtpuOpt_shape _) (fun next s' pi' h => ?_) fun e s' pi' h => ?_
    · obtain ⟨seq, rfl⟩ := h
      refine wp_mono (decodeGtpuExts_shape _ 0 next) (fun _ _ _ h => ?_) fun e _ _ h => ?_
      · obtain ⟨k, rfl⟩ := h
        exact ⟨rfl, rfl, by simp⟩
      · obtain ⟨he, k, rfl⟩ := h
        exact ⟨rfl, he, hok, by simp⟩
    · obtain ⟨he, rfl⟩ := h
      exact ⟨rfl, he, hok, by simp⟩
  · exact ⟨rfl, by decide, hok, by simp⟩
  · exact ⟨rfl, by decide, hok, fun _ => rfl⟩
  · exact absurd hwire (Nat.not_le_of_lt h)

/-- The status of a user packet that its IP decoder ended with `st`. -/
def userStatus (st : DecodeStatus) : DecodeStatus :=
  if st = .badShortFrame then .badGtpuInnerShort else st

/-- What `decodeGtpuInner` makes of `pi`. -/
inductive UserShape (pi : PacketInfo) : DecodeStatus → PacketInfo → Prop where
  /-- there is no IP packet -/
  | absent {st : DecodeStatus} : st = .truncGtpuInner ∨ st = .badGtpuInner → UserShape pi st pi
  /-- the user packet was decoded into `inn` -/
  | packet {st : DecodeStatus} {inn : PacketInfo} : IpShape {} st inn →
      UserShape pi (userStatus st) (pi.setInner inn)

theorem decodeGtpuInner_shape : Ends m decodeGtpuInner (fun st _ pi' => UserShape pi st pi') s pi := by
  simp only [decodeGtpuInner, exitWith, ends_bind, ends_exitIf, wp_need, wp_load8, wp_exitIf,
    wp_scratch, wp_modifyOut, true_and]
  refine ⟨fun _ => ⟨fun _ => ?_, fun _ => .absent (.inr rfl)⟩, fun _ _ => .absent (.inl rfl),
    fun _ _ => .absent (.inr rfl)⟩
  have hin : Ends m (if m (s.p + 0) >>> 4 = 4 then decodeIpv4 else decodeIpv6)
      (fun st _ inn => IpShape {} st inn) s {} := by
    split_ifs
    · exact decodeIpv4_shape PacketInfo.fresh_default
    · exact decodeIpv6_shape PacketInfo.fresh_default
  apply wp_mono hin (fun _ s' inn h => ⟨fun _ => .packet h, fun _ => .packet h⟩)
  intro e s' inn h
  refine ⟨fun hst => ?_, fun _ => .packet h⟩
  have h' : UserShape pi (userStatus e) (pi.setInner inn) := .packet h
  rwa [show userStatus e = .ok from Decidable.not_not.mp hst] at h'

/-- What `decodeGtpu` makes of a `pi` without GTP-U fields. -/
inductive GtpuShape (pi : PacketInfo) : DecodeStatus → PacketInfo → Prop where
  /-- the headers are not valid -/
  | problem {st : DecodeStatus} {pi' : PacketInfo} : GtpuProblem pi st pi' → GtpuShape pi st pi'
  /-- the message carries no user packet -/
  | signal {pi' : PacketInfo} : GtpuDone pi false pi' → GtpuShape pi .ok pi'
  /-- the message is a G-PDU -/
  | gpdu {st : DecodeStatus} {pi₁ pi' : PacketInfo} : GtpuDone pi true pi₁ → UserShape pi₁ st pi' →
      GtpuShape pi st pi'

theorem decodeGtpu_shape (hwire : gtpuHdrLen ≤ s.wire) (hv : pi.gtpV1u = false)
    (hok : pi.gtpMsgOk = false) :
    Ends m decodeGtpu (fun st _ pi' => GtpuShape pi st pi') s pi := by
  simp only [decodeGtpu, ends_bind]
  refine wp_mono (decodeGtpuHeaders_shape hwire hv hok) (fun b s' pi₁ h => ?_) fun e _ pi' h => .problem h
  simp only [ends_ite, ends_pure]
  refine ⟨fun hb => ?_, fun hb => ?_⟩
  · exact Ends.mono decodeGtpuInner_shape fun st _ pi' h' => .gpdu (hb ▸ h) h'
  · rw [Bool.not_eq_true] at hb
    exact .signal (hb ▸ h)

/-- Without what the user packet determines. -/
def PacketInfo.noUser (pi : PacketInfo) : PacketInfo :=
  { pi with
    gtpStatus := .ok, hasInner := false, innerHasL4 := false, gtpNested := false, innerVersion := 0
    innerProto := 0, innerSrc := .zero, innerDst := .zero, innerSrcPort := 0, innerDstPort := 0 }

theorem UserShape.frame {st : DecodeStatus} {pi' : PacketInfo} (h : UserShape pi st pi') :
    pi'.noUser = pi.noUser := by
  cases h with
  | absent _ => rfl
  | packet _ => rfl

/-- What is known before the GTP-U message is looked at. -/
def PacketInfo.envelope (pi : PacketInfo) : PacketInfo := { pi.outer with isGtpu := pi.isGtpu }

theorem GtpuShape.frame {st : DecodeStatus} {pi' : PacketInfo} (h : GtpuShape pi st pi') :
    pi'.envelope = pi.envelope := by
  have done : ∀ {b pi'}, GtpuDone pi b pi' → pi'.envelope = pi.envelope := fun h =>
    PacketInfo.eq_of_erase PacketInfo.noGtpu PacketInfo.envelope (fun _ => rfl) h.frame
  cases h with
  | problem h => exact PacketInfo.eq_of_erase PacketInfo.noGtpu PacketInfo.envelope (fun _ => rfl) h.frame
  | signal h => exact done h
  | gpdu h h' =>
      exact (PacketInfo.eq_of_erase PacketInfo.noUser PacketInfo.envelope (fun _ => rfl) h'.frame).trans
        (done h)

/-! ### Frame -/

/-- Without the VLAN fields. -/
def PacketInfo.noVlan (pi : PacketInfo) : PacketInfo := { pi with vlanCount := 0, vlanIds := [0, 0] }

theorem decodeVlans_shape : ∀ (left : ℕ) (type : UInt16) {s : Span} {pi : PacketInfo},
    wp (fun _ => True) m (decodeVlans left type) (fun _ _ pi' => pi'.noVlan = pi.noVlan)
      (fun e _ pi' => e ∈ DecodeStatus.linkProblems ∧ pi'.noVlan = pi.noVlan) s pi
  | 0, type, s, pi => by
      simp only [decodeVlans, wp_ite, wp_fail, wp_pure]
      exact ⟨fun _ => ⟨by decide, trivial⟩, fun _ => trivial⟩
  | left + 1, type, s, pi => by
      simp only [decodeVlans, wp_ite, wp_bind, wp_need, wp_be16At, wp_modifyOut, wp_advance, wp_pure,
        true_and]
      refine ⟨fun _ => ⟨fun _ => ?_, fun _ _ => ⟨by decide, trivial⟩, fun _ _ => ⟨by decide, trivial⟩⟩,
        fun _ => trivial⟩
      exact wp_mono (decodeVlans_shape left _) (fun _ _ _ h => h) fun _ _ _ h => h

theorem decodeL2_shape :
    wp (fun _ => True) m decodeL2
      (fun type _ pi' => pi'.noVlan = { pi with ethertype := type, hasL2 := true }.noVlan)
      (fun e _ pi' => e ∈ DecodeStatus.linkProblems ∧ pi'.noVlan = pi.noVlan) s pi := by
  simp only [decodeL2, wp_bind, wp_need, wp_be16At, wp_advance, wp_modifyOut, wp_pure, true_and]
  refine ⟨fun _ => ?_, fun _ _ => ⟨by decide, trivial⟩, fun _ _ => ⟨by decide, trivial⟩⟩
  refine wp_mono (decodeVlans_shape _ _) (fun type _ pi' h => ?_) fun _ _ _ h => h
  exact congrArg (fun q : PacketInfo => { q with ethertype := type, hasL2 := true }) h

/-- What `decodeOuter` makes of an empty `packet_info`. -/
inductive OuterShape : DecodeStatus → PacketInfo → Prop where
  /-- the ethertype is not known -/
  | link {st : DecodeStatus} {pi' : PacketInfo} : st ∈ DecodeStatus.linkProblems →
      pi'.noVlan = {} → OuterShape st pi'
  /-- the frame carries something other than IP -/
  | nonIp {type : UInt16} {pi' : PacketInfo} : type ≠ ethertypeIpv4 → type ≠ ethertypeIpv6 →
      pi'.noVlan = { ethertype := type, hasL2 := true } → OuterShape .ok pi'
  /-- the frame carries IP -/
  | ip {st : DecodeStatus} {type : UInt16} {pi₁ pi' : PacketInfo} :
      type = ethertypeIpv4 ∨ type = ethertypeIpv6 →
      pi₁.noVlan = { ethertype := type, hasL2 := true } → IpShape pi₁ st pi' → OuterShape st pi'

theorem decodeOuter_shape : Ends m decodeOuter (fun st _ pi' => OuterShape st pi') s {} := by
  simp only [decodeOuter, ends_bind]
  refine wp_mono decodeL2_shape (fun type s' pi₁ h => ?_) fun e _ pi' h => .link h.1 h.2
  have hfresh : pi₁.Fresh :=
    ⟨PacketInfo.eq_of_erase _ PacketInfo.hasL3 (fun _ => rfl) h,
      PacketInfo.eq_of_erase _ PacketInfo.hasL4 (fun _ => rfl) h,
      PacketInfo.eq_of_erase _ PacketInfo.frag (fun _ => rfl) h,
      PacketInfo.eq_of_erase _ PacketInfo.srcPort (fun _ => rfl) h,
      PacketInfo.eq_of_erase _ PacketInfo.dstPort (fun _ => rfl) h⟩
  simp only [ends_ite, ends_pure]
  refine ⟨fun h4 => ?_, fun h4 => ⟨fun h6 => ?_, fun h6 => .nonIp h4 h6 h⟩⟩
  · exact Ends.mono (decodeIpv4_shape hfresh) fun _ _ _ h' => .ip (.inl h4) h h'
  · exact Ends.mono (decodeIpv6_shape hfresh) fun _ _ _ h' => .ip (.inr h6) h h'

theorem UpperShape.tunnel {st : DecodeStatus} {pi' : PacketInfo} (h : UpperShape pi st pi') :
    pi'.tunnel = pi.tunnel :=
  PacketInfo.eq_of_erase PacketInfo.noUpper PacketInfo.tunnel (fun _ => rfl) h.frame

theorem IpShape.tunnel {st : DecodeStatus} {pi' : PacketInfo} (h : IpShape pi st pi') :
    pi'.tunnel = pi.tunnel := by
  cases h with
  | header _ => rfl
  | upper h₁ _ _ h₂ =>
      exact h₂.tunnel.trans (PacketInfo.eq_of_erase PacketInfo.noIp PacketInfo.tunnel (fun _ => rfl) h₁)

theorem OuterShape.tunnel {st : DecodeStatus} (h : OuterShape st pi) : pi.tunnel = {} := by
  cases h with
  | link _ h => exact PacketInfo.eq_of_erase _ PacketInfo.tunnel (fun _ => rfl) h
  | nonIp _ _ h => exact PacketInfo.eq_of_erase _ PacketInfo.tunnel (fun _ => rfl) h
  | ip _ h h' =>
      exact h'.tunnel.trans (PacketInfo.eq_of_erase _ PacketInfo.tunnel (fun _ => rfl) h)

/-- What `decodeFrame` can return. -/
inductive FrameShape : PacketInfo → Prop where
  /-- no GTP-U message was looked at -/
  | plain {st : DecodeStatus} {pi₀ : PacketInfo} : OuterShape st pi₀ →
      FrameShape { pi₀ with status := st }
  /-- the datagram was decoded as GTP-U -/
  | tunnel {st : DecodeStatus} {pi₀ pi₁ : PacketInfo} : OuterShape .ok pi₀ → pi₀.frag = .none →
      decodeIsGtpuPort pi₀ = true → GtpuShape { pi₀ with status := .ok, isGtpu := true } st pi₁ →
      FrameShape { pi₁ with gtpStatus := st }

theorem decodeTunnel_shape {st : DecodeStatus} (h : OuterShape st pi) :
    Ends m decodeTunnel (fun _ _ pi' => FrameShape pi') s { pi with status := st } := by
  simp only [decodeTunnel, ends_bind, ends_ite, wp_getOut, wp_wireLeft, wp_modifyOut, wp_advance,
    wp_attempt, ends_modifyOut, ends_pure, true_and]
  refine ⟨fun hc => ?_, fun _ => .plain h⟩
  obtain ⟨rfl, hfrag, hport, hwire⟩ := hc
  have htun := h.tunnel
  have hshape := @decodeGtpu_shape m ⟨s.p + udpHdrLen, s.cap - udpHdrLen, s.wire - udpHdrLen⟩
    { pi with status := .ok, isGtpu := true } (Nat.le_sub_of_add_le' hwire)
    (congrArg PacketInfo.gtpV1u htun) (congrArg PacketInfo.gtpMsgOk htun)
  exact wp_mono hshape (fun _ _ _ h' => .tunnel h hfrag hport h') fun _ _ _ h' => .tunnel h hfrag hport h'

/-- **Every result of the frame decoder has the shape of a frame.** -/
theorem decodeFrame_shape (frame : Mem) (caplen wirelen : ℕ) :
    FrameShape (decodeFrame frame caplen wirelen) := by
  refine Ends.result (S := fun _ _ pi' => FrameShape pi') ?_
  simp only [frameWalk, ends_bind, wp_attempt, wp_modifyOut]
  exact wp_mono decodeOuter_shape (fun _ _ _ h => decodeTunnel_shape h) fun _ _ _ h => decodeTunnel_shape h

/-- The GTP-U headers are in order only in a GTPv1-U message. -/
theorem FrameShape.v1u_of_msgOk (h : FrameShape pi) (hok : pi.gtpMsgOk = true) : pi.gtpV1u = true := by
  cases h with
  | plain h => exact absurd ((congrArg PacketInfo.gtpMsgOk h.tunnel).symm.trans hok) Bool.false_ne_true
  | tunnel _ _ _ h =>
      cases h with
      | problem h => exact absurd (h.msgOk.symm.trans hok) Bool.false_ne_true
      | signal h => exact h.msgOk.symm.trans hok
      | gpdu h h' =>
          exact (PacketInfo.eq_of_erase PacketInfo.noUser PacketInfo.gtpV1u (fun _ => rfl) h'.frame).trans
            (h.user.mp rfl).1

end Pcapstat
