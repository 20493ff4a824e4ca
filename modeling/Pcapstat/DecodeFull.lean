import Pcapstat.DecodeCut

/-! # Frames captured in full

When the whole frame was captured, `cap = wire` holds on every span the decoder stands on: the
lengths it clips to have been checked against `wire`, and `advance` takes the same from both.
So no check can blame the capture, and the tests "beyond `cap`" for IPv4 and TCP options are
never reached. -/

namespace Pcapstat

open SpanWalk SpanWalk.Walk

/-- Every span the walk stands on was captured in full. -/
def Level : Event → Prop
  | .at s => s.cap = s.wire
  | _ => True

@[simp] theorem level_read (i : ℕ) : Level (.read i) ↔ True := Iff.rfl
@[simp] theorem level_sub (a b : ℕ) : Level (.sub a b) ↔ True := Iff.rfl
@[simp] theorem level_at (s : Span) : Level (.at s) ↔ s.cap = s.wire := Iff.rfl

/-- A status that does not blame the capture. -/
def Blameless (st : DecodeStatus) : Prop := decodeStatusIsTruncation st = false

section full

variable {m : Mem} {s : Span} {pi : PacketInfo}

/-- On a span captured in full, `x` stays on such spans and never blames the capture. -/
def Full {α : Type} (m : Mem) (x : Decoder α) (s : Span) (pi : PacketInfo) : Prop :=
  wp Level m x (fun _ s' _ => s'.cap = s'.wire) (fun e s' _ => Blameless e ∧ s'.cap = s'.wire) s pi

theorem full_decodeL4 (hs : s.cap = s.wire) : Full m decodeL4 s pi := by
  simp only [Full, decodeL4, wp_bind, wp_getOut, wp_ite, wp_pure]
  refine ⟨fun _ => ?_, fun _ => ⟨fun _ => ?_, fun _ => ⟨fun _ => ?_, fun _ => hs⟩⟩⟩
  · simp only [decodeTcp, wp_bind, wp_need, wp_be16At, wp_load8, wp_modifyOut, wp_wireLeft, wp_exitIf,
      wp_requireCap, level_read, true_and]
    refine ⟨fun _ => ⟨fun hlen => ⟨fun _ => hs, fun _ => ?_⟩, fun _ => ⟨rfl, hs⟩⟩,
      fun _ _ => ?_, fun _ _ => ⟨rfl, hs⟩⟩
      <;> omega
  · simp only [decodeUdp, wp_bind, wp_need, wp_be16At, wp_modifyOut, wp_wireLeft, wp_exitIf, wp_ite,
      wp_clip, level_read, level_at, true_and]
    refine ⟨fun _ => ⟨fun hlen => ⟨fun hf => ?_, fun _ => hs⟩, fun _ => ⟨rfl, hs⟩⟩,
      fun _ _ => ?_, fun _ _ => ⟨rfl, hs⟩⟩
    · simp only [hf, true_and, not_or, not_lt] at hlen
      constructor <;> omega
    · omega
  · simp only [decodeIcmp, wp_bind, wp_need, wp_load8, wp_modifyOut, level_read, true_and]
    exact ⟨fun _ => hs, fun _ _ => by omega, fun _ _ => ⟨rfl, hs⟩⟩

theorem full_decodeIpv4Header (hs : s.cap = s.wire) : Full m decodeIpv4Header s pi := by
  simp only [Full, decodeIpv4Header, wp_bind, wp_need, wp_load8, wp_exitIf, wp_be16At, wp_wireLeft,
    wp_requireCap, wp_loadBytes, wp_modifyOut, wp_clip, wp_advance, level_read, level_sub, level_at,
    true_and, implies_true]
  generalize (if (be16 m (s.p + 2)).toNat = 0 then s.wire else (be16 m (s.p + 2)).toNat) = total
  refine ⟨fun _ => ⟨fun _ => ⟨fun _ => ⟨fun _ => ⟨fun _ => ?_, fun _ => ?_⟩, fun _ => ⟨rfl, hs⟩⟩,
    fun _ => ⟨rfl, hs⟩⟩,
    fun _ => ⟨rfl, hs⟩⟩, fun _ _ => ?_, fun _ _ => ⟨rfl, hs⟩⟩
  · refine ⟨?_, ?_, ?_⟩ <;> omega
  all_goals omega

theorem full_decodeIpv4 (hs : s.cap = s.wire) : Full m decodeIpv4 s pi := by
  simp only [Full, decodeIpv4, wp_bind]
  refine wp_mono (full_decodeIpv4Header hs) (fun _ s' pi' h => ?_) fun _ _ _ h => h
  simp only [wp_getOut, wp_ite, wp_pure]
  exact ⟨fun _ => h, fun _ => full_decodeL4 h⟩

theorem full_decodeUpper (hs : s.cap = s.wire) (next : UInt8) : Full m (decodeUpper next) s pi := by
  simp only [Full, decodeUpper, wp_bind, wp_modifyOut]
  exact full_decodeL4 hs

theorem full_decodeIpv6Chain : ∀ (left : ℕ) (next : UInt8) {s : Span} {pi : PacketInfo},
    s.cap = s.wire → Full m (decodeIpv6Chain left next) s pi
  | 0, next, s, pi, hs => by
      simp only [Full, decodeIpv6Chain, wp_ite, wp_fail]
      exact ⟨fun _ => ⟨rfl, hs⟩, fun _ => full_decodeUpper hs next⟩
  | left + 1, next, s, pi, hs => by
      have ih := fun next' => @full_decodeIpv6Chain left next'
      simp only [Full, decodeIpv6Chain, wp_ite, wp_bind, wp_need, wp_be16At, wp_be32At, wp_modifyOut,
        wp_load8, wp_advance, wp_getOut, level_read, level_sub, level_at, true_and]
      refine ⟨fun _ => ⟨fun _ => ⟨fun _ => ?_, fun _ _ => by omega, fun _ _ => ⟨rfl, hs⟩⟩,
        fun _ => ⟨fun _ => ⟨fun _ => ?_, fun _ _ => by omega, fun _ _ => ⟨rfl, hs⟩⟩, fun _ _ => by omega,
          fun _ _ => ⟨rfl, hs⟩⟩⟩, fun _ => full_decodeUpper hs next⟩
      · exact ⟨by omega, fun _ => by omega, fun _ => ih _ (congrArg (· - ipv6FragLen) hs)⟩
      · exact ⟨by omega, ih _ (congrArg (· - _) hs)⟩

theorem full_decodeIpv6Header (hs : s.cap = s.wire) : Full m decodeIpv6Header s pi := by
  simp only [Full, decodeIpv6Header, wp_bind, wp_need, wp_load8, wp_exitIf, wp_be16At, wp_wireMinus,
    wp_loadBytes, wp_modifyOut, wp_advance, wp_clip, wp_pure, level_read, level_sub, level_at, true_and,
    implies_true]
  refine ⟨fun _ => ⟨fun _ => ⟨fun _ => ?_, fun _ => ⟨rfl, hs⟩⟩, fun _ => ⟨rfl, hs⟩⟩,
    fun _ _ => by omega, fun _ _ => ⟨rfl, hs⟩⟩
  refine ⟨?_, ?_, ?_⟩ <;> omega

theorem full_decodeIpv6 (hs : s.cap = s.wire) : Full m decodeIpv6 s pi := by
  simp only [Full, decodeIpv6, wp_bind]
  exact wp_mono (full_decodeIpv6Header hs) (fun next _ _ h => full_decodeIpv6Chain _ next h)
    fun _ _ _ h => h

theorem Blameless.userStatus {st : DecodeStatus} (h : Blameless st) : Blameless (userStatus st) := by
  rw [Pcapstat.userStatus]
  split_ifs
  · rfl
  · exact h

theorem full_decodeGtpuInner (hs : s.cap = s.wire) : Full m decodeGtpuInner s pi := by
  simp only [Full, decodeGtpuInner, exitWith, wp_bind, wp_need, wp_load8, wp_exitIf, wp_scratch,
    wp_modifyOut, level_read, true_and]
  refine ⟨fun _ => ⟨fun _ => ?_, fun _ => ⟨rfl, hs⟩⟩, fun _ _ => by omega, fun _ _ => ⟨rfl, hs⟩⟩
  have hin : Full m (if m (s.p + 0) >>> 4 = 4 then decodeIpv4 else decodeIpv6) s {} := by
    split_ifs
    · exact full_decodeIpv4 hs
    · exact full_decodeIpv6 hs
  apply wp_mono hin (fun _ s' _ h => ⟨fun _ => h, fun _ => ⟨rfl, h⟩⟩)
  intro e s' _ h
  exact ⟨fun _ => h.2, fun _ => ⟨h.1.userStatus, h.2⟩⟩

theorem full_decodeGtpuExts : ∀ (left hops : ℕ) (next : UInt8) {s : Span} {pi : PacketInfo},
    s.cap = s.wire → Full m (decodeGtpuExts left hops next) s pi
  | 0, hops, next, s, pi, hs => by
      simp only [Full, decodeGtpuExts, wp_exitIf]
      exact ⟨fun _ => hs, fun _ => ⟨rfl, hs⟩⟩
  | left + 1, hops, next, s, pi, hs => by
      have ih := fun next' => @full_decodeGtpuExts left (hops + 1) next'
      simp only [Full, decodeGtpuExts, wp_ite, wp_bind, wp_need, wp_load8, wp_exitIf, wp_advance,
        wp_modifyOut, wp_pure, level_read, level_sub, level_at, true_and]
      refine ⟨fun _ => hs, fun _ => ⟨fun _ => ⟨fun _ => ⟨fun _ => ?_, fun _ _ => by omega,
        fun _ _ => ⟨rfl, hs⟩⟩, fun _ => ⟨rfl, hs⟩⟩, fun _ _ => by omega, fun _ _ => ⟨rfl, hs⟩⟩⟩
      exact ⟨by omega, ih _ (congrArg (· - _) hs)⟩

theorem full_decodeGtpuOpt (hs : s.cap = s.wire) (flags : UInt8) :
    Full m (decodeGtpuOpt flags) s pi := by
  simp only [Full, decodeGtpuOpt, wp_ite, wp_bind, wp_need, wp_be16At, wp_load8, wp_modifyOut,
    wp_advance, wp_pure, level_read, level_sub, level_at, true_and]
  refine ⟨fun _ => ⟨fun _ => ⟨fun _ => ?_, fun _ => ?_⟩, fun _ _ => by omega, fun _ _ => ⟨rfl, hs⟩⟩,
    fun _ => hs⟩
  all_goals exact ⟨fun _ => ⟨by omega, by omega⟩, fun _ => ⟨by omega, by omega⟩⟩

theorem full_decodeGtpu (hs : s.cap = s.wire) : Full m decodeGtpu s pi := by
  simp only [Full, decodeGtpu, decodeGtpuHeaders, wp_bind, wp_need, wp_load8, wp_ite, wp_pure,
    wp_be16At, wp_be32At, wp_modifyOut, wp_wireMinus, wp_exitIf, wp_advance, wp_clip, level_read,
    level_sub, level_at, true_and]
  refine ⟨fun _ => ⟨fun _ => ⟨fun h => absurd h Bool.false_ne_true, fun _ => hs⟩, fun _ => ⟨fun hlen => ?_,
    fun _ => ⟨rfl, hs⟩⟩⟩, fun _ _ => by omega, fun _ _ => ⟨rfl, hs⟩⟩
  refine ⟨by omega, by omega, ?_⟩
  refine wp_mono (full_decodeGtpuOpt (by simp only; omega) _) (fun next _ _ h => ?_) fun _ _ _ h => h
  refine wp_mono (full_decodeGtpuExts _ 0 next h) (fun _ _ _ h => ?_) fun _ _ _ h => h
  exact ⟨fun _ => full_decodeGtpuInner h, fun _ => h⟩

/-! ### Whole frames -/

theorem full_decodeVlans : ∀ (left : ℕ) (type : UInt16) {s : Span} {pi : PacketInfo},
    s.cap = s.wire → Full m (decodeVlans left type) s pi
  | 0, type, s, pi, hs => by
      simp only [Full, decodeVlans, wp_ite, wp_fail, wp_pure]
      exact ⟨fun _ => ⟨rfl, hs⟩, fun _ => hs⟩
  | left + 1, type, s, pi, hs => by
      have ih := fun type' => @full_decodeVlans left type'
      simp only [Full, decodeVlans, wp_ite, wp_bind, wp_need, wp_be16At, wp_modifyOut, wp_advance,
        wp_pure, level_read, level_sub, level_at, true_and]
      refine ⟨fun _ => ⟨fun _ => ?_, fun _ _ => by omega, fun _ _ => ⟨rfl, hs⟩⟩, fun _ => hs⟩
      exact ⟨by omega, ih _ (congrArg (· - _) hs)⟩

theorem full_decodeL2 (hs : s.cap = s.wire) : Full m decodeL2 s pi := by
  simp only [Full, decodeL2, wp_bind, wp_need, wp_be16At, wp_advance, wp_modifyOut, wp_pure, level_read,
    level_sub, level_at, true_and]
  refine ⟨fun _ => ⟨by omega, ?_⟩, fun _ _ => by omega, fun _ _ => ⟨rfl, hs⟩⟩
  exact full_decodeVlans _ _ (congrArg (· - _) hs)

theorem full_decodeOuter (hs : s.cap = s.wire) : Full m decodeOuter s pi := by
  simp only [Full, decodeOuter, wp_bind]
  refine wp_mono (full_decodeL2 hs) (fun type _ _ h => ?_) fun _ _ _ h => h
  simp only [wp_ite, wp_pure]
  exact ⟨fun _ => full_decodeIpv4 h, fun _ => ⟨fun _ => full_decodeIpv6 h, fun _ => h⟩⟩

/-- The result does not blame the capture. -/
structure BlamelessFrame (pi : PacketInfo) : Prop where
  status : Blameless pi.status
  gtpStatus : Blameless pi.gtpStatus

theorem full_decodeTunnel (hs : s.cap = s.wire) (h : NoTunnel pi) (hpi : BlamelessFrame pi) :
    wp Level m decodeTunnel (fun _ _ => BlamelessFrame) (fun _ _ => BlamelessFrame) s pi := by
  simp only [decodeTunnel, wp_bind, wp_getOut, wp_wireLeft, wp_ite, wp_modifyOut, wp_advance,
    wp_attempt, wp_pure, level_sub, level_at, true_and]
  refine ⟨fun hc => ⟨by omega, ?_⟩, fun _ => hpi⟩
  have hshape := @decodeGtpu_shape m ⟨s.p + udpHdrLen, s.cap - udpHdrLen, s.wire - udpHdrLen⟩
    { pi with isGtpu := true } (Nat.le_sub_of_add_le' hc.2.2.2) h.v1u h.msgOk
  have hst : ∀ st pi', GtpuShape { pi with isGtpu := true } st pi' → Blameless pi'.status := fun _ _ h' => by
    rw [PacketInfo.eq_of_erase PacketInfo.envelope PacketInfo.status (fun _ => rfl) h'.frame]
    exact hpi.status
  refine wp_mono (wp_and (full_decodeGtpu (congrArg (· - udpHdrLen) hs)) hshape) (fun _ _ _ h' => ?_)
    fun _ _ _ h' => ?_
  · have hst' := hst _ _ h'.2
    exact ⟨hst', rfl⟩
  · have hst' := hst _ _ h'.2
    exact ⟨hst', h'.1.1⟩

theorem full_frameWalk (hs : s.cap = s.wire) :
    wp Level m frameWalk (fun _ _ => BlamelessFrame) (fun _ _ => BlamelessFrame) s {} := by
  simp only [frameWalk, wp_bind, wp_attempt, wp_modifyOut]
  refine wp_mono (wp_and (full_decodeOuter hs) decodeOuter_shape) (fun _ _ pi h => ?_) fun e _ pi h => ?_
  · have hno := OuterShape.noTunnel h.2
    have hgtp := OuterShape.gtpStatus h.2
    exact full_decodeTunnel h.1 ⟨hno.v1u, hno.msgOk, hno.inner⟩ ⟨rfl, congrArg decodeStatusIsTruncation hgtp⟩
  · have hno := OuterShape.noTunnel h.2
    have hgtp := OuterShape.gtpStatus h.2
    exact full_decodeTunnel h.1.2 ⟨hno.v1u, hno.msgOk, hno.inner⟩
      ⟨h.1.1, congrArg decodeStatusIsTruncation hgtp⟩

end full

/-- **A frame captured in full is never reported as truncated.** -/
theorem decodeFrame_full (frame : Mem) (caplen wirelen : ℕ) (h : wirelen ≤ caplen) :
    (∀ s, .at s ∈ decodeLog frame caplen wirelen → s.cap = s.wire) ∧
      decodeStatusIsTruncation (decodeFrame frame caplen wirelen).status = false ∧
      decodeStatusIsTruncation (decodeFrame frame caplen wirelen).gtpStatus = false := by
  have hs : (frameSpan caplen wirelen).cap = (frameSpan caplen wirelen).wire :=
    (if_neg (Nat.not_lt_of_le h)).symm
  have hw := full_frameWalk (m := frame) hs
  have hout : BlamelessFrame (decodeFrame frame caplen wirelen) := by
    have h2 := hw.2
    cases hr : (frameWalk.run frame (frameSpan caplen wirelen) {}).res with
    | ok a => rw [hr] at h2; exact h2
    | error e => rw [hr] at h2; exact h2
  refine ⟨fun s hmem => ?_, hout.status, hout.gtpStatus⟩
  rcases List.mem_cons.mp hmem with he | he
  · rw [Event.at.inj he]
    exact hs
  · exact hw.1 _ he

theorem decodeFrame_full_padded :
    decodeStatusIsTruncation (decodeFrame (Mem.ofList paddedFrame) 42 42).status = false :=
  (decodeFrame_full (Mem.ofList paddedFrame) 42 42 (by decide)).2.1

end Pcapstat
