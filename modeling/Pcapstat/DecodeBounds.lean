import Pcapstat.DecodeShape

/-! # The decoder stays inside the capture

Every byte that `decodeFrame` reads lies before `caplen`, no size subtraction wraps, and every
span it stands on satisfies `p + cap ≤ caplen` and `cap ≤ wire`.  The invariant is `InBounds`;
each decoder of `Decode.lean` keeps it (`safe_*`), under the obligations `Accountable` that its
log raises.  Since a walk depends only on what it reads (`Walk.reloc`), two buffers with the
same first `caplen` bytes are decoded alike. -/

namespace Pcapstat

open SpanWalk SpanWalk.Walk

/-- The span lies in the first `n` bytes, and no more is captured than exists. -/
def InBounds (n : ℕ) (s : Span) : Prop := s.p + s.cap ≤ n ∧ s.cap ≤ s.wire

/-- What the first `n` bytes being the buffer demands of each event. -/
def Accountable (n : ℕ) : Event → Prop
  | .read i => i < n
  | .sub a b => b ≤ a
  | .at s => InBounds n s

@[simp] theorem accountable_read (n i : ℕ) : Accountable n (.read i) ↔ i < n := Iff.rfl
@[simp] theorem accountable_sub (n a b : ℕ) : Accountable n (.sub a b) ↔ b ≤ a := Iff.rfl
@[simp] theorem accountable_at (n : ℕ) (s : Span) :
    Accountable n (.at s) ↔ s.p + s.cap ≤ n ∧ s.cap ≤ s.wire := Iff.rfl

/-- After a decoded UDP header the span still covers that header. -/
def UdpRoom (s : Span) (pi : PacketInfo) : Prop :=
  pi.hasL4 = true → pi.ipProto = ipprotoUdp → udpHdrLen ≤ s.cap

section safe

variable {n : ℕ} {m : Mem} {s : Span} {pi : PacketInfo}

/-- `x` raises no unmet obligation from `s` and `pi`, and ends in bounds. -/
def Safe {α : Type} (n : ℕ) (m : Mem) (x : Decoder α) (s : Span) (pi : PacketInfo)
    (Q : PacketInfo → Span → PacketInfo → Prop) : Prop :=
  wp (Accountable n) m x (fun _ s' pi' => InBounds n s' ∧ Q pi s' pi')
    (fun _ s' _ => InBounds n s') s pi

theorem safe_decodeTcp (hs : InBounds n s) :
    Safe n m decodeTcp s pi fun pi _ pi' => pi'.ipProto = pi.ipProto := by
  obtain ⟨h1, h2⟩ := hs
  simp [Safe, decodeTcp, InBounds]
  simp only [tcpMinHdr]
  omega

theorem safe_decodeUdp (hs : InBounds n s) (frag : FragKind) :
    Safe n m (decodeUdp frag) s pi fun _ s' _ => udpHdrLen ≤ s'.cap := by
  obtain ⟨h1, h2⟩ := hs
  by_cases hf : frag = .none
  · simp [Safe, decodeUdp, InBounds, hf]
    simp only [udpHdrLen]
    omega
  · simp [Safe, decodeUdp, InBounds, hf]
    simp only [udpHdrLen]
    omega

theorem safe_decodeIcmp (hs : InBounds n s) :
    Safe n m decodeIcmp s pi fun pi _ pi' => pi'.ipProto = pi.ipProto := by
  obtain ⟨h1, h2⟩ := hs
  simp [Safe, decodeIcmp, InBounds]
  simp only [icmpMinHdr]
  omega

theorem safe_decodeL4 (hs : InBounds n s) (hpi : pi.hasL4 = false) :
    Safe n m decodeL4 s pi fun _ s' pi' => UdpRoom s' pi' := by
  simp only [Safe, decodeL4, wp_bind, wp_getOut, wp_ite, wp_pure]
  refine ⟨fun htcp => ?_, fun _ => ⟨fun _ => ?_, fun _ => ⟨fun hicmp => ?_, fun _ => ?_⟩⟩⟩
  · refine wp_mono (safe_decodeTcp hs) (fun _ s' pi' h => ⟨h.1, fun _ hp => ?_⟩) fun _ _ _ h => h
    rw [h.2, htcp] at hp
    exact absurd hp (by decide)
  · exact wp_mono (safe_decodeUdp hs pi.frag) (fun _ s' pi' h => ⟨h.1, fun _ _ => h.2⟩)
      fun _ _ _ h => h
  · refine wp_mono (safe_decodeIcmp hs) (fun _ s' pi' h => ⟨h.1, fun _ hp => ?_⟩) fun _ _ _ h => h
    rw [h.2] at hp
    rcases hicmp with h' | h' <;> rw [h'] at hp <;> exact absurd hp (by decide)
  · exact ⟨hs, fun h => by simp [hpi] at h⟩

theorem safe_decodeIpv4Header (hs : InBounds n s) :
    Safe n m decodeIpv4Header s pi fun pi _ pi' => pi'.hasL4 = pi.hasL4 := by
  obtain ⟨h1, h2⟩ := hs
  simp only [Safe, decodeIpv4Header, PacketInfo.setIpv4, wp_bind, wp_need, wp_load8, wp_exitIf,
    wp_be16At, wp_wireLeft, wp_requireCap, wp_loadBytes, wp_modifyOut, wp_clip, wp_advance]
  simp only [InBounds, accountable_read, accountable_sub, accountable_at, ipv4MinHdr]
  generalize (if (be16 m (s.p + 2)).toNat = 0 then s.wire else (be16 m (s.p + 2)).toNat) = total
  generalize (m (s.p + 0) &&& 15).toNat * 4 = hlen
  refine ⟨fun h => ?_, by omega⟩
  refine ⟨by omega, fun _ => ⟨fun _ => ⟨by omega, by omega, fun ht => ⟨fun hc => ?_, by omega⟩, by omega⟩,
    by omega⟩, by omega⟩
  exact ⟨by omega, fun k hk => by omega, fun k hk => by omega, by omega, by omega, by omega, by omega,
    by omega, by omega, by omega, by omega, by omega, trivial⟩

theorem safe_decodeIpv4 (hs : InBounds n s) (hpi : pi.hasL4 = false) :
    Safe n m decodeIpv4 s pi fun _ s' pi' => UdpRoom s' pi' := by
  simp only [Safe, decodeIpv4, wp_bind]
  refine wp_mono (safe_decodeIpv4Header hs) (fun _ s' pi' h => ?_) fun _ _ _ h => h
  have hpi' : pi'.hasL4 = false := h.2.trans hpi
  simp only [wp_getOut, wp_ite, wp_pure]
  exact ⟨fun _ => ⟨h.1, fun h' => by simp [hpi'] at h'⟩, fun _ => safe_decodeL4 h.1 hpi'⟩

theorem safe_decodeUpper (hs : InBounds n s) (hpi : pi.hasL4 = false) (next : UInt8) :
    Safe n m (decodeUpper next) s pi fun _ s' pi' => UdpRoom s' pi' := by
  simp only [Safe, decodeUpper, wp_bind, wp_modifyOut]
  exact safe_decodeL4 hs hpi

theorem safe_decodeIpv6Chain : ∀ (left : ℕ) (next : UInt8) {s : Span} {pi : PacketInfo},
    InBounds n s → pi.hasL4 = false →
      Safe n m (decodeIpv6Chain left next) s pi fun _ s' pi' => UdpRoom s' pi'
  | 0, next, s, pi, hs, hpi => by
      simp only [Safe, decodeIpv6Chain, wp_ite, wp_fail]
      exact ⟨fun _ => hs, fun _ => safe_decodeUpper hs hpi next⟩
  | left + 1, next, s, pi, hs, hpi => by
      have ih := fun next' => @safe_decodeIpv6Chain left next'
      obtain ⟨h1, h2⟩ := id hs
      simp only [Safe, decodeIpv6Chain, wp_ite, wp_bind, wp_need, wp_be16At, wp_be32At,
        wp_modifyOut, wp_load8, wp_advance, wp_getOut]
      simp only [accountable_read, accountable_sub, accountable_at, ipv6FragLen]
      refine ⟨fun _ => ⟨fun _ => ⟨fun hc => ?_, fun _ _ => hs, fun _ _ => hs⟩,
        fun _ => ⟨fun hc => ?_, fun _ _ => hs, fun _ _ => hs⟩⟩, fun _ => safe_decodeUpper hs hpi next⟩
      · -- a Fragment header
        refine ⟨by omega, by omega, by omega, by omega, by omega, by omega, by omega, by omega,
          by omega, by omega, fun _ => ⟨by simp only [InBounds]; omega, fun h => ?_⟩,
          fun _ => ih _ (by simp only [InBounds]; omega) hpi⟩
        have hpi' : pi.hasL4 = true := h
        simp [hpi] at hpi'
      · -- another extension header
        refine ⟨by omega, fun hlen => ?_, fun _ _ => hs, fun _ _ => hs⟩
        exact ⟨by omega, by omega, by omega, by omega, ih _ (by simp only [InBounds]; omega) hpi⟩

theorem safe_decodeIpv6Header (hs : InBounds n s) :
    Safe n m decodeIpv6Header s pi fun pi _ pi' => pi'.hasL4 = pi.hasL4 := by
  obtain ⟨h1, h2⟩ := hs
  simp only [Safe, decodeIpv6Header, wp_bind, wp_need, wp_load8, wp_exitIf, wp_be16At,
    wp_wireMinus, wp_loadBytes, wp_modifyOut, wp_advance, wp_clip, wp_pure]
  simp only [InBounds, accountable_read, accountable_sub, accountable_at, ipv6HdrLen]
  refine ⟨fun h => ?_, by omega⟩
  refine ⟨by omega, fun _ => ⟨by omega, by omega, by omega, fun hp => ?_, by omega⟩, by omega⟩
  exact ⟨by omega, fun k hk => by omega, fun k hk => by omega, by omega, by omega, by omega, by omega,
    by omega, trivial⟩

theorem safe_decodeIpv6 (hs : InBounds n s) (hpi : pi.hasL4 = false) :
    Safe n m decodeIpv6 s pi fun _ s' pi' => UdpRoom s' pi' := by
  simp only [Safe, decodeIpv6, wp_bind]
  exact wp_mono (safe_decodeIpv6Header hs)
    (fun next s' pi' h => safe_decodeIpv6Chain _ next h.1 (h.2.trans hpi)) fun _ _ _ h => h

theorem safe_decodeGtpuInner (hs : InBounds n s) :
    Safe n m decodeGtpuInner s pi fun _ _ _ => True := by
  obtain ⟨h1, h2⟩ := id hs
  simp only [Safe, decodeGtpuInner, exitWith, wp_bind, wp_need, wp_load8, wp_exitIf, wp_scratch,
    wp_modifyOut]
  simp only [accountable_read]
  refine ⟨fun hc => ⟨by omega, fun _ => ?_, fun _ => hs⟩, fun _ _ => hs, fun _ _ => hs⟩
  have hin : Safe n m (if m (s.p + 0) >>> 4 = 4 then decodeIpv4 else decodeIpv6) s {}
      fun _ s' pi' => UdpRoom s' pi' := by
    split_ifs
    · exact safe_decodeIpv4 hs rfl
    · exact safe_decodeIpv6 hs rfl
  exact wp_mono hin (fun _ s' _ h => ⟨fun _ => ⟨h.1, trivial⟩, fun _ => h.1⟩)
    fun _ s' _ h => ⟨fun _ => ⟨h, trivial⟩, fun _ => h⟩

theorem safe_decodeGtpuExts : ∀ (left hops : ℕ) (next : UInt8) {s : Span} {pi : PacketInfo},
    InBounds n s → Safe n m (decodeGtpuExts left hops next) s pi fun _ _ _ => True
  | 0, hops, next, s, pi, hs => by
      simp only [Safe, decodeGtpuExts, wp_exitIf]
      exact ⟨fun _ => ⟨hs, trivial⟩, fun _ => hs⟩
  | left + 1, hops, next, s, pi, hs => by
      have ih := fun next' => @safe_decodeGtpuExts left (hops + 1) next'
      obtain ⟨h1, h2⟩ := id hs
      simp only [Safe, decodeGtpuExts, wp_ite, wp_bind, wp_need, wp_load8, wp_exitIf, wp_advance,
        wp_modifyOut, wp_pure]
      simp only [accountable_read, accountable_sub, accountable_at]
      refine ⟨fun _ => ⟨hs, trivial⟩, fun _ => ⟨fun hc => ⟨by omega, fun hne => ⟨fun hlen => ?_,
        fun _ _ => hs, fun _ _ => hs⟩, fun _ => hs⟩, fun _ _ => hs, fun _ _ => hs⟩⟩
      exact ⟨by omega, by omega, by omega, by omega, ih _ (by simp only [InBounds]; omega)⟩

theorem safe_decodeGtpuOpt (hs : InBounds n s) (flags : UInt8) :
    Safe n m (decodeGtpuOpt flags) s pi fun _ _ _ => True := by
  obtain ⟨h1, h2⟩ := id hs
  simp only [Safe, decodeGtpuOpt, wp_ite, wp_bind, wp_need, wp_be16At, wp_load8, wp_modifyOut,
    wp_advance, wp_pure]
  simp only [InBounds, accountable_read, accountable_sub, accountable_at, gtpuOptLen]
  refine ⟨fun _ => ⟨fun hc => ⟨fun _ => ⟨by omega, by omega, ?_⟩, fun _ => ?_⟩, by omega⟩,
    fun _ => ⟨by omega, trivial⟩⟩
  all_goals
    exact ⟨fun _ => ⟨by omega, by omega, by omega, by omega, by omega, trivial⟩,
      fun _ => ⟨by omega, by omega, by omega, by omega, trivial⟩⟩

theorem safe_decodeGtpuHeaders (hs : InBounds n s) :
    Safe n m decodeGtpuHeaders s pi fun _ _ _ => True := by
  obtain ⟨h1, h2⟩ := id hs
  simp only [Safe, decodeGtpuHeaders, wp_bind, wp_need, wp_load8, wp_ite, wp_pure, wp_be16At,
    wp_be32At, wp_modifyOut, wp_wireMinus, wp_exitIf, wp_advance, wp_clip]
  simp only [accountable_read, accountable_sub, accountable_at, gtpuHdrLen]
  refine ⟨fun hc => ⟨by omega, fun _ => ⟨hs, trivial⟩, fun _ => ?_⟩, fun _ _ => hs, fun _ _ => hs⟩
  refine ⟨by omega, by omega, by omega, by omega, by omega, by omega, by omega, by omega,
    fun hl => ⟨by omega, by omega, by omega, by omega, ?_⟩, fun _ => hs⟩
  refine wp_mono (safe_decodeGtpuOpt (by simp only [InBounds]; omega) _) (fun next s' pi' h => ?_)
    fun _ _ _ h => h
  exact wp_mono (safe_decodeGtpuExts _ 0 next h.1) (fun _ _ _ h => ⟨h.1, trivial⟩) fun _ _ _ h => h

theorem safe_decodeGtpu (hs : InBounds n s) : Safe n m decodeGtpu s pi fun _ _ _ => True := by
  simp only [Safe, decodeGtpu, wp_bind]
  refine wp_mono (safe_decodeGtpuHeaders hs) (fun b s' pi' h => ?_) fun _ _ _ h => h
  simp only [wp_ite, wp_pure]
  exact ⟨fun _ => safe_decodeGtpuInner h.1, fun _ => ⟨h.1, trivial⟩⟩

theorem safe_decodeVlans : ∀ (left : ℕ) (type : UInt16) {s : Span} {pi : PacketInfo},
    InBounds n s → Safe n m (decodeVlans left type) s pi fun pi _ pi' => pi'.hasL4 = pi.hasL4
  | 0, type, s, pi, hs => by
      simp only [Safe, decodeVlans, wp_ite, wp_fail, wp_pure]
      exact ⟨fun _ => hs, fun _ => ⟨hs, trivial⟩⟩
  | left + 1, type, s, pi, hs => by
      have ih := fun type' => @safe_decodeVlans left type'
      obtain ⟨h1, h2⟩ := id hs
      simp only [Safe, decodeVlans, wp_ite, wp_bind, wp_need, wp_be16At, wp_modifyOut, wp_advance,
        wp_pure]
      simp only [accountable_read, accountable_sub, accountable_at, vlanTagLen]
      refine ⟨fun _ => ⟨fun hc => ?_, fun _ _ => hs, fun _ _ => hs⟩, fun _ => ⟨hs, trivial⟩⟩
      exact ⟨by omega, by omega, by omega, by omega, by omega, by omega, by omega,
        ih _ (by simp only [InBounds]; omega)⟩

theorem safe_decodeL2 (hs : InBounds n s) :
    Safe n m decodeL2 s pi fun pi _ pi' => pi'.hasL4 = pi.hasL4 := by
  obtain ⟨h1, h2⟩ := id hs
  simp only [Safe, decodeL2, wp_bind, wp_need, wp_be16At, wp_advance, wp_modifyOut, wp_pure]
  simp only [accountable_read, accountable_sub, accountable_at, ethHdrLen]
  refine ⟨fun hc => ⟨by omega, by omega, by omega, by omega, by omega, ?_⟩, fun _ _ => hs,
    fun _ _ => hs⟩
  exact safe_decodeVlans _ _ (by simp only [InBounds]; omega)

theorem safe_decodeOuter (hs : InBounds n s) (hpi : pi.hasL4 = false) :
    Safe n m decodeOuter s pi fun _ s' pi' => UdpRoom s' pi' := by
  simp only [Safe, decodeOuter, wp_bind]
  refine wp_mono (safe_decodeL2 hs) (fun type s' pi' h => ?_) fun _ _ _ h => h
  have hpi' : pi'.hasL4 = false := h.2.trans hpi
  simp only [wp_ite, wp_pure]
  exact ⟨fun _ => safe_decodeIpv4 h.1 hpi', fun _ => ⟨fun _ => safe_decodeIpv6 h.1 hpi',
    fun _ => ⟨h.1, fun h' => by simp [hpi'] at h'⟩⟩⟩

section exits

/-- An early exit never reports `DEC_OK`. -/
def Exits {α : Type} (m : Mem) (x : Decoder α) (s : Span) (pi : PacketInfo) : Prop :=
  wp (fun _ => True) m x (fun _ _ _ => True) (fun e _ _ => e ≠ .ok) s pi

theorem decodeL4_exits : Exits m decodeL4 s pi := by
  simp [Exits, decodeL4, decodeTcp, decodeUdp, decodeIcmp]

theorem decodeIpv6Chain_exits : ∀ (left : ℕ) (next : UInt8) {s : Span} {pi : PacketInfo},
    Exits m (decodeIpv6Chain left next) s pi
  | 0, next, s, pi => by
      have h4 := @decodeL4_exits m
      simp only [Exits] at h4 ⊢
      simp [decodeIpv6Chain, decodeUpper, h4]
  | left + 1, next, s, pi => by
      have h4 := @decodeL4_exits m
      have ih := fun next => @decodeIpv6Chain_exits left next
      simp only [Exits] at h4 ih ⊢
      simp [decodeIpv6Chain, decodeUpper, h4, ih]

theorem decodeVlans_exits : ∀ (left : ℕ) (type : UInt16) {s : Span} {pi : PacketInfo},
    Exits m (decodeVlans left type) s pi
  | 0, type, s, pi => by simp [Exits, decodeVlans]
  | left + 1, type, s, pi => by
      have ih := fun type => @decodeVlans_exits left type
      simp only [Exits] at ih ⊢
      simp [decodeVlans, ih]

theorem decodeOuter_exits : Exits m decodeOuter s pi := by
  have h4 := @decodeL4_exits m
  have h6 := @decodeIpv6Chain_exits m ipv6MaxExtHeaders
  have hv := @decodeVlans_exits m decodeMaxVlans
  simp only [Exits] at h4 h6 hv ⊢
  simp [decodeOuter, decodeL2, decodeIpv4, decodeIpv4Header, decodeIpv6, decodeIpv6Header, h4, h6, hv]

end exits

/-- `advance(&s, UDP_HDR_LEN)` relies on the UDP header having been captured: `UdpRoom`. -/
theorem safe_decodeTunnel (hs : InBounds n s) (hroom : pi.status = .ok → UdpRoom s pi) :
    Safe n m decodeTunnel s pi fun _ _ _ => True := by
  obtain ⟨h1, h2⟩ := id hs
  simp only [Safe, decodeTunnel, wp_bind, wp_getOut, wp_wireLeft, wp_ite, wp_modifyOut, wp_advance,
    wp_attempt, wp_pure]
  simp only [accountable_sub, accountable_at, udpHdrLen]
  refine ⟨fun hc => ?_, fun _ => ⟨hs, trivial⟩⟩
  obtain ⟨hst, -, hport, hw⟩ := hc
  simp only [decodeIsGtpuPort, Bool.and_eq_true, decide_eq_true_eq] at hport
  have hcap := hroom hst hport.1.1 hport.1.2
  simp only [udpHdrLen] at hcap
  refine ⟨by omega, by omega, by omega, ?_⟩
  exact wp_mono (safe_decodeGtpu (by simp only [InBounds]; omega)) (fun _ _ _ h => ⟨h.1, trivial⟩)
    fun _ _ _ h => ⟨h, trivial⟩

theorem safe_frameWalk (hs : InBounds n s) (hpi : pi.hasL4 = false) :
    Safe n m frameWalk s pi fun _ _ _ => True := by
  simp only [Safe, frameWalk, wp_bind, wp_attempt, wp_modifyOut]
  refine wp_mono (wp_and (safe_decodeOuter hs hpi) decodeOuter_exits) (fun _ s' pi' h => ?_)
    fun e s' pi' h => ?_
  · exact safe_decodeTunnel h.1.1 fun _ => h.1.2
  · exact safe_decodeTunnel h.1 fun hst => absurd hst h.2

end safe

/-! ### Whole frames -/

theorem frameSpan_inBounds (caplen wirelen : ℕ) : InBounds caplen (frameSpan caplen wirelen) := by
  simp only [InBounds, frameSpan]
  split_ifs <;> omega

theorem decodeLog_accountable (frame : Mem) (caplen wirelen : ℕ) :
    ∀ e ∈ decodeLog frame caplen wirelen, Accountable caplen e := by
  have h : Safe caplen frame frameWalk (frameSpan caplen wirelen) {} fun _ _ _ => True :=
    safe_frameWalk (frameSpan_inBounds caplen wirelen) rfl
  intro e he
  rcases List.mem_cons.mp he with rfl | he
  · exact frameSpan_inBounds caplen wirelen
  · exact h.1 e he

/-- Buffers that agree on what was captured are decoded alike. -/
theorem decodeFrame_congr {frame frame' : Mem} {caplen : ℕ} (h : ∀ i < caplen, frame i = frame' i)
    (wirelen : ℕ) : decodeFrame frame caplen wirelen = decodeFrame frame' caplen wirelen := by
  refine (frameWalk.reloc frame frame' (frameSpan caplen wirelen) (frameSpan caplen wirelen) {} rfl rfl
    fun k hk => h _ ?_).out
  exact decodeLog_accountable frame caplen wirelen _ (List.mem_cons_of_mem _ hk)

/-- **The decoder stays inside the capture.** -/
theorem decodeFrame_inBounds (frame : Mem) (caplen wirelen : ℕ) :
    (∀ e ∈ decodeLog frame caplen wirelen, match e with
      | .read i => i < caplen
      | .sub a b => b ≤ a
      | .at s => s.p + s.cap ≤ caplen ∧ s.cap ≤ s.wire) ∧
    ∀ frame' : Mem, (∀ i < caplen, frame i = frame' i) →
      decodeFrame frame caplen wirelen = decodeFrame frame' caplen wirelen := by
  refine ⟨fun e he => ?_, fun frame' h => decodeFrame_congr h wirelen⟩
  have := decodeLog_accountable frame caplen wirelen e he
  cases e <;> exact this

end Pcapstat
