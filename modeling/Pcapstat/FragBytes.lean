import Pcapstat.DecodePlace

/-! # Fragments as bytes

What the bytes of a frame say about the IP fragment it carries (`IsFragment`), without the decoder:
the link header and its VLAN tags lead to the network header, and for IPv6 the headers before the
Fragment header lead to that.  A frame that decodes cleanly is read as these bytes say
(`decodeFrame_fragment`). -/

namespace Pcapstat

open SpanWalk SpanWalk.Walk

/-- From a header of type `next` at `p`, the first Fragment header is at `q`. -/
inductive FragHeaderAt (m : Mem) : UInt8 → ℕ → ℕ → Prop where
  | here {p : ℕ} : FragHeaderAt m ip6ExtFragment p p
  | skip {next : UInt8} {p q : ℕ} : isIpv6Ext next = true → next ≠ ip6ExtFragment →
      FragHeaderAt m (m p) (p + ((m (p + 1)).toNat + 1) * 8) q → FragHeaderAt m next p q

/-- What a fragment says about itself. -/
structure FragInfo where
  version : UInt8
  src : List UInt8
  dst : List UInt8
  id : UInt32
  /-- the protocol, or the next-header byte of the Fragment header -/
  next : UInt8
  offset : UInt16
  more : Bool

/-- The frame carries a fragment. -/
inductive IsFragment (m : Mem) : FragInfo → Prop where
  | ipv4 {q : ℕ} : NetworkAt m 12 q → be16 m (q - 2) = ethertypeIpv4 →
      IsFragment m
        { version := 4
          src := m.bytes (q + 12) 4
          dst := m.bytes (q + 16) 4
          id := (be16 m (q + 4)).toUInt32
          next := m (q + 9)
          offset := be16 m (q + 6) &&& 0x1FFF
          more := be16 m (q + 6) &&& 0x2000 ≠ 0 }
  | ipv6 {q r : ℕ} : NetworkAt m 12 q → be16 m (q - 2) = ethertypeIpv6 →
      FragHeaderAt m (m (q + 6)) (q + ipv6HdrLen) r →
      IsFragment m
        { version := 6
          src := m.bytes (q + 8) 16
          dst := m.bytes (q + 24) 16
          id := be32 m (r + 4)
          next := m r
          offset := be16 m (r + 2) >>> 3
          more := be16 m (r + 2) &&& 1 ≠ 0 }

/-- Does the first fragment show where the chain goes on behind the Fragment header? -/
def FragInfo.chained (i : FragInfo) : Bool := i.version ≠ 4 && isIpv6Ext i.next

/-- The packet is read as the fragment says. -/
structure FragInfo.ReadAs (i : FragInfo) (pi : PacketInfo) : Prop where
  hasL3 : pi.hasL3 = true
  version : pi.ipVersion = i.version
  src : pi.srcAddr = Addr.zero.copyFrom i.src
  dst : pi.dstAddr = Addr.zero.copyFrom i.dst
  later : i.offset ≠ 0 → pi.frag = .later ∧ pi.ipProto = i.next ∧ pi.fragId = i.id
  first : i.offset = 0 → i.more = true → i.chained = false →
    pi.frag = .first ∧ pi.ipProto = i.next ∧ pi.fragId = i.id
  chain : i.offset = 0 → i.chained = true → pi.frag ≠ .later → isIpv6Ext pi.ipProto = false

section read

variable {i : FragInfo} {a b pi : PacketInfo} {m : Mem} {s : Span}

theorem FragInfo.ReadAs.of_noL4 (h : i.ReadAs a) (heq : b.noL4 = a.noL4) : i.ReadAs b := by
  have keep : ∀ {β : Type} (f : PacketInfo → β), (∀ q, f q.noL4 = f q) → f b = f a := fun f hf =>
    PacketInfo.eq_of_erase PacketInfo.noL4 f hf heq
  have hfrag : b.frag = a.frag := keep PacketInfo.frag fun _ => rfl
  have hproto : b.ipProto = a.ipProto := keep PacketInfo.ipProto fun _ => rfl
  have hid : b.fragId = a.fragId := keep PacketInfo.fragId fun _ => rfl
  constructor
  · exact (keep PacketInfo.hasL3 fun _ => rfl).trans h.hasL3
  · exact (keep PacketInfo.ipVersion fun _ => rfl).trans h.version
  · exact (keep PacketInfo.srcAddr fun _ => rfl).trans h.src
  · exact (keep PacketInfo.dstAddr fun _ => rfl).trans h.dst
  · rw [hfrag, hproto, hid]
    exact h.later
  · rw [hfrag, hproto, hid]
    exact h.first
  · rw [hfrag, hproto]
    exact h.chain

theorem FragInfo.ReadAs.of_outer (h : i.ReadAs a) (heq : b.outer = a.outer) : i.ReadAs b := by
  have keep : ∀ {β : Type} (f : PacketInfo → β), (∀ q, f q.outer = f q) → f b = f a := fun f hf =>
    PacketInfo.eq_of_erase PacketInfo.outer f hf heq
  have hfrag : b.frag = a.frag := keep PacketInfo.frag fun _ => rfl
  have hproto : b.ipProto = a.ipProto := keep PacketInfo.ipProto fun _ => rfl
  have hid : b.fragId = a.fragId := keep PacketInfo.fragId fun _ => rfl
  constructor
  · exact (keep PacketInfo.hasL3 fun _ => rfl).trans h.hasL3
  · exact (keep PacketInfo.ipVersion fun _ => rfl).trans h.version
  · exact (keep PacketInfo.srcAddr fun _ => rfl).trans h.src
  · exact (keep PacketInfo.dstAddr fun _ => rfl).trans h.dst
  · rw [hfrag, hproto, hid]
    exact h.later
  · rw [hfrag, hproto, hid]
    exact h.first
  · rw [hfrag, hproto]
    exact h.chain

end read

/-! ### The network header -/

section network

variable {m : Mem} {s : Span} {pi : PacketInfo}

theorem decodeIpv4_read (hsrc : pi.srcAddr = .zero) (hdst : pi.dstAddr = .zero) :
    Ends m decodeIpv4 (fun st _ pi' => st = .ok → FragInfo.ReadAs
      { version := 4
        src := m.bytes (s.p + 12) 4
        dst := m.bytes (s.p + 16) 4
        id := (be16 m (s.p + 4)).toUInt32
        next := m (s.p + 9)
        offset := be16 m (s.p + 6) &&& 0x1FFF
        more := be16 m (s.p + 6) &&& 0x2000 ≠ 0 } pi') s pi := by
  have hread : FragInfo.ReadAs
      { version := 4
        src := m.bytes (s.p + 12) 4
        dst := m.bytes (s.p + 16) 4
        id := (be16 m (s.p + 4)).toUInt32
        next := m (s.p + 9)
        offset := be16 m (s.p + 6) &&& 0x1FFF
        more := be16 m (s.p + 6) &&& 0x2000 ≠ 0 }
      (pi.setIpv4 (m (s.p + 9)) (m.bytes (s.p + 12) 4) (m.bytes (s.p + 16) 4) (be16 m (s.p + 4))
        (be16 m (s.p + 6))) := by
    constructor
    · rfl
    · rfl
    · exact congrArg (fun a : Addr => a.copyFrom _) hsrc
    · exact congrArg (fun a : Addr => a.copyFrom _) hdst
    · intro hoff
      exact ⟨if_pos hoff, rfl, rfl⟩
    · intro hoff hmore _
      refine ⟨?_, rfl, rfl⟩
      rw [PacketInfo.setIpv4]
      dsimp only at hoff hmore ⊢
      rw [if_neg (not_not.mpr hoff), if_pos (of_decide_eq_true hmore)]
    · intro _ hchain
      exact absurd hchain Bool.false_ne_true
  simp only [decodeIpv4, decodeIpv4Header, ends_bind, ends_ite, ends_pure, wp_bind, wp_need, wp_load8,
    wp_exitIf, wp_be16At, wp_wireLeft, wp_requireCap, wp_loadBytes, wp_modifyOut, wp_clip, wp_advance,
    wp_getOut, true_and, implies_true, and_true, reduceCtorEq, false_imp_iff]
  intro _ _ _ _ _
  refine ⟨fun _ _ => hread, fun _ => ?_⟩
  exact Ends.mono decodeL4_noL4 fun _ _ _ heq _ => hread.of_noL4 heq

/-- The chain ends in a later fragment or at a header of another layer. -/
theorem decodeIpv6Chain_next : ∀ (left : ℕ) (next : UInt8) {s : Span} {pi : PacketInfo},
    Ends m (decodeIpv6Chain left next)
      (fun st _ pi' => st = .ok → pi'.frag = .later ∨ isIpv6Ext pi'.ipProto = false) s pi
  | 0, next, s, pi => by
      simp only [decodeIpv6Chain, decodeUpper, ends_ite, ends_fail, ends_bind, wp_modifyOut]
      refine ⟨fun _ h => ?_, fun hno => Ends.mono decodeL4_noL4 fun _ _ _ heq _ => .inr ?_⟩
      · exact absurd h (by decide)
      · rw [PacketInfo.eq_of_erase PacketInfo.noL4 PacketInfo.ipProto (fun _ => rfl) heq]
        exact Bool.eq_false_iff.mpr hno
  | left + 1, next, s, pi => by
      simp only [decodeIpv6Chain, decodeUpper, ends_ite, ends_bind, ends_modifyOut, wp_need, wp_be16At,
        wp_be32At, wp_modifyOut, wp_load8, wp_advance, wp_getOut, true_and, reduceCtorEq, false_imp_iff,
        implies_true, and_true]
      refine ⟨fun _ => ⟨fun _ _ => ⟨fun hl _ => .inl hl, fun _ => decodeIpv6Chain_next left _⟩,
        fun _ _ _ => decodeIpv6Chain_next left _⟩, fun hno => ?_⟩
      refine Ends.mono decodeL4_noL4 fun _ _ _ heq _ => .inr ?_
      rw [PacketInfo.eq_of_erase PacketInfo.noL4 PacketInfo.ipProto (fun _ => rfl) heq]
      exact Bool.eq_false_iff.mpr hno

/-- What the Fragment header at `r` makes of `pi`. -/
structure ChainRead (m : Mem) (r : ℕ) (pi pi' : PacketInfo) : Prop where
  frame : pi'.noUpper = pi.noUpper
  later : be16 m (r + 2) >>> 3 ≠ 0 → pi'.frag = .later ∧ pi'.ipProto = m r ∧ pi'.fragId = be32 m (r + 4)
  first : be16 m (r + 2) >>> 3 = 0 → be16 m (r + 2) &&& 1 ≠ 0 → isIpv6Ext (m r) = false →
    pi'.frag = .first ∧ pi'.ipProto = m r ∧ pi'.fragId = be32 m (r + 4)

theorem decodeIpv6Chain_noUpper : ∀ (left : ℕ) (next : UInt8) {s : Span} {pi : PacketInfo},
    Ends m (decodeIpv6Chain left next) (fun _ _ pi' => pi'.noUpper = pi.noUpper) s pi
  | 0, next, s, pi => by
      simp only [decodeIpv6Chain, ends_ite, ends_fail]
      refine ⟨fun _ => trivial, fun _ => Ends.mono (decodeUpper_read next) fun _ _ _ heq => ?_⟩
      exact (PacketInfo.noUpper_of_noL4 heq).trans rfl
  | left + 1, next, s, pi => by
      simp only [decodeIpv6Chain, ends_ite, ends_bind, ends_modifyOut, wp_need, wp_be16At, wp_be32At,
        wp_modifyOut, wp_load8, wp_advance, wp_getOut, true_and, implies_true, and_true]
      refine ⟨fun _ => ⟨fun _ _ => ⟨fun _ => rfl, fun _ => ?_⟩, fun _ _ _ => ?_⟩, fun _ => ?_⟩
      · exact Ends.mono (decodeIpv6Chain_noUpper left _) fun _ _ _ heq => heq
      · exact decodeIpv6Chain_noUpper left _
      · apply Ends.mono (decodeUpper_read next)
        intro _ _ _ heq
        exact (PacketInfo.noUpper_of_noL4 heq).trans rfl

/-- A chain that reaches its first Fragment header is read as that header says. -/
theorem decodeIpv6Chain_read : ∀ (left : ℕ) {next : UInt8} {r : ℕ} {s : Span} {pi : PacketInfo},
    FragHeaderAt m next s.p r →
      Ends m (decodeIpv6Chain left next) (fun st _ pi' => st = .ok → ChainRead m r pi pi') s pi
  | 0, next, r, s, pi, h => by
      have hext : isIpv6Ext next = true := by
        cases h with
        | here => rfl
        | skip hext _ _ => exact hext
      simp only [decodeIpv6Chain, hext, if_true, ends_fail]
      exact fun h => absurd h (by decide)
  | left + 1, next, r, s, pi, h => by
      have hext : isIpv6Ext next = true := by
        cases h with
        | here => rfl
        | skip hext _ _ => exact hext
      simp only [decodeIpv6Chain, hext, if_true, ends_ite, ends_bind, ends_modifyOut, wp_need, wp_be16At,
        wp_be32At, wp_modifyOut, wp_load8, wp_advance, wp_getOut, true_and, reduceCtorEq, false_imp_iff,
        implies_true, and_true]
      cases h with
      | skip _ hno hrest => exact ⟨fun hfrag => absurd hfrag hno, fun _ _ _ => decodeIpv6Chain_read left hrest⟩
      | here =>
          refine ⟨fun _ _ => ⟨fun hl _ => ?_, fun hl => ?_⟩, fun hno => absurd rfl hno⟩
          · refine ⟨rfl, fun hoff => ⟨hl, rfl, rfl⟩, fun hoff hmore _ => ?_⟩
            rw [PacketInfo.setFragment, if_neg (not_not.mpr hoff), if_pos hmore] at hl
            exact FragKind.noConfusion hl
          · have hzero : be16 m (s.p + 2) >>> 3 = 0 := by
              by_contra hoff
              exact hl (if_pos hoff)
            have hafter : ∀ {pi' : PacketInfo}, isIpv6Ext (m (s.p + 0)) = false →
                pi'.noL4 = { pi.setFragment (be16 m (s.p + 2)) (be32 m (s.p + 4)) with
                  ipProto := m (s.p + 0) }.noL4 → be16 m (s.p + 2) &&& 1 ≠ 0 →
                pi'.frag = .first ∧ pi'.ipProto = m s.p ∧ pi'.fragId = be32 m (s.p + 4) := by
              intro pi' _ heq hmore
              have keep : ∀ {β : Type} (f : PacketInfo → β), (∀ q, f q.noL4 = f q) → f pi' = f _ :=
                fun f hf => PacketInfo.eq_of_erase PacketInfo.noL4 f hf heq
              refine ⟨(keep PacketInfo.frag fun _ => rfl).trans ?_, keep PacketInfo.ipProto fun _ => rfl,
                keep PacketInfo.fragId fun _ => rfl⟩
              rw [PacketInfo.setFragment]
              dsimp only
              rw [if_neg (not_not.mpr hzero), if_pos hmore]
            have hnext : isIpv6Ext (m (s.p + 0)) = false → decodeIpv6Chain left (m (s.p + 0)) =
                decodeUpper (m (s.p + 0)) := by
              intro hno
              cases left with
              | zero => rw [decodeIpv6Chain, hno, if_neg Bool.false_ne_true]
              | succ left => rw [decodeIpv6Chain, hno, if_neg Bool.false_ne_true]
            cases hno : isIpv6Ext (m (s.p + 0)) with
            | false =>
                rw [hnext hno]
                apply Ends.mono (decodeUpper_read _)
                intro _ _ pi' heq _
                refine ⟨?_, fun hoff => absurd hzero hoff, fun _ hmore _ => hafter hno heq hmore⟩
                exact (PacketInfo.noUpper_of_noL4 heq).trans rfl
            | true =>
                apply Ends.mono (decodeIpv6Chain_noUpper left _)
                intro _ _ pi' heq _
                exact ⟨heq, fun hoff => absurd hzero hoff,
                  fun _ _ h => absurd (h.symm.trans hno) Bool.false_ne_true⟩

theorem decodeIpv6_read {r : ℕ} (hsrc : pi.srcAddr = .zero) (hdst : pi.dstAddr = .zero)
    (h : FragHeaderAt m (m (s.p + 6)) (s.p + ipv6HdrLen) r) :
    Ends m decodeIpv6 (fun st _ pi' => st = .ok → FragInfo.ReadAs
      { version := 6
        src := m.bytes (s.p + 8) 16
        dst := m.bytes (s.p + 24) 16
        id := be32 m (r + 4)
        next := m r
        offset := be16 m (r + 2) >>> 3
        more := be16 m (r + 2) &&& 1 ≠ 0 } pi') s pi := by
  simp only [decodeIpv6, decodeIpv6Header, ends_bind, wp_bind, wp_need, wp_load8, wp_exitIf, wp_be16At,
    wp_wireMinus, wp_loadBytes, wp_modifyOut, wp_advance, wp_clip, wp_pure, true_and, implies_true, and_true,
    reduceCtorEq, false_imp_iff]
  intro _ _ _
  apply Ends.mono ((decodeIpv6Chain_read ipv6MaxExtHeaders h).and (decodeIpv6Chain_next _ _))
  rintro st s' pi' ⟨hread, hnext⟩ hst
  obtain ⟨hframe, hlater, hfirst⟩ := hread hst
  have keep : ∀ {β : Type} (f : PacketInfo → β), (∀ q, f q.noUpper = f q) → f pi' = f _ :=
    fun f hf => PacketInfo.eq_of_erase PacketInfo.noUpper f hf hframe
  constructor
  · exact keep PacketInfo.hasL3 fun _ => rfl
  · exact keep PacketInfo.ipVersion fun _ => rfl
  · exact (keep PacketInfo.srcAddr fun _ => rfl).trans (congrArg (fun a : Addr => a.copyFrom _) hsrc)
  · exact (keep PacketInfo.dstAddr fun _ => rfl).trans (congrArg (fun a : Addr => a.copyFrom _) hdst)
  · exact hlater
  · intro hoff hmore hchain
    exact hfirst hoff (of_decide_eq_true hmore) hchain
  · intro _ _ hno
    exact (hnext hst).resolve_left hno

end network

/-! ### The frame -/

/-- **A fragment that decodes cleanly is read as its bytes say.** -/
theorem decodeFrame_fragment {m : Mem} {i : FragInfo} (h : IsFragment m i) {caplen wirelen : ℕ}
    (hst : (decodeFrame m caplen wirelen).status = .ok) : i.ReadAs (decodeFrame m caplen wirelen) := by
  have houter := decodeFrame_outer m caplen wirelen
  have hst' : DecodeStatus.ofRes (decodeOuter.run m (frameSpan caplen wirelen) {}).res = .ok :=
    (PacketInfo.eq_of_erase PacketInfo.outer PacketInfo.status (fun _ => rfl) houter).symm.trans hst
  have hread : Ends m decodeOuter (fun st _ pi' => st = .ok → i.ReadAs pi') (frameSpan caplen wirelen) {} := by
    have hlink : ∀ {q}, NetworkAt m 12 q → wp (fun _ => True) m decodeL2
        (fun type s' pi₁ => s'.p = q ∧ type = be16 m (q - 2) ∧ pi₁.srcAddr = .zero ∧ pi₁.dstAddr = .zero)
        (fun e _ _ => e ≠ .ok) (frameSpan caplen wirelen) {} := by
      intro q hq
      refine wp_mono (wp_and (wp_top (@decodeL2_network m q (frameSpan caplen wirelen) {} hq))
        decodeL2_shape) (fun type s' pi₁ hl => ?_) fun e _ _ he => ?_
      · obtain ⟨⟨hp, htype, -⟩, hpi⟩ := hl
        exact ⟨hp, htype, PacketInfo.eq_of_erase PacketInfo.noVlan PacketInfo.srcAddr (fun _ => rfl) hpi,
          PacketInfo.eq_of_erase PacketInfo.noVlan PacketInfo.dstAddr (fun _ => rfl) hpi⟩
      · rintro rfl
        exact absurd he.2.1 (by decide)
    simp only [decodeOuter, ends_bind]
    cases h with
    | @ipv4 q hq htype =>
        refine wp_mono (hlink hq) (fun type s' pi₁ hl => ?_) fun e _ _ hne hst => absurd hst hne
        obtain ⟨rfl, rfl, hsrc, hdst⟩ := hl
        rw [htype, if_pos rfl]
        exact decodeIpv4_read hsrc hdst
    | @ipv6 q r hq htype hr =>
        refine wp_mono (hlink hq) (fun type s' pi₁ hl => ?_) fun e _ _ hne hst => absurd hst hne
        obtain ⟨rfl, rfl, hsrc, hdst⟩ := hl
        rw [htype, if_neg (by decide), if_pos rfl]
        exact decodeIpv6_read hsrc hdst hr
  have hres := hread.result hst'
  exact FragInfo.ReadAs.of_outer (a := outerResult _) ⟨hres.hasL3, hres.version, hres.src, hres.dst, hres.later,
    hres.first, hres.chain⟩ houter

end Pcapstat
