import Pcapstat.TopN

/-! # What the keys identify

A flow key is made of the IP version, the protocol and the two endpoints of a packet in their
order.  So the two directions of a conversation share a key (`flowKey_eq_iff`), and the
packet's own endpoints can be told from the key and `*reversed`.  A tunnel key keeps the direction
(`tunnelKeyFromPacket_eq_iff`). -/

namespace Pcapstat

/-! ### Endpoints -/

/-- An address and a port. -/
abbrev Endpoint := Addr × UInt16

def PacketInfo.src (pi : PacketInfo) : Endpoint := (pi.srcAddr, pi.srcPort)

def PacketInfo.dst (pi : PacketInfo) : Endpoint := (pi.dstAddr, pi.dstPort)

/-- The packet with its endpoints exchanged. -/
def PacketInfo.exchanged (pi : PacketInfo) : PacketInfo :=
  { pi with srcAddr := pi.dstAddr, dstAddr := pi.srcAddr, srcPort := pi.dstPort, dstPort := pi.srcPort }

def FlowKey.endA (key : FlowKey) : Endpoint := (key.addrA, key.portA)

def FlowKey.endB (key : FlowKey) : Endpoint := (key.addrB, key.portB)

/-- Endpoints are ordered by address, then by port. -/
def endpointCmp : Endpoint → Endpoint → Ordering := compareLex (compareOn Prod.fst) (compareOn Prod.snd)

instance : Std.TransCmp endpointCmp := by
  unfold endpointCmp
  infer_instance

section endpoints

variable {a b : Endpoint} {pi : PacketInfo}

theorem endpointCmp_eq_iff : endpointCmp a b = .eq ↔ a = b := by
  have haddr : compare a.1 b.1 = .eq ↔ a.1 = b.1 := memcmp_addr
  unfold endpointCmp
  simp only [compareLex_eq_eq, compareOn, haddr, Std.LawfulEqOrd.compare_eq_iff_eq]
  exact Prod.ext_iff.symm

theorem endpointCmp_swap : endpointCmp a b = (endpointCmp b a).swap :=
  Std.OrientedCmp.eq_swap

theorem fromB_iff : fromB pi = true ↔ endpointCmp pi.src pi.dst = .gt := by
  unfold fromB endpointCmp
  simp only [compareLex, compareOn, PacketInfo.src, PacketInfo.dst]
  change _ ↔ (memcmp pi.srcAddr.bytes pi.dstAddr.bytes).then _ = .gt
  cases memcmp pi.srcAddr.bytes pi.dstAddr.bytes with
  | lt =>
      rw [Ordering.lt_then]
      exact ⟨fun h => absurd h Bool.false_ne_true, Ordering.noConfusion⟩
  | eq =>
      rw [Ordering.eq_then, decide_eq_true_eq]
      exact Std.compare_eq_gt.symm
  | gt => exact ⟨fun _ => rfl, fun _ => rfl⟩

theorem exchanged_ends : pi.exchanged.src = pi.dst ∧ pi.exchanged.dst = pi.src := ⟨rfl, rfl⟩

/-- Exchanging the endpoints turns `*reversed` over, unless they are equal. -/
theorem fromB_exchanged : fromB pi.exchanged = if pi.src = pi.dst then false else !fromB pi := by
  have hswap := @endpointCmp_swap pi.dst pi.src
  have heq := @endpointCmp_eq_iff pi.src pi.dst
  rw [Bool.eq_iff_iff, fromB_iff, exchanged_ends.1, exchanged_ends.2]
  by_cases hsame : pi.src = pi.dst
  · rw [if_pos hsame, hswap, heq.mpr hsame]
    decide
  · rw [if_neg hsame, Bool.not_eq_true', ← Bool.not_eq_true, fromB_iff, hswap]
    cases hcmp : endpointCmp pi.src pi.dst with
    | lt => decide
    | eq => exact absurd (heq.mp hcmp) hsame
    | gt => decide

theorem fromB_of_eq (h : pi.src = pi.dst) : fromB pi = false := by
  rw [← Bool.not_eq_true, fromB_iff, endpointCmp_eq_iff.mpr h]
  exact Ordering.noConfusion

end endpoints

/-! ### Flow keys -/

/-- The key of a flow between two endpoints that are in order. -/
def FlowKey.between (ipVersion proto : UInt8) (a b : Endpoint) : FlowKey :=
  { ipVersion := ipVersion, proto := proto, addrA := a.1, portA := a.2, addrB := b.1, portB := b.2 }

/-- The key of a packet that travels from `src` to `dst`. -/
def PacketInfo.flowKey (pi : PacketInfo) : FlowKey :=
  if fromB pi then .between pi.ipVersion pi.ipProto pi.dst pi.src
  else .between pi.ipVersion pi.ipProto pi.src pi.dst

/-- Two packets of one conversation, in the same direction or in opposite ones. -/
def SameConversation (p q : PacketInfo) : Prop :=
  p.ipVersion = q.ipVersion ∧ p.ipProto = q.ipProto ∧
    (p.src = q.src ∧ p.dst = q.dst ∨ p.src = q.dst ∧ p.dst = q.src)

section keys

variable {p q : PacketInfo}

theorem FlowKey.between_inj {v v' proto proto' : UInt8} {a a' b b' : Endpoint} :
    FlowKey.between v proto a b = .between v' proto' a' b' ↔ v = v' ∧ proto = proto' ∧ a = a' ∧ b = b' := by
  simp only [FlowKey.between, FlowKey.mk.injEq, true_and, Prod.ext_iff]
  tauto

theorem flowKeyFromPacket_eq (hl3 : p.hasL3 = true) :
    flowKeyFromPacket p = some (p.flowKey, fromB p) := by
  unfold flowKeyFromPacket PacketInfo.flowKey
  rw [hl3]
  cases fromB p <;> rfl

theorem PacketInfo.flowKey_ordered (p : PacketInfo) : endpointCmp p.flowKey.endA p.flowKey.endB ≠ .gt := by
  unfold PacketInfo.flowKey
  cases hrev : fromB p with
  | false =>
      intro hgt
      exact absurd (hrev.symm.trans (fromB_iff.mpr hgt)) Bool.false_ne_true
  | true =>
      have hgt := fromB_iff.mp hrev
      have hswap := @endpointCmp_swap p.dst p.src
      rw [hgt] at hswap
      intro hgt'
      exact absurd (hswap.symm.trans hgt') (by decide)

theorem PacketInfo.ends_eq (p : PacketInfo) :
    p.src = (if fromB p then p.flowKey.endB else p.flowKey.endA) ∧
      p.dst = if fromB p then p.flowKey.endA else p.flowKey.endB := by
  unfold PacketInfo.flowKey
  cases fromB p <;> exact ⟨rfl, rfl⟩

theorem flowKey_exchanged (p : PacketInfo) : p.exchanged.flowKey = p.flowKey := by
  unfold PacketInfo.flowKey
  rw [fromB_exchanged, exchanged_ends.1, exchanged_ends.2]
  by_cases hsame : p.src = p.dst
  · rw [if_pos hsame, fromB_of_eq hsame, hsame]
    rfl
  · rw [if_neg hsame]
    cases fromB p <;> rfl

/-- Two packets have one key exactly when they belong to one conversation. -/
theorem flowKey_eq_iff : p.flowKey = q.flowKey ↔ SameConversation p q := by
  constructor
  · intro h
    unfold PacketInfo.flowKey at h
    unfold SameConversation
    cases hp : fromB p <;> cases hq : fromB q
    all_goals
      simp only [hp, hq, if_true, Bool.false_eq_true, if_false, FlowKey.between_inj] at h
      obtain ⟨hver, hproto, ha, hb⟩ := h
    · exact ⟨hver, hproto, .inl ⟨ha, hb⟩⟩
    · exact ⟨hver, hproto, .inr ⟨ha, hb⟩⟩
    · exact ⟨hver, hproto, .inr ⟨hb, ha⟩⟩
    · exact ⟨hver, hproto, .inl ⟨hb, ha⟩⟩
  · have hsame : ∀ {r : PacketInfo}, p.ipVersion = r.ipVersion → p.ipProto = r.ipProto → p.src = r.src →
        p.dst = r.dst → p.flowKey = r.flowKey := by
      intro r hver hproto hsrc hdst
      have hrev : fromB p = fromB r := by
        rw [Bool.eq_iff_iff, fromB_iff, fromB_iff, hsrc, hdst]
      unfold PacketInfo.flowKey
      rw [hrev, hver, hproto, hsrc, hdst]
    rintro ⟨hver, hproto, ⟨hsrc, hdst⟩ | ⟨hsrc, hdst⟩⟩
    · exact hsame hver hproto hsrc hdst
    · rw [← flowKey_exchanged q]
      exact hsame hver hproto hsrc hdst

/-! ### Tunnel keys -/

theorem tunnelKeyFromPacket_eq (hg : p.isGtpu = true) (hv : p.gtpV1u = true) :
    tunnelKeyFromPacket p = some { teid := p.teid, ipVersion := p.ipVersion, proto := p.ipProto
                                   addrA := p.srcAddr, addrB := p.dstAddr } := by
  unfold tunnelKeyFromPacket
  rw [hg, hv]
  rfl

theorem tunnelKeyFromPacket_eq_iff (hp : p.isGtpu = true ∧ p.gtpV1u = true)
    (hq : q.isGtpu = true ∧ q.gtpV1u = true) : tunnelKeyFromPacket p = tunnelKeyFromPacket q ↔
      p.teid = q.teid ∧ p.ipVersion = q.ipVersion ∧ p.ipProto = q.ipProto ∧ p.srcAddr = q.srcAddr ∧
        p.dstAddr = q.dstAddr := by
  rw [tunnelKeyFromPacket_eq hp.1 hp.2, tunnelKeyFromPacket_eq hq.1 hq.2]
  simp only [Option.some.injEq, FlowKey.mk.injEq, true_and]

/-! ### The theorem -/

/-- **Keys identify conversations and tunnels.** -/
theorem keys_identify :
    (∀ p q : PacketInfo, p.hasL3 = true → q.hasL3 = true →
      ∃ k r k' r', flowKeyFromPacket p = some (k, r) ∧ flowKeyFromPacket q = some (k', r') ∧
        (keyEqual k k' = true ↔ SameConversation p q)) ∧
    (∀ p : PacketInfo, p.hasL3 = true → ∃ k r, flowKeyFromPacket p = some (k, r) ∧
      flowKeyFromPacket p.exchanged = some (k, if p.src = p.dst then false else !r) ∧
      (p.src = p.dst → r = false) ∧
      p.src = (if r then k.endB else k.endA) ∧ p.dst = if r then k.endA else k.endB) ∧
    (∀ p q : PacketInfo, p.isGtpu = true ∧ p.gtpV1u = true → q.isGtpu = true ∧ q.gtpV1u = true →
      ∃ k k', tunnelKeyFromPacket p = some k ∧ tunnelKeyFromPacket q = some k' ∧
        (keyEqual k k' = true ↔ p.teid = q.teid ∧ p.ipVersion = q.ipVersion ∧ p.ipProto = q.ipProto ∧
          p.srcAddr = q.srcAddr ∧ p.dstAddr = q.dstAddr)) ∧
    ∀ (p : PacketInfo) (k : FlowKey), tunnelKeyFromPacket p = some k →
      tunnelKeyFromPacket p.exchanged = some k → p.srcAddr = p.dstAddr := by
  refine ⟨?_, ?_, ?_, ?_⟩
  · intro p q hp hq
    refine ⟨_, _, _, _, flowKeyFromPacket_eq hp, flowKeyFromPacket_eq hq, ?_⟩
    rw [keyEqual_iff]
    exact flowKey_eq_iff
  · intro p hp
    have hexch : flowKeyFromPacket p.exchanged = some (p.exchanged.flowKey, fromB p.exchanged) :=
      flowKeyFromPacket_eq hp
    rw [flowKey_exchanged, fromB_exchanged] at hexch
    exact ⟨_, _, flowKeyFromPacket_eq hp, hexch, fromB_of_eq, p.ends_eq.1, p.ends_eq.2⟩
  · intro p q hp hq
    have hiff := tunnelKeyFromPacket_eq_iff hp hq
    rw [tunnelKeyFromPacket_eq hp.1 hp.2, tunnelKeyFromPacket_eq hq.1 hq.2, Option.some.injEq] at hiff
    refine ⟨_, _, tunnelKeyFromPacket_eq hp.1 hp.2, tunnelKeyFromPacket_eq hq.1 hq.2, ?_⟩
    rw [keyEqual_iff]
    exact hiff
  · intro p k hk hk'
    unfold tunnelKeyFromPacket at hk hk'
    simp only [Option.ite_none_left_eq_some, Option.some.injEq] at hk hk'
    have hsame := congrArg FlowKey.addrA (hk.2.trans hk'.2.symm)
    exact hsame

/-- A packet from port 40000 to port 80 of the same host. -/
def loopbackPacket : PacketInfo :=
  { hasL3 := true, ipVersion := 4, ipProto := ipprotoTcp, srcAddr := Addr.zero.copyFrom [127, 0, 0, 1]
    dstAddr := Addr.zero.copyFrom [127, 0, 0, 1], srcPort := 40000, dstPort := 80 }

theorem keys_identify_loopback : ∃ k, flowKeyFromPacket loopbackPacket = some (k, true) ∧
    flowKeyFromPacket loopbackPacket.exchanged = some (k, false) ∧ loopbackPacket.src = k.endB := by
  obtain ⟨k, r, hkey, hexch, -, hsrc, -⟩ := keys_identify.2.1 loopbackPacket rfl
  have hrev : (flowKeyFromPacket loopbackPacket).map Prod.snd = some true := by decide +kernel
  rw [hkey, Option.map_some, Option.some.injEq] at hrev
  have hrev : r = true := hrev
  subst hrev
  have hne : ¬ loopbackPacket.src = loopbackPacket.dst := by decide +kernel
  rw [if_neg hne] at hexch
  exact ⟨k, hkey, hexch, hsrc⟩

end keys

end Pcapstat
