import Pcapstat.FlowKeys
import Pcapstat.FragFlow
import Pcapstat.TwoRuns

/-! # Borrowed ports never make a flow

The fragment cache and the table of flows are filled by different functions in one call of
`analysis_account`, under conditions that are written separately.  They fit together: whatever the
cache remembers of a first fragment, the table has its flow (`Analysis.Backed`).  So a later fragment
that is given ports is added to a flow that exists. -/

namespace Pcapstat

/-! ### The flow of an entry -/

/-- A packet with the header fields and the ports that the entry remembers. -/
def FragEntry.packet (e : FragEntry) : PacketInfo :=
  { hasL3 := true, ipVersion := e.ipVersion, ipProto := e.proto, srcAddr := e.src, dstAddr := e.dst
    srcPort := e.srcPort, dstPort := e.dstPort }

/-- The table has the flow of every entry of the cache. -/
def Analysis.Backed (a : Analysis) : Prop :=
  ∀ m, a.frags.slots = some m → ∀ i, (m i).inUse = true → ∃ f, a.flows.lookup (m i).packet.flowKey = some f

section backed

variable {w : ℕ} {t t' : FlowTable} {a a' : Analysis} {f : Frame} {fs : List Frame}

theorem packet_ofFirst (p : PacketInfo) :
    (FragEntry.ofFirst p).packet.flowKey = p.flowKey ∧ fromB (FragEntry.ofFirst p).packet = fromB p :=
  ⟨rfl, rfl⟩

theorem Added.lookup_isSome {e : Option (FlowKey × Contribution)} {b : Bool} (h : Added w t e t' b)
    {k : FlowKey} (hk : ∃ g, t.lookup k = some g) : ∃ g, t'.lookup k = some g := by
  cases h with
  | skip _ => exact hk
  | refused _ => exact hk
  | @done k₁ c _ _ _ hlookup _ _ =>
      rw [hlookup]
      split_ifs
      · exact ⟨_, rfl⟩
      · exact hk

theorem Added.lookup_key {k : FlowKey} {c : Contribution} (h : Added w t (some (k, c)) t' true) :
    t'.lookup k = some (accounted k c (t.lookup k)) := by
  cases h with
  | done _ hlookup _ _ =>
      rw [hlookup, if_pos rfl]

/-- A contribution to an entry that exists does not count as a new one. -/
theorem Added.count_eq (ht : t.Inv w) {k : FlowKey} {c : Contribution} {b : Bool}
    (h : Added w t (some (k, c)) t' b) {g : Flow} (hg : t.lookup k = some g) : t'.count = t.count := by
  cases h with
  | refused _ => rfl
  | done ht' _ hold hnew =>
      rw [hg] at hold
      rw [ht.count, ht'.count, hold.length_eq, hnew.length_eq]
      rfl

/-- A first fragment that the cache records is added to its flow. -/
theorem flowEvent_of_records (hrec : recordsPorts f.pi = true) :
    ∃ c, (seen w a.frags f).flowEvent = some (f.pi.flowKey, c) := by
  simp only [recordsPorts, Bool.and_eq_true, decide_eq_true_eq] at hrec
  have hlater : f.pi.frag ≠ .later := by
    rw [hrec.1.2]
    exact FragKind.noConfusion
  unfold Seen.flowEvent
  rw [seen_of_not_later a.frags hlater, if_neg (not_not.mpr hrec.1.1.1), flowKeyFromPacket_eq hrec.1.1.2]
  exact ⟨_, rfl⟩

/-- **One call keeps the flows of the entries.** -/
theorem Analysis.Backed.step (h : a.Backed) (hcall : Accounted w a f a') : a'.Backed := by
  intro m' hm' i hi
  rcases hslots : a.frags with ⟨slots⟩
  have hfrags := hcall.frags
  rw [hslots] at hfrags
  cases slots with
  | none =>
      rw [hfrags] at hm'
      exact absurd hm' (Option.some_ne_none m').symm
  | some m =>
      rw [fragCacheApply_some] at hfrags
      rw [hfrags, Option.some.injEq] at hm'
      subst hm'
      by_cases hnew : recordsPorts f.pi = true ∧ slotFor w f.pi = i
      · -- the entry of this packet
        obtain ⟨hrec, rfl⟩ := hnew
        have hentry : (fragScheme w).store m f.pi (slotFor w f.pi) = .ofFirst f.pi := by
          unfold DirectMapped.Scheme.store
          rw [if_pos (show (fragScheme w).writes f.pi = true from hrec)]
          exact Function.update_self _ _ _
        obtain ⟨c, hevent⟩ := @flowEvent_of_records w a f hrec
        have hadd := hcall.flows
        rw [hevent] at hadd
        rw [hentry, (packet_ofFirst f.pi).1]
        exact ⟨_, hadd.lookup_key⟩
      · -- an entry that was there before
        have hkeep : (fragScheme w).store m f.pi i = m i :=
          DirectMapped.Scheme.store_of_ne fun hrec hslot => hnew ⟨hrec, hslot⟩
        rw [hkeep] at hi ⊢
        exact hcall.flows.lookup_isSome (h m (by rw [hslots]) i hi)

theorem Fresh.backed (ha : Fresh w a) : a.Backed := by
  intro m hm i hi
  rw [ha.frags, Option.some.injEq] at hm
  subst hm
  exact absurd hi Bool.false_ne_true

theorem AccountedAll.backed (hrun : AccountedAll w a fs a') (h : a.Backed) : a'.Backed := by
  induction hrun with
  | nil => exact h
  | cons hcall _ ih => exact ih (h.step hcall)

end backed

/-! ### Later fragments -/

section later

variable {w : ℕ} {a a' : Analysis} {f : Frame}

/-- What a later fragment that was given ports contributes. -/
theorem flowEvent_of_matched (hm : (seen w a.frags f).matched = true) :
    (seen w a.frags f).flowEvent = some ((seen w a.frags f).pi.flowKey,
      ⟨fromB (seen w a.frags f).pi, 0, f.wirelen, f.tsNs⟩) := by
  obtain ⟨hst, hl3, -⟩ := (seen_decoded w a.frags f).matched hm
  have hl4 : (seen w a.frags f).pi.hasL4 = false := by
    obtain ⟨hports, hmatched, -⟩ := fragCacheApply_frame w a.frags f.pi
    have hsame : (seen w a.frags f).pi.hasL4 = f.pi.hasL4 :=
      PacketInfo.eq_of_erase PacketInfo.noPorts PacketInfo.hasL4 (fun _ => rfl) hports
    rw [hsame, ← Bool.not_eq_true]
    intro hl4
    exact (decodeFrame_l4_iff.mp hl4).2.2.1 (hmatched hm).2.2
  unfold Seen.flowEvent
  rw [if_neg (not_not.mpr hst), flowKeyFromPacket_eq hl3, hl4, Bool.and_false]
  rfl

end later

/-- **Attribution never invents a flow.** -/
theorem accountAll_borrowed {w : ℕ} {okFlows okTunnels okFrags : Bool} {a a' : Analysis}
    (hinit : analysisInit w okFlows okTunnels okFrags = some (some a)) {ok : ℕ → Grants} {fs : List Frame}
    (hrun : accountAll w ok 0 a fs = some (a', true)) :
    (∀ m, a'.frags.slots = some m → ∀ i, (m i).inUse = true →
      ∃ j, flowTableFind w a'.flows (m i).packet.flowKey = some (some j)) ∧
    ∀ (f : Frame) (ok' : Grants), (seen w a'.frags f).matched = true →
      ∃ p post k r g, LastFirst (fs.map Frame.pi) f.pi p post ∧
        (seen w a'.frags f).pi = f.pi.withPorts p.srcPort p.dstPort ∧ flowKeyFromPacket p = some (k, r) ∧
        flowKeyFromPacket (seen w a'.frags f).pi = some (k, r) ∧ a'.flows.lookup k = some g ∧
        ∃ a'' b, analysisAccount w a' f.pi f.caplen f.wirelen f.tsNs ok' = some (a'', b) ∧
          a''.flows.count = a'.flows.count ∧
          (b = true → a''.flows.lookup k = some (g.account false r 0 f.wirelen f.tsNs)) := by
  have hfresh := Fresh.of_init hinit
  have hall := AccountedAll.of_run hfresh.inv hrun
  have hinv := hall.inv hfresh.inv
  have hbacked := hall.backed hfresh.backed
  refine ⟨?_, ?_⟩
  · intro m hm i hi
    obtain ⟨g, hg⟩ := hbacked m hm i hi
    obtain ⟨r, hfind, hr⟩ := hinv.flows.find (m i).packet.flowKey
    rw [hg] at hr
    obtain ⟨j, rfl, -⟩ := Option.map_eq_some_iff.mp hr
    exact ⟨j, hfind⟩
  · intro f ok' hm
    have hstore := hall.fragStore hfresh
    have hfound := hm
    rw [hstore, seen_matched] at hfound
    obtain ⟨hask, p, post, hlast, hno⟩ := foundPorts_iff.mp hfound
    have hentry := foundPorts_entry hlast hno
    have hpi : (seen w a'.frags f).pi = f.pi.withPorts p.srcPort p.dstPort := by
      rw [hstore, seen_pi, if_pos hfound, hentry]
      rfl
    obtain ⟨-, hl3, -⟩ := (seen_decoded w a'.frags f).matched hm
    have hrec := hlast.records
    simp only [recordsPorts, Bool.and_eq_true, decide_eq_true_eq] at hrec
    -- the two packets agree on all that a flow key is made of
    have hkey : flowKeyFromPacket (seen w a'.frags f).pi = flowKeyFromPacket p := by
      have hsame := hlast.key
      simp only [fragKey, FragKey.mk.injEq] at hsame
      obtain ⟨hver, hproto, -, hsrc, hdst⟩ := hsame
      rw [hpi] at hl3 ⊢
      exact flowKeyFromPacket_congr (hl3.trans hrec.1.1.2.symm) hver.symm hproto.symm hsrc.symm hdst.symm rfl rfl
    have hseen := flowKeyFromPacket_eq hl3
    have hused : (FragEntry.ofFirst p).inUse = true := rfl
    obtain ⟨g, hg⟩ := hbacked _ (congrArg FragCache.slots hstore) (slotFor w f.pi) (hentry ▸ hused)
    rw [hentry, (packet_ofFirst p).1] at hg
    have hp := flowKeyFromPacket_eq hrec.1.1.2
    have hsame := hseen.symm.trans (hkey.trans hp)
    rw [Option.some.injEq, Prod.mk.injEq] at hsame
    obtain ⟨a'', b, hcall, hatt⟩ := analysisAccount_attempted hinv f ok'
    obtain ⟨v, hadd, hv⟩ := hatt.flows
    rw [flowEvent_of_matched hm, hsame.1, hsame.2] at hadd
    refine ⟨p, post, p.flowKey, fromB p, g, hlast, hpi, hp, hkey.trans hp, hg, a'', b, hcall,
      hadd.count_eq hinv.flows hg, ?_⟩
    intro hb
    rw [hv hb] at hadd
    rw [hadd.lookup_key, hg]
    rfl

/-- A clean first fragment, and a later one of its datagram. -/
theorem accountAll_borrowed_ipv4 : ∃ a a' a'' k r g, analysisInit 64 true true true = some (some a) ∧
    accountAll 64 (fun _ => ⟨true, true⟩) 0 a [cleanFirst] = some (a', true) ∧
    (seen 64 a'.frags secondFragment).matched = true ∧
    flowKeyFromPacket (seen 64 a'.frags secondFragment).pi = some (k, r) ∧
    analysisAccount 64 a' secondFragment.pi secondFragment.caplen secondFragment.wirelen
      secondFragment.tsNs ⟨true, true⟩ = some (a'', true) ∧
    a'.flows.count = 1 ∧ a''.flows.count = 1 ∧ a''.flows.lookup k = some g ∧
    (k.portA, k.portB) = (1000, 2000) ∧ (g.packets, g.bytes) = (2, 84) := by
  obtain ⟨a, a', hinit, hrun, hview⟩ := exists_runOn [cleanFirst]
    (fun a => ([a.flows.count, a.tunnels.count], a.flows.entries.map fun f =>
      ([f.key.portA, f.key.portB], [f.packets, f.bytes])))
    ([1, 0], [([1000, 2000], [1, 42])]) (by decide +kernel)
  simp only [Prod.mk.injEq, List.cons.injEq, and_true] at hview
  obtain ⟨⟨hone, hzero⟩, hentries⟩ := hview
  have hinv := (AccountedAll.of_run (Fresh.of_init hinit).inv hrun).inv (Fresh.of_init hinit).inv
  have hroom : ∀ {t : FlowTable}, t.Inv 64 → t.count ≤ 1 → ¬ needsRoom 64 t = true := by
    intro t ht hle
    have hmin := ht.min
    rw [ht.needsRoom_iff]
    omega
  obtain ⟨a₁, hcall⟩ := analysisAccount_of_room hinv (hroom hinv.flows hone.le)
    (hroom hinv.tunnels (hzero.trans_le (Nat.zero_le 1))) secondFragment ⟨true, true⟩
  have hm := secondFragment_matched hinit hrun
  obtain ⟨p, post, k, r, g, -, -, -, hkey, hg, a'', b, hcall', hcount, hentry⟩ :=
    (accountAll_borrowed hinit hrun).2 secondFragment ⟨true, true⟩ hm
  rw [hcall, Option.some.injEq, Prod.mk.injEq] at hcall'
  obtain ⟨rfl, rfl⟩ := hcall'
  have hkg := (FlowTable.lookup_key hinv.flows hg).1
  have hmem : ([g.key.portA, g.key.portB], [g.packets, g.bytes]) ∈
      a'.flows.entries.map fun f => ([f.key.portA, f.key.portB], [f.packets, f.bytes]) :=
    List.mem_map_of_mem (List.mem_of_find?_eq_some hg)
  rw [hentries, List.mem_singleton, hkg] at hmem
  simp only [Prod.mk.injEq, List.cons.injEq, and_true] at hmem
  obtain ⟨⟨hportA, hportB⟩, hpackets, hbytes⟩ := hmem
  obtain ⟨hpackets', hbytes', -⟩ := g.account_sums false r 0 secondFragment.wirelen secondFragment.tsNs
  refine ⟨a, a', a₁, k, r, _, hinit, hrun, hm, hkey, hcall, hone, hcount.trans hone, hentry rfl, ?_, ?_⟩
  · rw [hportA, hportB]
  · rw [hpackets', hbytes', hpackets, hbytes]
    rfl

end Pcapstat
