import Pcapstat.Recorded
import Pcapstat.FragMap
import Pcapstat.TopTable

/-! # Keys with ports

Only TCP and UDP have ports: every other packet goes without any, whether it is decoded so or takes them from
the fragment cache, so no other flow has a port in its key (`analysisRun_ported`). -/

namespace Pcapstat

open SpanWalk

/-- A packet has ports only if its protocol has. -/
def PacketInfo.Ported (pi : PacketInfo) : Prop := hasPorts pi.ipProto = false → pi.srcPort = 0 ∧ pi.dstPort = 0

def FragEntry.Ported (e : FragEntry) : Prop := hasPorts e.proto = false → e.srcPort = 0 ∧ e.dstPort = 0

def FragCache.Ported (c : FragCache) : Prop := ∀ slots, c.slots = some slots → ∀ i, (slots i).Ported

/-- A key has ports only if its protocol has; the direction does not matter. -/
def FlowKey.Ported (key : FlowKey) (_reversed : Bool) : Prop :=
  hasPorts key.proto = false → key.portA = 0 ∧ key.portB = 0

section ported

variable {w : ℕ} {c : FragCache} {pi : PacketInfo}

theorem hasPorts_eq_false {proto : UInt8} : 
    hasPorts proto = false ↔ proto ≠ ipprotoTcp ∧ proto ≠ ipprotoUdp := by
  simp [hasPorts]

theorem decodeFrame_ported (m : Mem) (caplen wirelen : ℕ) : (decodeFrame m caplen wirelen).Ported := fun h =>
  decodeFrame_ports (.inr (hasPorts_eq_false.mp h))

/-- The cache gives ports only to a packet whose protocol has some. -/
theorem fragCacheApply_ported (hc : c.Ported) (hpi : pi.Ported) :
    (fragCacheApply w c pi).1.Ported ∧ (fragCacheApply w c pi).2.1.Ported := by
  unfold fragCacheApply
  cases hslots : c.slots with
  | none => exact ⟨hc, hpi⟩
  | some slots =>
      dsimp only
      split_ifs with hskip hfirst hlater hsame
      · exact ⟨hc, hpi⟩
      · refine ⟨?_, hpi⟩
        intro slots' hslots' i
        obtain rfl := Option.some.inj hslots'
        by_cases hi : i = slotFor w pi
        · rw [hi, Function.update_self]
          exact hpi
        · rw [Function.update_of_ne hi]
          exact hc slots hslots i
      · exact ⟨hc, hpi⟩
      · refine ⟨hc, fun hproto => ?_⟩
        apply hc slots hslots
        -- the entry is of the packet's protocol
        have hmatch : sameDatagram (slots (slotFor w pi)) pi = true := by simpa using hsame
        simp only [sameDatagram, Bool.and_eq_true, decide_eq_true_eq] at hmatch
        rw [hmatch.1.1.1.2]
        exact hproto
      · exact ⟨hc, hpi⟩

theorem flowKeyFromPacket_ported {key : FlowKey} {r : Bool} (hpi : pi.Ported)
    (h : flowKeyFromPacket pi = some (key, r)) : key.Ported r := by
  have hl3 : pi.hasL3 = true := by
    by_contra hno
    rw [flowKeyFromPacket, if_pos (by simp [hno])] at h
    cases h
  rw [flowKeyFromPacket_eq hl3, Option.some.injEq, Prod.mk.injEq] at h
  obtain ⟨rfl, -⟩ := h
  unfold PacketInfo.flowKey
  cases fromB pi with
  | false => exact hpi
  | true => exact fun hproto => (hpi hproto).symm

theorem flowEvent_ported {s : Seen} {k : FlowKey} {cont : Contribution} (hpi : s.pi.Ported)
    (h : s.flowEvent = some (k, cont)) : k.Ported cont.reversed := by
  unfold Seen.flowEvent at h
  by_cases hst : s.pi.status = .ok
  · rw [if_neg (not_not.mpr hst)] at h
    obtain ⟨⟨k', r⟩, hkey, h⟩ := Option.map_eq_some_iff.mp h
    obtain ⟨rfl, rfl⟩ := Prod.mk.inj h
    exact flowKeyFromPacket_ported hpi hkey
  · rw [if_pos hst] at h
    cases h

/-- What is known of the ports of an analysis. -/
structure Analysis.Ported (a : Analysis) : Prop where
  frags : a.frags.Ported
  flows : ∀ f ∈ a.flows.entries, f.Recorded FlowKey.Ported

theorem Analysis.Ported.account {a a' : Analysis} {f : Frame} {b : Bool} (h : a.Ported) (hinv : a.Inv w)
    (hatt : Attempted w a f a' b) : a'.Ported := by
  have hpi : f.pi.Ported := decodeFrame_ported _ _ _
  obtain ⟨hcache, hseen⟩ := fragCacheApply_ported (w := w) h.frags hpi
  obtain ⟨_, hflows, -⟩ := hatt.flows
  constructor
  · rw [hatt.frags]
    exact hcache
  · exact hflows.recorded hinv.flows (fun _ _ he => flowEvent_ported hseen he) h.flows

/-- **Flows have ports only if their protocol has.** -/
theorem analysisRun_ported {ok : ℕ → Grants} {okFlows okTunnels okFrags : Bool} {a a' : Analysis}
    {r r' : PcapReader} {st : PcapStatus} (hinit : analysisInit w okFlows okTunnels okFrags = some (some a))
    (hrun : analysisRun w ok a r = some (a', r', st)) : ∀ f ∈ a'.flows.entries, f.key.Ported f.firstFromB := by
  have hfresh : Fresh w a := Fresh.of_init hinit
  have hstart : a.Ported := by
    constructor
    · intro slots hslots i _
      rw [hfresh.frags] at hslots
      obtain rfl := Option.some.inj hslots
      exact ⟨rfl, rfl⟩
    · intro f hf
      rw [hfresh.flows] at hf
      cases hf
  have hend := analysisRun_keeps (P := Analysis.Ported) (fun h hinv hatt => h.account hinv hatt) hfresh.inv hstart hrun
  exact fun f hf => (hend.flows f hf).key

end ported

end Pcapstat
