import Pcapstat.Accounting
import Pcapstat.Coherence
import Pcapstat.FlowKeys
import Pcapstat.FragBytes

/-! # What the tables record

The keys that `analysis_account` looks up come from packets that decode cleanly: their IP version is 4 or 6,
and the addresses of version 4 are padded with zeros (`decodeFrame_addressed`).  What holds of every such key
and of the direction it comes with holds of every entry of a table, whatever the allocator answered on the
way, and no entry ends before it begins (`analysisRun_recorded`). -/

namespace Pcapstat

open SpanWalk SpanWalk.Walk

/-! ### Addresses -/

/-- The bytes that an address of IP version 4 does not use are zero. -/
def Addr.Padded (ipVersion : UInt8) (a : Addr) : Prop := ipVersion = 4 → a.bytes.drop 4 = List.replicate 12 0

/-- The packet has a version, and its addresses are of that version. -/
structure PacketInfo.Addressed (pi : PacketInfo) : Prop where
  version : pi.ipVersion = 4 ∨ pi.ipVersion = 6
  src : pi.srcAddr.Padded pi.ipVersion
  dst : pi.dstAddr.Padded pi.ipVersion

section decode

variable {m : Mem} {s : Span} {pi : PacketInfo}

theorem Addr.padded_copyFrom {v : UInt8} {bs : List UInt8} (h : bs.length = 4) : (Addr.zero.copyFrom bs).Padded v := by
  intro _
  show ((bs ++ (List.replicate 16 0).drop bs.length).take 16).drop 4 = _
  rw [List.take_of_length_le (by simp [h]), List.drop_append_of_le_length (by rw [h]), h,
    List.drop_eq_nil_of_le (by rw [h])]
  rfl

theorem Addr.padded_six (a : Addr) : a.Padded 6 := fun h => absurd h (by decide)

theorem decodeIpv4_addressed (hsrc : pi.srcAddr = .zero) (hdst : pi.dstAddr = .zero) :
    Ends m decodeIpv4 (fun st _ pi' => st = .ok → pi'.Addressed) s pi := by
  apply Ends.mono (decodeIpv4_read hsrc hdst)
  intro st s' pi' hread hst
  have h := hread hst
  refine ⟨.inl h.version, ?_, ?_⟩
  · rw [h.src]
    exact Addr.padded_copyFrom (Mem.bytes_length _ _ _)
  · rw [h.dst]
    exact Addr.padded_copyFrom (Mem.bytes_length _ _ _)

theorem decodeIpv6_addressed : Ends m decodeIpv6 (fun st _ pi' => st = .ok → pi'.Addressed) s pi := by
  simp only [decodeIpv6, decodeIpv6Header, ends_bind, wp_bind, wp_need, wp_load8, wp_exitIf, wp_be16At,
    wp_wireMinus, wp_loadBytes, wp_modifyOut, wp_advance, wp_clip, wp_pure, true_and, implies_true, and_true,
    reduceCtorEq, false_imp_iff]
  intro _ _ _
  apply Ends.mono (decodeIpv6Chain_noUpper ipv6MaxExtHeaders _)
  intro st s' pi' hframe _
  have hversion : pi'.ipVersion = 6 :=
    PacketInfo.eq_of_erase PacketInfo.noUpper PacketInfo.ipVersion (fun _ => rfl) hframe
  refine ⟨.inr hversion, ?_, ?_⟩
  · rw [hversion]
    exact Addr.padded_six _
  · rw [hversion]
    exact Addr.padded_six _

theorem decodeOuter_addressed :
    Ends m decodeOuter (fun st _ pi' => st = .ok → pi'.hasL3 = true → pi'.Addressed) s {} := by
  simp only [decodeOuter, ends_bind]
  apply wp_mono decodeL2_shape
  · intro type s' pi' hlink
    have keep : ∀ {β : Type} (f : PacketInfo → β), (∀ q, f q.noVlan = f q) → f pi' = f _ := fun f hf =>
      PacketInfo.eq_of_erase PacketInfo.noVlan f hf hlink
    rw [ends_ite, ends_ite, ends_pure]
    refine ⟨fun _ => ?_, fun _ => ⟨fun _ => ?_, fun _ _ hl3 => ?_⟩⟩
    · apply Ends.mono (decodeIpv4_addressed (keep PacketInfo.srcAddr fun _ => rfl)
        (keep PacketInfo.dstAddr fun _ => rfl))
      exact fun _ _ _ h hst _ => h hst
    · apply Ends.mono decodeIpv6_addressed
      exact fun _ _ _ h hst _ => h hst
    · have hno : pi'.hasL3 = false := keep PacketInfo.hasL3 fun _ => rfl
      exact absurd (hno.symm.trans hl3) Bool.false_ne_true
  · rintro e s' pi' ⟨he, -⟩ rfl
    exact absurd he (by decide)

/-- The addresses of a packet that decodes cleanly are of its version. -/
theorem decodeFrame_addressed {caplen wirelen : ℕ} (hst : (decodeFrame m caplen wirelen).status = .ok)
    (hl3 : (decodeFrame m caplen wirelen).hasL3 = true) : (decodeFrame m caplen wirelen).Addressed := by
  rw [decodeFrame_field PacketInfo.status fun _ => rfl] at hst
  rw [decodeFrame_field PacketInfo.hasL3 fun _ => rfl] at hl3
  have h := (@decodeOuter_addressed m (frameSpan caplen wirelen)).result hst hl3
  have hversion := @decodeFrame_field m caplen wirelen _ PacketInfo.ipVersion fun _ => rfl
  constructor
  · rw [hversion]
    exact h.version
  · rw [hversion, decodeFrame_field PacketInfo.srcAddr fun _ => rfl]
    exact h.src
  · rw [hversion, decodeFrame_field PacketInfo.dstAddr fun _ => rfl]
    exact h.dst

theorem seen_addressed (w : ℕ) (c : FragCache) (f : Frame) (hst : (seen w c f).pi.status = .ok)
    (hl3 : (seen w c f).pi.hasL3 = true) : (seen w c f).pi.Addressed := by
  have hframe := (fragCacheApply_frame w c f.pi).1
  have keep : ∀ {β : Type} (g : PacketInfo → β), (∀ q, g q.noPorts = g q) → g (seen w c f).pi = g f.pi :=
    fun g hg => PacketInfo.eq_of_erase PacketInfo.noPorts g hg hframe
  rw [keep PacketInfo.status fun _ => rfl] at hst
  rw [keep PacketInfo.hasL3 fun _ => rfl] at hl3
  have h : f.pi.Addressed := decodeFrame_addressed hst hl3
  have hversion := keep PacketInfo.ipVersion fun _ => rfl
  constructor
  · rw [hversion]
    exact h.version
  · rw [hversion, keep PacketInfo.srcAddr fun _ => rfl]
    exact h.src
  · rw [hversion, keep PacketInfo.dstAddr fun _ => rfl]
    exact h.dst

end decode

/-! ### Entries -/

/-- A key and the direction of an entry. -/
abbrev KeyProp := FlowKey → Bool → Prop

/-- The entry is of a kind of keys, and it does not end before it begins. -/
structure Flow.Recorded (K : KeyProp) (f : Flow) : Prop where
  key : K f.key f.firstFromB
  times : f.firstTsNs ≤ f.lastTsNs

/-- The version and the addresses of a key. -/
structure FlowKey.Addressed (key : FlowKey) : Prop where
  version : key.ipVersion = 4 ∨ key.ipVersion = 6
  addrA : key.addrA.Padded key.ipVersion
  addrB : key.addrB.Padded key.ipVersion

/-- The key and the direction of a flow: the endpoints are in order, and there is no direction between equal
ones. -/
structure FlowKey.OfFlow (key : FlowKey) (reversed : Bool) : Prop where
  addressed : key.Addressed
  teid : key.teid = 0
  ordered : endpointCmp key.endA key.endB ≠ .gt
  reversed : key.endA = key.endB → reversed = false

/-- The key of a tunnel. -/
structure FlowKey.OfTunnel (key : FlowKey) (_reversed : Bool) : Prop where
  addressed : key.Addressed
  proto : key.proto = ipprotoUdp
  portA : key.portA = 0
  portB : key.portB = 0

section entries

variable {K : KeyProp} {w : ℕ}

theorem accounted_recorded {k : FlowKey} {c : Contribution} {old : Option Flow} (hk : K k c.reversed)
    (hold : ∀ f, old = some f → f.key = k ∧ f.Recorded K) : (accounted k c old).Recorded K := by
  cases old with
  | none =>
      obtain ⟨-, hkey, -⟩ := (Flow.fresh k).account_frame true c.reversed c.tcpFlags c.wireLen c.tsNs
      obtain ⟨hlast, hfirst, hrev⟩ :=
        (Flow.fresh k).account_times_new c.reversed c.tcpFlags c.wireLen c.tsNs
      constructor
      · show K ((Flow.fresh k).account true _ _ _ _).key ((Flow.fresh k).account true _ _ _ _).firstFromB
        rw [hkey, hrev]
        exact hk
      · show ((Flow.fresh k).account true _ _ _ _).firstTsNs ≤ ((Flow.fresh k).account true _ _ _ _).lastTsNs
        rw [hfirst, hlast]
        exact UInt64.le_refl _
  | some f =>
      obtain ⟨hfk, hf⟩ := hold f rfl
      obtain ⟨-, hkey, -⟩ := f.account_frame false c.reversed c.tcpFlags c.wireLen c.tsNs
      obtain ⟨hlast, hfirst, hrev⟩ := f.account_times c.reversed c.tcpFlags c.wireLen c.tsNs
      constructor
      · show K (f.account false _ _ _ _).key (f.account false _ _ _ _).firstFromB
        rw [hkey, hrev]
        split
        · rw [hfk]
          exact hk
        · exact hf.key
      · have htimes := hf.times
        show (f.account false _ _ _ _).firstTsNs ≤ (f.account false _ _ _ _).lastTsNs
        rw [hfirst, hlast]
        rw [UInt64.le_iff_toNat_le] at htimes ⊢
        simp only [gt_iff_lt, UInt64.lt_iff_toNat_lt]
        split_ifs <;> omega

/-- Adding a packet keeps what is known of the entries. -/
theorem Added.recorded {t t' : FlowTable} {e : Option (FlowKey × Contribution)} {b : Bool} (h : Added w t e t' b)
    (ht : t.Inv w) (he : ∀ k c, e = some (k, c) → K k c.reversed) (hold : ∀ f ∈ t.entries, f.Recorded K) :
    ∀ f ∈ t'.entries, f.Recorded K := by
  cases h with
  | skip _ => exact hold
  | refused _ => exact hold
  | @done k c _ rest _ _ hperm hperm' =>
      intro f hf
      rcases List.mem_cons.mp (hperm'.mem_iff.mp hf) with rfl | hf
      · apply accounted_recorded (he k c rfl)
        intro g hg
        refine ⟨(FlowTable.lookup_key ht hg).1, hold g ?_⟩
        rw [hperm.mem_iff, hg]
        exact List.mem_cons_self
      · exact hold f (hperm.mem_iff.mpr (List.mem_append_right _ hf))

end entries

/-! ### Runs -/

section run

variable {w : ℕ}

theorem flowEvent_ofFlow {c : FragCache} {f : Frame} {k : FlowKey} {cont : Contribution}
    (h : (seen w c f).flowEvent = some (k, cont)) : k.OfFlow cont.reversed := by
  generalize hs : seen w c f = s at h
  unfold Seen.flowEvent at h
  by_cases hst : s.pi.status = .ok
  swap
  · rw [if_pos hst] at h
    cases h
  rw [if_neg (not_not.mpr hst)] at h
  obtain ⟨⟨k', r⟩, hkey, h⟩ := Option.map_eq_some_iff.mp h
  obtain ⟨rfl, rfl⟩ := Prod.mk.inj h
  have hl3 : s.pi.hasL3 = true := by
    by_contra hno
    rw [flowKeyFromPacket, if_pos (by simp [hno])] at hkey
    cases hkey
  have haddr : s.pi.Addressed := by
    subst hs
    exact seen_addressed w c f hst hl3
  rw [flowKeyFromPacket_eq hl3, Option.some.injEq, Prod.mk.injEq] at hkey
  obtain ⟨rfl, rfl⟩ := hkey
  refine ⟨?_, ?_, s.pi.flowKey_ordered, ?_⟩
  · unfold PacketInfo.flowKey
    cases fromB s.pi with
    | false => exact ⟨haddr.version, haddr.src, haddr.dst⟩
    | true => exact ⟨haddr.version, haddr.dst, haddr.src⟩
  · unfold PacketInfo.flowKey
    cases fromB s.pi <;> rfl
  · intro hsame
    apply fromB_of_eq
    obtain ⟨hsrc, hdst⟩ := s.pi.ends_eq
    rw [hsrc, hdst, hsame]

theorem tunnelEvent_ofTunnel {c : FragCache} {f : Frame} {k : FlowKey} {cont : Contribution}
    (h : (seen w c f).tunnelEvent = some (k, cont)) : k.OfTunnel cont.reversed := by
  have hdecoded := seen_decoded w c f
  have haddressed := seen_addressed w c f
  generalize seen w c f = s at h hdecoded haddressed
  unfold Seen.tunnelEvent at h
  by_cases hst : s.pi.status = .ok
  swap
  · rw [if_pos hst] at h
    cases h
  rw [if_neg (not_not.mpr hst)] at h
  cases hjoins : joinsTunnel s.pi with
  | false =>
      rw [hjoins] at h
      cases h
  | true =>
      have hj := hjoins
      simp only [joinsTunnel, Bool.and_eq_true] at hj
      have htun : Tunnelled s.pi := hdecoded.gtpu.tunnelled hj.1.1.1
      have haddr : s.pi.Addressed := haddressed hst htun.hasL3
      rw [hjoins, tunnelKeyFromPacket_eq hj.1.1.1 hj.1.1.2] at h
      obtain ⟨rfl, rfl⟩ := Prod.mk.inj (Option.some.inj h)
      exact ⟨⟨haddr.version, haddr.src, haddr.dst⟩, htun.proto, rfl, rfl⟩

/-- What is known of the tables of an analysis. -/
structure Analysis.Recorded (w : ℕ) (a : Analysis) : Prop where
  inv : a.Inv w
  flows : ∀ f ∈ a.flows.entries, f.Recorded FlowKey.OfFlow
  tunnels : ∀ f ∈ a.tunnels.entries, f.Recorded FlowKey.OfTunnel

theorem Analysis.Recorded.account {a a' : Analysis} {f : Frame} {ok : Grants} {b : Bool} (h : a.Recorded w)
    (hcall : analysisAccount w a f.pi f.caplen f.wirelen f.tsNs ok = some (a', b)) : a'.Recorded w := by
  obtain ⟨a₁, b₁, hcall', hatt⟩ := analysisAccount_attempted h.inv f ok
  rw [hcall, Option.some.injEq, Prod.mk.injEq] at hcall'
  obtain ⟨rfl, rfl⟩ := hcall'
  obtain ⟨_, hflows, -⟩ := hatt.flows
  obtain ⟨_, htunnels, -⟩ := hatt.tunnels
  refine ⟨⟨hflows.inv, htunnels.inv⟩, ?_, ?_⟩
  · exact hflows.recorded h.inv.flows (fun _ _ he => flowEvent_ofFlow he) h.flows
  · exact htunnels.recorded h.inv.tunnels (fun _ _ he => tunnelEvent_ofTunnel he) h.tunnels

theorem Analysis.Recorded.accountAll {ok : ℕ → Grants} {fs : List Frame} {i : ℕ} {a a' : Analysis} {b : Bool}
    (h : a.Recorded w) (hrun : Pcapstat.accountAll w ok i a fs = some (a', b)) : a'.Recorded w := by
  induction fs generalizing i a with
  | nil =>
      rw [Pcapstat.accountAll, Option.some.injEq, Prod.mk.injEq] at hrun
      exact hrun.1 ▸ h
  | cons f fs ih =>
      rw [Pcapstat.accountAll, Option.bind_eq_bind, Option.bind_eq_some_iff] at hrun
      obtain ⟨⟨a₁, added⟩, hcall, hrun⟩ := hrun
      have h₁ : a₁.Recorded w := h.account hcall
      cases added with
      | false =>
          obtain ⟨rfl, -⟩ := Prod.mk.inj (Option.some.inj hrun)
          exact h₁
      | true => exact ih h₁ hrun

theorem Analysis.Recorded.run {ok : ℕ → Grants} {a a' : Analysis} {r r' : PcapReader} {st : PcapStatus}
    (h : a.Recorded w) (hrun : analysisRun w ok a r = some (a', r', st)) : a'.Recorded w := by
  obtain ⟨recs, st₁, r₁, hdel⟩ := exists_delivers r
  obtain ⟨a₁, b, hall, -⟩ := @accountAll_spec w ok (recs.map PcapRecord.frame) a 0 h.inv
  obtain ⟨r₂, st₂, hrun', -⟩ := analysisRun_of_delivers hdel hall
  rw [hrun, Option.some.injEq, Prod.mk.injEq] at hrun'
  exact hrun'.1 ▸ h.accountAll hall

/-- **What an analysis has recorded when `analysis_run` returns**, for whatever reason it does. -/
theorem analysisRun_recorded {ok : ℕ → Grants} {okFlows okTunnels okFrags : Bool} {a a' : Analysis}
    {r r' : PcapReader} {st : PcapStatus} (hinit : analysisInit w okFlows okTunnels okFrags = some (some a))
    (hrun : analysisRun w ok a r = some (a', r', st)) : a'.Recorded w := by
  have hfresh : Fresh w a := Fresh.of_init hinit
  refine Analysis.Recorded.run ⟨hfresh.inv, ?_, ?_⟩ hrun
  · intro f hf
    rw [hfresh.flows] at hf
    cases hf
  · intro f hf
    rw [hfresh.tunnels] at hf
    cases hf

end run

end Pcapstat
