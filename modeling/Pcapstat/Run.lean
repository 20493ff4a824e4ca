import Pcapstat.Analyze
import Pcapstat.DecodeCut
import Pcapstat.FlowMap
import Pcapstat.Verdict

/-! # Runs of the pipeline

A run of `analysis_account` over a sequence of frames.  What one call does to a table is said
once (`Added`), in terms of the map the table stands for; what it does to the counters and the
fragment cache is said by the model itself.  A run of `analysis_run` is such a run over the
records that the reader delivers. -/

namespace Pcapstat

open LinearProbe

/-! ### Adding to a table -/

/-- What one packet contributes to an entry. -/
structure Contribution where
  reversed : Bool
  tcpFlags : UInt8
  wireLen : UInt32
  tsNs : UInt64
deriving DecidableEq, Repr

/-- The entry of `k` after a contribution, given the one before. -/
def accounted (k : FlowKey) (c : Contribution) : Option Flow → Flow
  | none => (Flow.fresh k).account true c.reversed c.tcpFlags c.wireLen c.tsNs
  | some f => f.account false c.reversed c.tcpFlags c.wireLen c.tsNs

/-- `t'` is `t` after a contribution, if there was one; the last argument is false when memory
ran out. -/
inductive Added (w : ℕ) (t : FlowTable) : Option (FlowKey × Contribution) → FlowTable → Bool → Prop where
  | skip : t.Inv w → Added w t none t true
  | refused {e : FlowKey × Contribution} : t.Inv w → Added w t (some e) t false
  | done {k : FlowKey} {c : Contribution} {t' : FlowTable} {rest : List Flow} : t'.Inv w →
      (∀ k', t'.lookup k' = if k' = k then some (accounted k c (t.lookup k)) else t.lookup k') →
      t.entries.Perm ((t.lookup k).toList ++ rest) →
      t'.entries.Perm (accounted k c (t.lookup k) :: rest) → Added w t (some (k, c)) t' true

theorem Added.inv {w : ℕ} {t t' : FlowTable} {e : Option (FlowKey × Contribution)} {b : Bool}
    (h : Added w t e t' b) : t'.Inv w := by
  cases h with
  | skip h => exact h
  | refused h => exact h
  | done h _ _ _ => exact h

/-- All entries are for keys among `ks`. -/
def FlowTable.Within (t : FlowTable) (ks : List FlowKey) : Prop := ∀ f ∈ t.entries, f.key ∈ ks

theorem FlowTable.within_of_empty {t : FlowTable} (h : t.entries = []) (ks : List FlowKey) : t.Within ks := by
  intro f hf
  rw [h] at hf
  exact absurd hf List.not_mem_nil

theorem FlowTable.Within.room {w : ℕ} {t : FlowTable} {ks : List FlowKey} (hk : t.Within ks) (h : t.Inv w)
    (hfew : ks.length ≤ 10) : ¬ needsRoom w t = true := by
  have hsub : t.entries.map Flow.key ⊆ ks := by
    intro k hk'
    obtain ⟨f, hf, rfl⟩ := List.mem_map.mp hk'
    exact hk f hf
  have hlen : t.entries.length ≤ ks.length :=
    (List.length_map Flow.key).symm.trans_le (h.nodup.subperm hsub).length_le
  have hmin := h.min
  have hcount := h.count
  rw [h.needsRoom_iff]
  omega

theorem Added.within {w : ℕ} {t t' : FlowTable} {ks : List FlowKey} {e : Option (FlowKey × Contribution)}
    {b : Bool} (hadd : Added w t e t' b) (hk : t.Within ks) (he : ∀ x ∈ e, x.1 ∈ ks) : t'.Within ks := by
  cases hadd with
  | skip _ => exact hk
  | refused _ => exact hk
  | @done k c _ rest hinv hlookup hold hnew =>
      intro f hf
      have hl : t'.lookup f.key = some f := (LinearProbe.Scheme.lookup_eq_some hinv.nodup).mpr ⟨hf, rfl⟩
      rw [hlookup] at hl
      by_cases hfk : f.key = k
      · exact hfk ▸ he _ rfl
      · rw [if_neg hfk] at hl
        exact hk f (List.mem_of_find?_eq_some hl)

theorem Flow.account_frame (f : Flow) (ins rev : Bool) (flags : UInt8) (len : UInt32) (ts : UInt64) :
    (f.account ins rev flags len ts).inUse = f.inUse ∧ (f.account ins rev flags len ts).key = f.key ∧
      (f.account ins rev flags len ts).hash = f.hash := by
  simp only [Flow.account]
  split_ifs <;> exact ⟨rfl, rfl, rfl⟩

theorem Flow.account_sums (f : Flow) (ins rev : Bool) (fl : UInt8) (len : UInt32) (ts : UInt64) :
    (f.account ins rev fl len ts).packets = f.packets + 1 ∧
      (f.account ins rev fl len ts).bytes = f.bytes + len.toUInt64 ∧
      (f.account ins rev fl len ts).tcpFlags = f.tcpFlags ||| fl := by
  simp only [Flow.account]
  split_ifs <;> exact ⟨rfl, rfl, rfl⟩

/-- `account` adds the contribution or, out of memory, does nothing. -/
theorem account_spec {w : ℕ} {t : FlowTable} (h : t.Inv w) (k : FlowKey) (c : Contribution) (ok : Bool) :
    ∃ t' b, account w t k c.reversed c.tcpFlags c.wireLen c.tsNs ok = some (t', b) ∧
      Added w t (some (k, c)) t' b := by
  obtain ⟨⟨t₁, f, ins⟩, hcall, ho⟩ := h.findOrInsert k ok
  rw [account, hcall, Option.bind_eq_bind, Option.bind_some]
  cases f with
  | none =>
      obtain ⟨rfl, -, -⟩ := ho.of_null
      exact ⟨_, _, rfl, .refused h⟩
  | some j =>
      obtain ⟨hslot, rfl⟩ := ho.entry h
      have hacc : (t₁.slot j).account (t.lookup k).isNone c.reversed c.tcpFlags c.wireLen c.tsNs =
          accounted k c (t.lookup k) := by
        rw [hslot]
        cases t.lookup k <;> rfl
      have hkeep : (accounted k c (t.lookup k)).inUse = true ∧ (accounted k c (t.lookup k)).key = k ∧
          (accounted k c (t.lookup k)).hash = keyHash k := by
        cases hl : t.lookup k with
        | none => exact Flow.account_frame _ _ _ _ _ _
        | some f =>
            obtain ⟨hkey, hu, hhash⟩ := FlowTable.lookup_key h hl
            obtain ⟨hu', hkey', hhash'⟩ := f.account_frame false c.reversed c.tcpFlags c.wireLen c.tsNs
            exact ⟨hu'.trans hu, hkey'.trans hkey, hhash'.trans hhash⟩
      obtain ⟨hinv, hlookup, rest, hold, hnew⟩ := ho.store h hkeep.1 hkeep.2.1 hkeep.2.2
      refine ⟨t₁.store j (accounted k c (t.lookup k)), true, ?_, .done hinv hlookup hold hnew⟩
      simp only [hacc]
      rfl

/-- With room for one more entry, `account` needs no memory. -/
theorem account_of_room {w : ℕ} {t : FlowTable} (h : t.Inv w) (hroom : ¬ needsRoom w t = true)
    (k : FlowKey) (rev : Bool) (fl : UInt8) (len : UInt32) (ts : UInt64) (ok : Bool) :
    ∃ t', account w t k rev fl len ts ok = some (t', true) := by
  obtain ⟨t₁, j, ins, hcall, -⟩ := h.findOrInsert_of_room hroom k ok
  rw [account, hcall]
  exact ⟨_, rfl⟩

/-! ### Frames -/

/-- What `analysis_account` is told about a record, and the bytes it was decoded from. -/
structure Frame where
  mem : SpanWalk.Mem
  caplen : UInt32
  wirelen : UInt32
  tsNs : UInt64

/-- The decoded frame. -/
def Frame.pi (f : Frame) : PacketInfo := decodeFrame f.mem f.caplen.toNat f.wirelen.toNat

def PcapRecord.frame (rec : PcapRecord) : Frame :=
  ⟨(rec.data.getD {}).mem, rec.caplen, rec.wirelen, rec.tsNs⟩

/-- A frame after `frag_cache_apply`. -/
structure Seen where
  pi : PacketInfo
  matched : Bool
  caplen : UInt32
  wirelen : UInt32
  tsNs : UInt64

/-- A frame as `analysis_account` sees it when the cache is `c`. -/
def seen (w : ℕ) (c : FragCache) (f : Frame) : Seen :=
  ⟨(fragCacheApply w c f.pi).2.1, (fragCacheApply w c f.pi).2.2, f.caplen, f.wirelen, f.tsNs⟩

/-- The frames of a run, each after `frag_cache_apply`. -/
def seenAll (w : ℕ) : FragCache → List Frame → List Seen
  | _, [] => []
  | c, f :: fs => seen w c f :: seenAll w (fragCacheApply w c f.pi).1 fs

theorem seenAll_length {w : ℕ} : ∀ (fs : List Frame) (c : FragCache), (seenAll w c fs).length = fs.length
  | [], _ => rfl
  | _ :: fs, _ => congrArg Nat.succ (seenAll_length fs _)

/-- The cache fills in ports, and only those of a later fragment. -/
theorem fragCacheApply_frame (w : ℕ) (c : FragCache) (pi : PacketInfo) :
    (fragCacheApply w c pi).2.1.noPorts = pi.noPorts ∧ ((fragCacheApply w c pi).2.2 = true →
      pi.status = .ok ∧ pi.hasL3 = true ∧ pi.frag = .later) ∧
      ((fragCacheApply w c pi).2.2 = false → (fragCacheApply w c pi).2.1 = pi) := by
  unfold fragCacheApply
  cases c.slots with
  | none => exact ⟨rfl, nofun, fun _ => rfl⟩
  | some slots =>
      dsimp only
      by_cases hbad : (pi.status ≠ .ok || !pi.hasL3) = true
      · rw [if_pos hbad]
        exact ⟨rfl, nofun, fun _ => rfl⟩
      rw [if_neg hbad]
      by_cases hfirst : (pi.frag = .first && pi.hasL4) = true
      · rw [if_pos hfirst]
        exact ⟨rfl, nofun, fun _ => rfl⟩
      rw [if_neg hfirst]
      by_cases hlater : pi.frag = .later
      swap
      · rw [if_neg hlater]
        exact ⟨rfl, nofun, fun _ => rfl⟩
      rw [if_pos hlater]
      split_ifs
      · exact ⟨rfl, nofun, fun _ => rfl⟩
      · refine ⟨rfl, fun _ => ?_, nofun⟩
        simpa [hlater] using hbad

/-- What is known of a frame after `frag_cache_apply`. -/
structure Seen.Decoded (s : Seen) : Prop where
  outer : OuterCase s.pi
  gtpu : GtpuCase s.pi
  matched : s.matched = true → s.pi.status = .ok ∧ s.pi.hasL3 = true ∧ s.pi.frag = .later

theorem seen_decoded (w : ℕ) (c : FragCache) (f : Frame) : (seen w c f).Decoded := by
  obtain ⟨hports, hmatched, -⟩ := fragCacheApply_frame w c f.pi
  have hshape : FrameShape f.pi := decodeFrame_shape _ _ _
  have field : ∀ {β : Type} (g : PacketInfo → β), (∀ r, g r.noPorts = g r) →
      g (fragCacheApply w c f.pi).2.1 = g f.pi :=
    fun g hg => PacketInfo.eq_of_erase PacketInfo.noPorts g hg hports
  refine ⟨?_, ?_, fun hm => ?_⟩
  · rw [← OuterCase.noPorts_iff, seen, hports, OuterCase.noPorts_iff]
    exact hshape.outerCase
  · rw [← GtpuCase.noPorts_iff, seen, hports, GtpuCase.noPorts_iff]
    exact hshape.gtpuCase
  · obtain ⟨hst, hl3, hl⟩ := hmatched hm
    refine ⟨?_, ?_, ?_⟩
    · exact (field PacketInfo.status fun _ => rfl).trans hst
    · exact (field PacketInfo.hasL3 fun _ => rfl).trans hl3
    · exact (field PacketInfo.frag fun _ => rfl).trans hl

theorem seenAll_decoded {w : ℕ} : ∀ {fs : List Frame} {c : FragCache}, ∀ s ∈ seenAll w c fs, s.Decoded
  | [], _, _, hs => nomatch hs
  | f :: fs, c, s, hs => by
      rw [seenAll, List.mem_cons] at hs
      obtain rfl | hs := hs
      · exact seen_decoded w c f
      · exact seenAll_decoded s hs

/-- What a packet adds to the table of flows. -/
def Seen.flowEvent (s : Seen) : Option (FlowKey × Contribution) :=
  if s.pi.status ≠ .ok then none
  else (flowKeyFromPacket s.pi).map fun kr => (kr.1,
    { reversed := kr.2
      tcpFlags := if s.pi.ipProto = ipprotoTcp && s.pi.hasL4 then s.pi.tcpFlags else 0
      wireLen := s.wirelen
      tsNs := s.tsNs })

/-- What a packet adds to the table of tunnels. -/
def Seen.tunnelEvent (s : Seen) : Option (FlowKey × Contribution) :=
  if s.pi.status ≠ .ok then none
  else if !joinsTunnel s.pi then none
  else (tunnelKeyFromPacket s.pi).map fun k => (k,
    { reversed := false, tcpFlags := 0, wireLen := s.wirelen, tsNs := s.tsNs })

/-- The counters after a packet. -/
def Seen.count (s : Seen) (st : Stats) : Stats :=
  statsAdd (if s.matched then { st with fragMatched := st.fragMatched + 1 } else st) s.pi s.caplen
    s.wirelen s.tsNs

section step

variable {w : ℕ}

theorem flowTableAddPacket_spec {t : FlowTable} (h : t.Inv w) (s : Seen) (hst : s.pi.status = .ok)
    (ok : Bool) : ∃ t' b, flowTableAddPacket w t s.pi s.wirelen s.tsNs ok = some (t', b) ∧
      Added w t s.flowEvent t' b := by
  rw [flowTableAddPacket, Seen.flowEvent, if_neg (not_not.mpr hst)]
  cases flowKeyFromPacket s.pi with
  | none => exact ⟨t, true, rfl, .skip h⟩
  | some kr => exact account_spec h kr.1 ⟨kr.2, _, s.wirelen, s.tsNs⟩ ok

theorem flowTableAddTunnel_spec {t : FlowTable} (h : t.Inv w) (s : Seen) (hst : s.pi.status = .ok)
    (hjoins : joinsTunnel s.pi = true) (ok : Bool) :
    ∃ t' b, flowTableAddTunnel w t s.pi s.wirelen s.tsNs ok = some (t', b) ∧
      Added w t s.tunnelEvent t' b := by
  rw [flowTableAddTunnel, Seen.tunnelEvent, if_neg (not_not.mpr hst), hjoins, Bool.not_true,
    if_neg Bool.false_ne_true]
  cases tunnelKeyFromPacket s.pi with
  | none => exact ⟨t, true, rfl, .skip h⟩
  | some k => exact account_spec h k ⟨false, 0, s.wirelen, s.tsNs⟩ ok

/-- The invariant of the pipeline. -/
structure Analysis.Inv (w : ℕ) (a : Analysis) : Prop where
  flows : a.flows.Inv w
  tunnels : a.tunnels.Inv w

/-- What one successful call of `analysis_account` does. -/
structure Accounted (w : ℕ) (a : Analysis) (f : Frame) (a' : Analysis) : Prop where
  frags : a'.frags = (fragCacheApply w a.frags f.pi).1
  stats : a'.stats = (seen w a.frags f).count a.stats
  flows : Added w a.flows (seen w a.frags f).flowEvent a'.flows true
  tunnels : Added w a.tunnels (seen w a.frags f).tunnelEvent a'.tunnels true

theorem Accounted.inv {a a' : Analysis} {f : Frame} (h : Accounted w a f a') : a'.Inv w :=
  ⟨h.flows.inv, h.tunnels.inv⟩

/-- What one call of `analysis_account` does, also if memory runs out on the way. -/
structure Attempted (w : ℕ) (a : Analysis) (f : Frame) (a' : Analysis) (b : Bool) : Prop where
  frags : a'.frags = (fragCacheApply w a.frags f.pi).1
  stats : a'.stats = (seen w a.frags f).count a.stats
  flows : ∃ b₁, Added w a.flows (seen w a.frags f).flowEvent a'.flows b₁ ∧ (b = true → b₁ = true)
  tunnels : ∃ b₂, Added w a.tunnels (seen w a.frags f).tunnelEvent a'.tunnels b₂ ∧ (b = true → b₂ = true)

theorem Attempted.done {a a' : Analysis} {f : Frame} (h : Attempted w a f a' true) : Accounted w a f a' := by
  obtain ⟨b₁, hflows, hb₁⟩ := h.flows
  obtain ⟨b₂, htunnels, hb₂⟩ := h.tunnels
  rw [hb₁ rfl] at hflows
  rw [hb₂ rfl] at htunnels
  exact ⟨h.frags, h.stats, hflows, htunnels⟩

theorem Added.unchanged {t : FlowTable} (h : t.Inv w) (e : Option (FlowKey × Contribution)) :
    ∃ b, Added w t e t b := by
  cases e with
  | none => exact ⟨true, .skip h⟩
  | some e => exact ⟨false, .refused h⟩

theorem analysisAccount_attempted {a : Analysis} (h : a.Inv w) (f : Frame) (ok : Grants) :
    ∃ a' b, analysisAccount w a f.pi f.caplen f.wirelen f.tsNs ok = some (a', b) ∧ Attempted w a f a' b := by
  rcases hq : fragCacheApply w a.frags f.pi with ⟨c, pi, matched⟩
  have hseen : seen w a.frags f = ⟨pi, matched, f.caplen, f.wirelen, f.tsNs⟩ := by rw [seen, hq]
  generalize hs : (⟨pi, matched, f.caplen, f.wirelen, f.tsNs⟩ : Seen) = s at hseen
  have hgoal : ∀ a' b b₁ b₂, a'.frags = c → a'.stats = s.count a.stats →
      Added w a.flows s.flowEvent a'.flows b₁ → Added w a.tunnels s.tunnelEvent a'.tunnels b₂ →
      (b = true → b₁ = true ∧ b₂ = true) → Attempted w a f a' b := by
    intro a' b b₁ b₂ hc hst hfl htu hb
    refine ⟨by rw [hc, hq], by rw [hst, hseen], ⟨b₁, ?_, fun h => (hb h).1⟩,
      ⟨b₂, ?_, fun h => (hb h).2⟩⟩
    · rwa [hseen]
    · rwa [hseen]
  have hcount : statsAdd (if matched then { a.stats with fragMatched := a.stats.fragMatched + 1 }
      else a.stats) pi f.caplen f.wirelen f.tsNs = s.count a.stats := by rw [← hs]; rfl
  have hpi : s.pi = pi := by rw [← hs]
  have hlen : s.wirelen = f.wirelen := by rw [← hs]
  have hts : s.tsNs = f.tsNs := by rw [← hs]
  rw [analysisAccount, hq]
  simp only [hcount]
  by_cases hst : s.pi.status = .ok
  · obtain ⟨t₁, b₁, hcall₁, hadd₁⟩ := flowTableAddPacket_spec h.flows s hst ok.flows
    rw [hpi] at hst
    rw [hpi, hlen, hts] at hcall₁
    rw [if_neg (not_not.mpr hst), hcall₁, Option.bind_eq_bind, Option.bind_some]
    cases b₁ with
    | false =>
        obtain ⟨b₂, hsame⟩ := Added.unchanged h.tunnels s.tunnelEvent
        exact ⟨_, false, rfl, hgoal _ _ _ _ rfl rfl hadd₁ hsame fun hb => absurd hb Bool.false_ne_true⟩
    | true =>
        simp only [Bool.not_true, Bool.false_eq_true, if_false]
        cases hjoins : joinsTunnel s.pi with
        | false =>
            have htun : s.tunnelEvent = none := by
              rw [Seen.tunnelEvent, hpi, if_neg (not_not.mpr hst), ← hpi, hjoins]
              rfl
            have htun' : Added w a.tunnels s.tunnelEvent a.tunnels true := htun ▸ Added.skip h.tunnels
            rw [hpi] at hjoins
            rw [hjoins, if_neg Bool.false_ne_true]
            exact ⟨⟨_, t₁, a.tunnels, c⟩, true, rfl,
              hgoal _ _ _ _ rfl rfl hadd₁ htun' fun _ => ⟨rfl, rfl⟩⟩
        | true =>
            obtain ⟨t₂, b₂, hcall₂, hadd₂⟩ :=
              flowTableAddTunnel_spec h.tunnels s (hpi ▸ hst) hjoins ok.tunnels
            rw [hpi] at hjoins
            rw [hpi, hlen, hts] at hcall₂
            rw [hjoins, if_pos rfl, hcall₂, Option.bind_some]
            exact ⟨⟨_, t₁, t₂, c⟩, b₂, rfl, hgoal _ _ _ _ rfl rfl hadd₁ hadd₂ fun hb => ⟨rfl, hb⟩⟩
  · have hflow : Added w a.flows s.flowEvent a.flows true := by
      rw [Seen.flowEvent, if_pos hst]
      exact .skip h.flows
    have htun : Added w a.tunnels s.tunnelEvent a.tunnels true := by
      rw [Seen.tunnelEvent, if_pos hst]
      exact .skip h.tunnels
    rw [hpi] at hst
    rw [if_pos hst]
    exact ⟨⟨_, a.flows, a.tunnels, c⟩, true, rfl, hgoal _ _ _ _ rfl rfl hflow htun fun _ => ⟨rfl, rfl⟩⟩

/-- **If `analysis_account` returns 0, the packet is accounted for.** -/
theorem analysisAccount_spec {a : Analysis} (h : a.Inv w) (f : Frame) (ok : Grants) :
    ∃ a' b, analysisAccount w a f.pi f.caplen f.wirelen f.tsNs ok = some (a', b) ∧
      (b = true → Accounted w a f a') := by
  obtain ⟨a', b, hcall, hatt⟩ := analysisAccount_attempted h f ok
  refine ⟨a', b, hcall, ?_⟩
  rintro rfl
  exact hatt.done

theorem analysisAccount_of_room {a : Analysis} (h : a.Inv w) (hflows : ¬ needsRoom w a.flows = true)
    (htunnels : ¬ needsRoom w a.tunnels = true) (f : Frame) (ok : Grants) :
    ∃ a', analysisAccount w a f.pi f.caplen f.wirelen f.tsNs ok = some (a', true) := by
  rw [analysisAccount]
  rcases fragCacheApply w a.frags f.pi with ⟨c, pi, matched⟩
  dsimp only
  by_cases hst : pi.status = .ok
  swap
  · rw [if_pos hst]
    exact ⟨_, rfl⟩
  rw [if_neg (not_not.mpr hst)]
  obtain ⟨t₁, hadd⟩ : ∃ t₁,
      flowTableAddPacket w a.flows pi f.wirelen f.tsNs ok.flows = some (t₁, true) := by
    unfold flowTableAddPacket
    cases flowKeyFromPacket pi with
    | none => exact ⟨_, rfl⟩
    | some kr => exact account_of_room h.flows hflows _ _ _ _ _ _
  rw [hadd, Option.bind_eq_bind, Option.bind_some]
  by_cases hjoins : joinsTunnel pi = true
  swap
  · simp only [Bool.not_true, Bool.false_eq_true, if_false, if_neg hjoins]
    exact ⟨_, rfl⟩
  obtain ⟨t₂, hadd'⟩ : ∃ t₂, flowTableAddTunnel w a.tunnels pi f.wirelen f.tsNs ok.tunnels =
      some (t₂, true) := by
    unfold flowTableAddTunnel
    cases tunnelKeyFromPacket pi with
    | none => exact ⟨_, rfl⟩
    | some k => exact account_of_room h.tunnels htunnels _ _ _ _ _ _
  simp only [Bool.not_true, Bool.false_eq_true, if_false, if_pos hjoins, hadd', Option.bind_some]
  exact ⟨_, rfl⟩

end step

/-! ### Runs of `analysis_account` -/

/-- `analysis_account` on one frame after the other, until it returns -1. -/
def accountAll (w : ℕ) (ok : ℕ → Grants) : ℕ → Analysis → List Frame → Option (Analysis × Bool)
  | _, a, [] => some (a, true)
  | i, a, f :: fs => do
      let (a, added) ← analysisAccount w a f.pi f.caplen f.wirelen f.tsNs (ok i)
      if !added then some (a, false) else accountAll w ok (i + 1) a fs

/-- A run in which every call returned 0. -/
inductive AccountedAll (w : ℕ) : Analysis → List Frame → Analysis → Prop where
  | nil {a : Analysis} : AccountedAll w a [] a
  | cons {a a₁ a₂ : Analysis} {f : Frame} {fs : List Frame} : Accounted w a f a₁ →
      AccountedAll w a₁ fs a₂ → AccountedAll w a (f :: fs) a₂

/-- `t'` is `t` after the contributions `es`. -/
inductive AddedAll (w : ℕ) : FlowTable → List (Option (FlowKey × Contribution)) → FlowTable → Prop where
  | nil {t : FlowTable} : AddedAll w t [] t
  | cons {t t₁ t₂ : FlowTable} {e : Option (FlowKey × Contribution)}
      {es : List (Option (FlowKey × Contribution))} : Added w t e t₁ true → AddedAll w t₁ es t₂ →
      AddedAll w t (e :: es) t₂

section run

variable {w : ℕ} {ok : ℕ → Grants}

/-- A run returns; if every call returned 0, every frame is accounted for. -/
theorem accountAll_spec : ∀ (fs : List Frame) {a : Analysis} (i : ℕ), a.Inv w →
    ∃ a' b, accountAll w ok i a fs = some (a', b) ∧ (b = true → AccountedAll w a fs a')
  | [], a, _, _ => ⟨a, true, rfl, fun _ => .nil⟩
  | f :: fs, a, i, h => by
      obtain ⟨a₁, b₁, hcall, hacc⟩ := analysisAccount_spec h f (ok i)
      rw [accountAll, hcall, Option.bind_eq_bind, Option.bind_some]
      cases b₁ with
      | false => exact ⟨a₁, false, rfl, fun hb => absurd hb Bool.false_ne_true⟩
      | true =>
          obtain ⟨a₂, b₂, hrun, hall⟩ := accountAll_spec fs (i + 1) (hacc rfl).inv
          exact ⟨a₂, b₂, hrun, fun hb => .cons (hacc rfl) (hall hb)⟩

theorem AccountedAll.of_run {a a' : Analysis} (h : a.Inv w) {fs : List Frame} {i : ℕ}
    (hrun : accountAll w ok i a fs = some (a', true)) : AccountedAll w a fs a' := by
  obtain ⟨a₁, b, hrun', hall⟩ := @accountAll_spec w ok fs a i h
  rw [hrun, Option.some.injEq, Prod.mk.injEq] at hrun'
  obtain ⟨rfl, rfl⟩ := hrun'
  exact hall rfl

theorem AccountedAll.inv {a a' : Analysis} {fs : List Frame} (h : AccountedAll w a fs a')
    (ha : a.Inv w) : a'.Inv w := by
  induction h with
  | nil => exact ha
  | cons hacc _ ih => exact ih hacc.inv

theorem AccountedAll.stats {a a' : Analysis} {fs : List Frame} (h : AccountedAll w a fs a') :
    a'.stats = (seenAll w a.frags fs).foldl (fun st s => s.count st) a.stats := by
  induction h with
  | nil => rfl
  | cons hacc _ ih => rw [ih, seenAll, List.foldl_cons, ← hacc.stats, ← hacc.frags]

theorem AccountedAll.flows {a a' : Analysis} {fs : List Frame} (h : AccountedAll w a fs a') :
    AddedAll w a.flows ((seenAll w a.frags fs).map Seen.flowEvent) a'.flows := by
  induction h with
  | nil => exact .nil
  | cons hacc _ ih =>
      rw [seenAll, List.map_cons, ← hacc.frags]
      exact .cons hacc.flows ih

theorem AccountedAll.tunnels {a a' : Analysis} {fs : List Frame} (h : AccountedAll w a fs a') :
    AddedAll w a.tunnels ((seenAll w a.frags fs).map Seen.tunnelEvent) a'.tunnels := by
  induction h with
  | nil => exact .nil
  | cons hacc _ ih =>
      rw [seenAll, List.map_cons, ← hacc.frags]
      exact .cons hacc.tunnels ih

/-- A fresh pipeline. -/
structure Fresh (w : ℕ) (a : Analysis) : Prop where
  inv : a.Inv w
  stats : a.stats = statsInit
  flows : a.flows.entries = []
  tunnels : a.tunnels.entries = []
  frags : a.frags = ⟨some fun _ => {}⟩

theorem analysisInit_spec (w : ℕ) (okFlows okTunnels okFrags : Bool) :
    ∃ r, analysisInit w okFlows okTunnels okFrags = some r ∧ ∀ a ∈ r, Fresh w a := by
  obtain ⟨t₁, b₁, hinit₁, -, hgood₁⟩ := FlowTable.init_spec w initialFlowSlots okFlows
  obtain ⟨t₂, b₂, hinit₂, -, hgood₂⟩ := FlowTable.init_spec w initialTunnelSlots okTunnels
  rw [analysisInit, hinit₁, Option.bind_eq_bind, Option.bind_some]
  cases b₁ with
  | false => exact ⟨none, rfl, fun a ha => absurd ha (Option.not_mem_none a)⟩
  | true =>
      simp only [Bool.not_true, Bool.false_eq_true, if_false, hinit₂, Option.bind_some]
      cases b₂ with
      | false => exact ⟨none, rfl, fun a ha => absurd ha (Option.not_mem_none a)⟩
      | true =>
          cases okFrags with
          | false => exact ⟨none, rfl, fun a ha => absurd ha (Option.not_mem_none a)⟩
          | true =>
              refine ⟨_, rfl, fun a ha => ?_⟩
              obtain rfl := Option.some.inj ha
              exact ⟨⟨(hgood₁ rfl).1, (hgood₂ rfl).1⟩, rfl, (hgood₁ rfl).2, (hgood₂ rfl).2, rfl⟩

theorem Fresh.of_init {okFlows okTunnels okFrags : Bool} {a : Analysis}
    (h : analysisInit w okFlows okTunnels okFrags = some (some a)) : Fresh w a := by
  obtain ⟨r, hr, hfresh⟩ := analysisInit_spec w okFlows okTunnels okFrags
  rw [h, Option.some.injEq] at hr
  exact hfresh a (hr ▸ rfl)

/-- A run over packets of a few flows and a few tunnels needs no memory. -/
theorem accountAll_of_keys {ks ls : List FlowKey} (hks : ks.length ≤ 10) (hls : ls.length ≤ 10) :
    ∀ {fs : List Frame} {a : Analysis} {i : ℕ}, a.Inv w → a.flows.Within ks → a.tunnels.Within ls →
    (∀ s ∈ seenAll w a.frags fs, (∀ x ∈ s.flowEvent, x.1 ∈ ks) ∧ ∀ x ∈ s.tunnelEvent, x.1 ∈ ls) →
    ∃ a', accountAll w ok i a fs = some (a', true)
  | [], a, _, _, _, _, _ => ⟨a, rfl⟩
  | f :: fs, a, i, h, hflows, htunnels, hevents => by
      obtain ⟨a₁, hcall⟩ :=
        analysisAccount_of_room h (hflows.room h.flows hks) (htunnels.room h.tunnels hls) f (ok i)
      obtain ⟨a₂, b, hcall', hacc⟩ := analysisAccount_spec h f (ok i)
      rw [hcall, Option.some.injEq, Prod.mk.injEq] at hcall'
      obtain ⟨rfl, rfl⟩ := hcall'
      have hacc := hacc rfl
      obtain ⟨hkey, hkey'⟩ := hevents _ List.mem_cons_self
      obtain ⟨a', hrun⟩ := @accountAll_of_keys ks ls hks hls fs a₁ (i + 1) hacc.inv
        (hacc.flows.within hflows hkey) (hacc.tunnels.within htunnels hkey') fun s hs => hevents s (by
          rw [seenAll, ← hacc.frags]
          exact List.mem_cons_of_mem _ hs)
      refine ⟨a', ?_⟩
      rw [accountAll, hcall]
      exact hrun

theorem Fresh.run_of_seen {a : Analysis} (ha : Fresh w a) {fs : List Frame} {ss : List Seen}
    (hfew : ss.length ≤ 10) (hseen : seenAll w a.frags fs ⊆ ss) :
    ∃ a', accountAll w ok 0 a fs = some (a', true) := by
  have hkeys : ∀ g : Seen → Option (FlowKey × Contribution),
      (ss.filterMap fun s => (g s).map Prod.fst).length ≤ 10 := fun g =>
    (List.length_filterMap_le _ _).trans hfew
  refine accountAll_of_keys (hkeys Seen.flowEvent) (hkeys Seen.tunnelEvent) ha.inv
    (FlowTable.within_of_empty ha.flows _) (FlowTable.within_of_empty ha.tunnels _) fun s hs => ⟨?_, ?_⟩
  · intro x hx
    exact List.mem_filterMap.mpr ⟨s, hseen hs, Option.map_eq_some_iff.mpr ⟨x, hx, rfl⟩⟩
  · intro x hx
    exact List.mem_filterMap.mpr ⟨s, hseen hs, Option.map_eq_some_iff.mpr ⟨x, hx, rfl⟩⟩

theorem Fresh.run_of_few {a : Analysis} (ha : Fresh w a) {fs : List Frame} (hfew : fs.length ≤ 10) :
    ∃ a', accountAll w ok 0 a fs = some (a', true) :=
  ha.run_of_seen ((seenAll_length fs a.frags).trans_le hfew) (List.Subset.refl _)

end run

/-! ### Sample frames -/

/-- A UDP datagram in a frame of its own. -/
def udpFrame : Frame := ⟨SpanWalk.Mem.ofList paddedFrame, 42, 60, 5⟩

/-- A fragment of a UDP datagram with identification 1. -/
def fragmentBytes (flagsOff payload : List UInt8) : List UInt8 :=
  [2, 0, 0, 0, 0, 2, 2, 0, 0, 0, 0, 1, 8, 0, 0x45, 0, 0, 28, 0, 1] ++ flagsOff ++
    [64, 17, 0, 0, 10, 0, 0, 1, 10, 0, 0, 2] ++ payload

def ipv4Fragment (flagsOff payload : List UInt8) : Frame :=
  ⟨SpanWalk.Mem.ofList (fragmentBytes flagsOff payload), 42, 42, 0⟩

/-- The first fragment of a datagram from port 1000 to port 2000. -/
def cleanFirst : Frame := ipv4Fragment [0x20, 0] [0x03, 0xE8, 0x07, 0xD0, 0, 16, 0, 0]

/-- The first fragment of another datagram, from port 3000; its UDP length is 4. -/
def brokenFirst : Frame := ipv4Fragment [0x20, 0] [0x0B, 0xB8, 0x07, 0xD0, 0, 4, 0, 0]

/-- The second fragment of a datagram, of which it does not tell the ports. -/
def secondFragment : Frame := ipv4Fragment [0, 1] [0, 0, 0, 0, 0, 0, 0, 0]

/-- The headers of a UDP datagram between ports 2152, from host `src` to host `dst`. -/
def datagramBetween (src dst : UInt8) : List UInt8 :=
  [0x02, 0, 0, 0, 0, 0x02, 0x02, 0, 0, 0, 0, 0x01, 0x08, 0x00,
    0x45, 0, 0, 56, 0, 7, 0, 0, 64, 17, 0, 0, 10, 0, 0, src, 10, 0, 0, dst,
    0x08, 0x68, 0x08, 0x68, 0, 36, 0, 0]

def gtpuDatagram : List UInt8 := datagramBetween 1 2

/-- A G-PDU with TEID 9 that carries an IPv4 header. -/
def gpduMessage : List UInt8 :=
  [0x30, 0xFF, 0, 20, 0, 0, 0, 9, 0x45, 0, 0, 20, 0, 0, 0, 0, 64, 59, 0, 0, 10, 9, 0, 1, 10, 9, 0, 2]

/-- A frame that was captured whole. -/
def wholeFrame (bytes : List UInt8) (tsNs : UInt64) : Frame :=
  ⟨SpanWalk.Mem.ofList bytes, .ofNat bytes.length, .ofNat bytes.length, tsNs⟩

theorem exists_init : ∃ a, analysisInit 64 true true true = some (some a) := by
  have hsome : (analysisInit 64 true true true).join.isSome = true := by decide +kernel
  obtain ⟨a, hjoin⟩ := Option.isSome_iff_exists.mp hsome
  exact ⟨a, Option.join_eq_some_iff.mp hjoin⟩

theorem exists_fewRun (ok : ℕ → Grants) {fs : List Frame} (hfew : fs.length ≤ 10) :
    ∃ a a', analysisInit 64 true true true = some (some a) ∧ accountAll 64 ok 0 a fs = some (a', true) := by
  obtain ⟨a, hinit⟩ := exists_init
  obtain ⟨a', hrun⟩ : ∃ a', accountAll 64 ok 0 a fs = some (a', true) := (Fresh.of_init hinit).run_of_few hfew
  exact ⟨a, a', hinit, hrun⟩

/-- A run over sample frames, and what can be seen of its end. -/
theorem exists_runOn {β : Type} (fs : List Frame) (view : Analysis → β) (b : β)
    (hdone : ((analysisInit 64 true true true).join.bind fun a =>
      accountAll 64 (fun _ => ⟨true, true⟩) 0 a fs).map (fun p => (p.2, view p.1)) = some (true, b)) :
    ∃ a a', analysisInit 64 true true true = some (some a) ∧
      accountAll 64 (fun _ => ⟨true, true⟩) 0 a fs = some (a', true) ∧ view a' = b := by
  obtain ⟨⟨a', ok⟩, hrun, hend⟩ := Option.map_eq_some_iff.mp hdone
  obtain ⟨a, hjoin, hrun⟩ := Option.bind_eq_some_iff.mp hrun
  rw [Prod.mk.injEq] at hend
  obtain ⟨rfl, hb⟩ := hend
  exact ⟨a, a', Option.join_eq_some_iff.mp hjoin, hrun, hb⟩

/-! ### Runs of `analysis_run` -/

/-- Calls of `pcap_next` on `r` deliver `recs`, and then the status `st`. -/
inductive Delivers : PcapReader → List PcapRecord → PcapStatus → PcapReader → Prop where
  | stop {r r' : PcapReader} {st : PcapStatus} {rec : PcapRecord} : pcapNext r = (r', st, rec) →
      st ≠ .ok → Delivers r [] st r'
  | next {r r₁ r' : PcapReader} {st : PcapStatus} {rec : PcapRecord} {recs : List PcapRecord} :
      pcapNext r = (r₁, .ok, rec) → Delivers r₁ recs st r' → Delivers r (rec :: recs) st r'

/-- A reader delivers one row of records. -/
theorem Delivers.unique {r r' s' : PcapReader} {recs recs' : List PcapRecord} {st st' : PcapStatus}
    (h : Delivers r recs st r') (h' : Delivers r recs' st' s') :
    recs = recs' ∧ st = st' ∧ r' = s' := by
  induction h generalizing recs' with
  | stop hnext hst =>
      cases h' with
      | stop hnext' _ =>
          rw [hnext, Prod.mk.injEq, Prod.mk.injEq] at hnext'
          exact ⟨rfl, hnext'.2.1, hnext'.1⟩
      | next hnext' _ =>
          rw [hnext, Prod.mk.injEq, Prod.mk.injEq] at hnext'
          exact absurd hnext'.2.1 hst
  | next hnext _ ih =>
      cases h' with
      | stop hnext' hst =>
          rw [hnext, Prod.mk.injEq, Prod.mk.injEq] at hnext'
          exact absurd hnext'.2.1.symm hst
      | next hnext' hrest =>
          rw [hnext, Prod.mk.injEq, Prod.mk.injEq] at hnext'
          obtain ⟨rfl, -, rfl⟩ := hnext'
          obtain ⟨rfl, hst, hr⟩ := ih hrest
          exact ⟨rfl, hst, hr⟩

/-- The records that `fuel` calls of `pcap_next` deliver, up to the first status that is not `PCAP_OK`. -/
def deliverAll : ℕ → PcapReader → List PcapRecord × PcapStatus × PcapReader
  | 0, r => ([], .ok, r)
  | fuel + 1, r =>
      let (r₁, st, rec) := pcapNext r
      if st = .ok then
        let (recs, st', r') := deliverAll fuel r₁
        (rec :: recs, st', r')
      else ([], st, r₁)

theorem delivers_deliverAll : ∀ (fuel : ℕ) (r : PcapReader) {st : PcapStatus}, (deliverAll fuel r).2.1 = st →
    st ≠ .ok → Delivers r (deliverAll fuel r).1 st (deliverAll fuel r).2.2
  | 0, _, _, h, hst => absurd h.symm hst
  | fuel + 1, r, st, h, hst => by
      rw [deliverAll] at h ⊢
      rcases hnext : pcapNext r with ⟨r₁, st₁, rec⟩
      rw [hnext] at h
      dsimp only at h ⊢
      by_cases hok : st₁ = .ok
      · rw [if_pos hok] at h ⊢
        exact .next (hok ▸ hnext) (delivers_deliverAll fuel r₁ h hst)
      · rw [if_neg hok] at h ⊢
        obtain rfl : st₁ = st := h
        exact .stop hnext hst

theorem take_left {r r' : PcapReader} {n got : ℕ} {p : Ptr} (h : take r n = (r', some p, got)) :
    r'.left + n = r.left := by
  rw [take] at h
  cases hfp : r.fp with
  | some fp =>
      simp only [hfp, fread, Prod.mk.injEq, Option.ite_none_right_eq_some, List.length_take] at h
      obtain ⟨rfl, ⟨hn, -⟩, -⟩ := h
      simp only [PcapReader.left, hfp, List.length_drop]
      omega
  | none =>
      simp only [hfp] at h
      by_cases hn : n > r.memLen - r.memPos
      · rw [if_pos hn, Prod.mk.injEq, Prod.mk.injEq] at h
        exact absurd h.2.1 (Option.some_ne_none p).symm
      · rw [if_neg hn, Prod.mk.injEq] at h
        obtain ⟨rfl, -⟩ := h
        simp only [PcapReader.left, hfp]
        omega

theorem shortReadStatus_ne_ok {r : PcapReader} {atEof : PcapStatus} (h : atEof ≠ .ok) :
    shortReadStatus r atEof ≠ .ok := by
  rw [shortReadStatus]
  cases r.fp with
  | none => exact h
  | some fp =>
      dsimp only
      split_ifs
      · exact nofun
      · exact h

/-- A delivered record has taken its header and its data from the input. -/
theorem pcapNext_ok {r r' : PcapReader} {rec : PcapRecord} (h : pcapNext r = (r', .ok, rec)) :
    r.error = .ok ∧ ∃ r₁ hdr got₁ hd r₂ p got₂, take r pcapRecordHdrLen = (r₁, some hdr, got₁) ∧
      pcapParseRecordHeader r₁.info hdr = (hd, .ok) ∧ take r₁ hd.caplen.toNat = (r₂, some p, got₂) ∧
      rec = { hd with data := some p } ∧ r' = { r₂ with records := r₂.records + 1 } := by
  rw [pcapNext] at h
  by_cases herr : r.error = .ok
  swap
  · rw [if_pos herr, Prod.mk.injEq, Prod.mk.injEq] at h
    exact absurd h.2.1 herr
  refine ⟨herr, ?_⟩
  rw [if_neg (not_not.mpr herr)] at h
  rcases htake : take r pcapRecordHdrLen with ⟨r₁, hdr, got₁⟩
  rw [htake] at h
  cases hdr with
  | none =>
      simp only [Prod.mk.injEq] at h
      refine absurd h.2.1 (shortReadStatus_ne_ok ?_)
      split_ifs <;> exact nofun
  | some hdr =>
      rcases hparse : pcapParseRecordHeader r₁.info hdr with ⟨hd, st⟩
      simp only [hparse] at h
      by_cases hst : st = .ok
      swap
      · rw [if_pos hst, Prod.mk.injEq, Prod.mk.injEq] at h
        exact absurd h.2.1 hst
      subst hst
      rw [if_neg (not_not.mpr rfl)] at h
      rcases htake' : take r₁ hd.caplen.toNat with ⟨r₂, p, got₂⟩
      rw [htake'] at h
      cases p with
      | none =>
          simp only [Prod.mk.injEq] at h
          exact absurd h.2.1 (shortReadStatus_ne_ok nofun)
      | some p =>
          simp only [Prod.mk.injEq, true_and] at h
          exact ⟨r₁, hdr, got₁, hd, r₂, p, got₂, rfl, hparse, htake', h.2.symm, h.1.symm⟩

theorem pcapNext_left {r r' : PcapReader} {rec : PcapRecord} (h : pcapNext r = (r', .ok, rec)) :
    r'.left + pcapRecordHdrLen ≤ r.left := by
  obtain ⟨-, r₁, hdr, got₁, hd, r₂, p, got₂, htake, -, htake', -, rfl⟩ := pcapNext_ok h
  have h₁ := take_left htake
  have h₂ := take_left htake'
  have hrec : PcapReader.left { r₂ with records := r₂.records + 1 } = r₂.left := rfl
  omega

theorem Delivers.length_le {r r' : PcapReader} {recs : List PcapRecord} {st : PcapStatus}
    (h : Delivers r recs st r') : recs.length ≤ r.left := by
  induction h with
  | stop _ _ => exact Nat.zero_le _
  | next hnext _ ih =>
      have hleft := pcapNext_left hnext
      rw [pcapRecordHdrLen] at hleft
      rw [List.length_cons]
      omega

/-- A record was no shorter on the wire than what was captured of it. -/
theorem pcapParseRecordHeader_le {info : PcapFileInfo} {hdr : Ptr} {hd : PcapRecord}
    (h : pcapParseRecordHeader info hdr = (hd, .ok)) : hd.caplen.toNat ≤ hd.wirelen.toNat := by
  rw [pcapParseRecordHeader] at h
  dsimp only at h
  by_cases hcap : (rd32 hdr 8 info.bigEndian).toNat > pcapMaxCaplen
  · rw [if_pos hcap, Prod.mk.injEq] at h
    exact absurd h.2 (by decide)
  rw [if_neg hcap, Prod.mk.injEq] at h
  obtain ⟨rfl, -⟩ := h
  dsimp only
  by_cases hlt : rd32 hdr 12 info.bigEndian < rd32 hdr 8 info.bigEndian
  · rw [if_pos hlt]
  · rw [if_neg hlt]
    exact UInt32.le_iff_toNat_le.mp (UInt32.not_lt.mp hlt)

theorem Delivers.caplen_le {r r' : PcapReader} {recs : List PcapRecord} {st : PcapStatus}
    (h : Delivers r recs st r') : ∀ rec ∈ recs, rec.caplen.toNat ≤ rec.wirelen.toNat := by
  induction h with
  | stop _ _ => exact fun rec hrec => absurd hrec List.not_mem_nil
  | @next r r₁ r' st rec recs hnext _ ih =>
      intro rec' hrec'
      obtain rfl | hrec' := List.mem_cons.mp hrec'
      · obtain ⟨-, _, _, _, hd, _, p, _, -, hparse, -, rfl, -⟩ := pcapNext_ok hnext
        have hle := pcapParseRecordHeader_le hparse
        exact hle
      · exact ih rec' hrec'

/-- Every reader comes to an end. -/
theorem exists_delivers (r : PcapReader) : ∃ recs st r', Delivers r recs st r' := by
  induction hn : r.left using Nat.strong_induction_on generalizing r with
  | _ n ih =>
      rcases hnext : pcapNext r with ⟨r₁, st, rec⟩
      by_cases hst : st = .ok
      · subst hst
        have hleft := pcapNext_left hnext
        rw [pcapRecordHdrLen] at hleft
        obtain ⟨recs, st, r', hrest⟩ := ih r₁.left (by omega) r₁ rfl
        exact ⟨rec :: recs, st, r', .next hnext hrest⟩
      · exact ⟨[], st, r₁, .stop hnext hst⟩

/-- The loop over a reader that delivers `recs` is the run over their frames, cut short when
memory runs out. -/
theorem analysisLoop_of_delivers {w : ℕ} {ok : ℕ → Grants} {r r' : PcapReader}
    {recs : List PcapRecord} {st : PcapStatus} (h : Delivers r recs st r') {a a' : Analysis} {b : Bool}
    {fuel i : ℕ} (hfuel : recs.length < fuel)
    (hrun : accountAll w ok i a (recs.map PcapRecord.frame) = some (a', b)) :
    ∃ r₁ st₁, analysisLoop w ok fuel i a r = some (a', r₁, st₁) ∧
      if b then r₁ = r' ∧ st₁ = st else st₁ = .errNomem := by
  induction h generalizing a fuel i with
  | @stop r r' st rec hnext hst =>
      obtain ⟨fuel, rfl⟩ := Nat.exists_eq_add_one_of_ne_zero (Nat.ne_zero_of_lt hfuel)
      rw [List.map_nil, accountAll, Option.some.injEq, Prod.mk.injEq] at hrun
      obtain ⟨rfl, rfl⟩ := hrun
      refine ⟨r', st, ?_, rfl, rfl⟩
      rw [analysisLoop, hnext]
      exact if_pos hst
  | @next r r₁ r' st rec recs hnext _ ih =>
      obtain ⟨fuel, rfl⟩ := Nat.exists_eq_add_one_of_ne_zero (Nat.ne_zero_of_lt hfuel)
      rw [List.length_cons] at hfuel
      rw [List.map_cons, accountAll, Option.bind_eq_bind] at hrun
      obtain ⟨⟨a₁, added⟩, hcall, hrest⟩ := Option.bind_eq_some_iff.mp hrun
      have hcall' : analysisAccount w a rec.decode rec.caplen rec.wirelen rec.tsNs (ok i) =
        some (a₁, added) := hcall
      rw [analysisLoop, hnext]
      simp only [ne_eq, not_true, if_false, hcall', Option.bind_eq_bind, Option.bind_some]
      cases added with
      | false =>
          simp only [Bool.not_false, if_true, Option.some.injEq, Prod.mk.injEq] at hrest ⊢
          obtain ⟨rfl, rfl⟩ := hrest
          exact ⟨r₁, .errNomem, ⟨rfl, rfl, rfl⟩, rfl⟩
      | true => exact ih (Nat.lt_of_add_lt_add_right hfuel) hrest

theorem analysisRun_of_delivers {w : ℕ} {ok : ℕ → Grants} {r r' : PcapReader} {recs : List PcapRecord}
    {st : PcapStatus} (h : Delivers r recs st r') {a a' : Analysis} {b : Bool}
    (hrun : accountAll w ok 0 a (recs.map PcapRecord.frame) = some (a', b)) :
    ∃ r₁ st₁, analysisRun w ok a r = some (a', r₁, st₁) ∧
      if b then r₁ = r' ∧ st₁ = st else st₁ = .errNomem :=
  analysisLoop_of_delivers h (Nat.lt_succ_of_le h.length_le) hrun

theorem Attempted.inv {w : ℕ} {a a' : Analysis} {f : Frame} {b : Bool} (h : Attempted w a f a' b) : a'.Inv w := by
  obtain ⟨_, hflows, -⟩ := h.flows
  obtain ⟨_, htunnels, -⟩ := h.tunnels
  exact ⟨hflows.inv, htunnels.inv⟩

/-- What every call of `analysis_account` keeps, a run keeps, for whatever reason it ends. -/
theorem analysisRun_keeps {w : ℕ} {P : Analysis → Prop}
    (hstep : ∀ {a a' : Analysis} {f : Frame} {b : Bool}, P a → a.Inv w → Attempted w a f a' b → P a')
    {ok : ℕ → Grants} {a a' : Analysis} {r r' : PcapReader} {st : PcapStatus} (hinv : a.Inv w) (ha : P a)
    (hrun : analysisRun w ok a r = some (a', r', st)) : P a' := by
  unfold analysisRun at hrun
  generalize r.left + 1 = fuel at hrun
  generalize 0 = i at hrun
  induction fuel generalizing a r i with
  | zero => cases hrun
  | succ fuel ih =>
      rw [analysisLoop] at hrun
      rcases hnext : pcapNext r with ⟨r₁, st₁, rec⟩
      rw [hnext] at hrun
      by_cases hst : st₁ = .ok
      swap
      · simp only [ne_eq, hst, not_false_eq_true, if_true, Option.some.injEq, Prod.mk.injEq] at hrun
        exact hrun.1 ▸ ha
      obtain ⟨a₁, b, hcall, hatt⟩ := analysisAccount_attempted hinv rec.frame (ok i)
      have hcall' : analysisAccount w a rec.decode rec.caplen rec.wirelen rec.tsNs (ok i) = some (a₁, b) := hcall
      simp only [ne_eq, hst, not_true, if_false, hcall', Option.bind_eq_bind, Option.bind_some] at hrun
      have ha₁ := hstep ha hinv hatt
      cases b with
      | false =>
          simp only [Bool.not_false, if_true, Option.some.injEq, Prod.mk.injEq] at hrun
          exact hrun.1 ▸ ha₁
      | true => exact ih hatt.inv ha₁ (i + 1) hrun

/-- **`analysis_run` returns**; unless it ran out of memory, it has accounted for every record
the reader delivers. -/
theorem analysisRun_spec {w : ℕ} {a : Analysis} (h : a.Inv w) (ok : ℕ → Grants) (r : PcapReader) :
    ∃ a' r' st, analysisRun w ok a r = some (a', r', st) ∧ (st ≠ .errNomem →
      ∃ recs, Delivers r recs st r' ∧ AccountedAll w a (recs.map PcapRecord.frame) a') := by
  obtain ⟨recs, st, r', hdel⟩ := exists_delivers r
  obtain ⟨a', b, hrun, hall⟩ := @accountAll_spec w ok (recs.map PcapRecord.frame) a 0 h
  obtain ⟨r₁, st₁, hloop, hend⟩ := analysisRun_of_delivers hdel hrun
  refine ⟨a', r₁, st₁, hloop, fun hst => ?_⟩
  cases b with
  | false => exact absurd hend hst
  | true =>
      obtain ⟨rfl, rfl⟩ := hend
      exact ⟨recs, hdel, hall rfl⟩

/-- A run over a sample capture of a few records. -/
theorem exists_fewRecords (ok : ℕ → Grants) {r r' : PcapReader} {recs : List PcapRecord} {st : PcapStatus}
    (h : Delivers r recs st r') (hfew : recs.length ≤ 10) :
    ∃ a a', analysisInit 64 true true true = some (some a) ∧ analysisRun 64 ok a r = some (a', r', st) := by
  obtain ⟨a, a', hinit, hrun⟩ := exists_fewRun ok ((List.length_map PcapRecord.frame).trans_le hfew)
  obtain ⟨r₁, st₁, hrun', rfl, rfl⟩ := analysisRun_of_delivers h hrun
  exact ⟨a, a', hinit, hrun'⟩

section samples

variable {β : Type} (ok : ℕ → Grants) (r : PcapReader) (view : Analysis → β) (st : PcapStatus) (b : β)

/-- A run over a sample capture, and what can be seen of its end. -/
theorem analysisRun_ends {a : Analysis} (hinit : analysisInit 64 true true true = some (some a))
    (hdone : ((analysisInit 64 true true true).join.bind fun a => analysisRun 64 ok a r).map
      (fun x => (x.2.2, view x.1)) = some (st, b)) :
    ∃ a' r', analysisRun 64 ok a r = some (a', r', st) ∧ view a' = b := by
  rw [hinit, Option.join_some, Option.bind_some] at hdone
  obtain ⟨⟨a', r', st'⟩, hrun, hend⟩ := Option.map_eq_some_iff.mp hdone
  rw [Prod.mk.injEq] at hend
  obtain ⟨rfl, hb⟩ := hend
  exact ⟨a', r', hrun, hb⟩

theorem exists_analysisRun (hdone : ((analysisInit 64 true true true).join.bind fun a =>
      analysisRun 64 ok a r).map (fun x => (x.2.2, view x.1)) = some (st, b)) :
    ∃ a a' r', analysisInit 64 true true true = some (some a) ∧
      analysisRun 64 ok a r = some (a', r', st) ∧ view a' = b := by
  obtain ⟨a, hinit⟩ := exists_init
  exact ⟨a, (analysisRun_ends ok r view st b hinit hdone).imp fun _ h => h.imp fun _ h => ⟨hinit, h⟩⟩

end samples

end Pcapstat
