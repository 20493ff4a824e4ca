import Pcapstat.Accounting
import Pcapstat.GtpuBalance
import Pcapstat.ReaderPair
import Pcapstat.Report
import Pcapstat.TwoRuns

/-! # The order of the records

A capture without fragments is analysed record by record, and every record is counted by itself.
So the counters are tallies of the records (`Counters.lean`) and the entries of the tables totals
of them (`Accounting.lean`), in whichever order they come; only two things depend on it.

* An entry remembers the direction of its first record.  The first of several records with the
  earliest timestamp decides, unless they all go one way (`OneWay`).
* `stats_add` takes the timestamps of a record for the first and the last if the number of packets
  is zero, also when it has wrapped to zero. -/

namespace Pcapstat

open LinearProbe

/-! ### Entries -/

/-- An entry but for its direction. -/
def Flow.undirected (f : Flow) : Flow := { f with firstFromB := false }

/-- The earliest records all travel in one direction. -/
def OneWay (dir : Seen → Bool) (ps : List Seen) : Prop :=
  ∀ s ∈ ps, ∀ q ∈ ps, (∀ r ∈ ps, s.tsNs ≤ r.tsNs) → (∀ r ∈ ps, q.tsNs ≤ r.tsNs) → dir s = dir q

section totals

variable {dir : Seen → Bool} {flags : Seen → UInt8} {ps qs : List Seen} {f g : Flow}

theorem OneWay.of_const (b : Bool) (ps : List Seen) : OneWay (fun _ => b) ps := by
  intro s _ q _ _ _
  rfl

theorem least_unique {ts : Seen → UInt64} {a b : UInt64} (hperm : qs.Perm ps)
    (ha : (∀ s ∈ ps, a ≤ ts s) ∧ ∃ s ∈ ps, ts s = a)
    (hb : (∀ s ∈ qs, b ≤ ts s) ∧ ∃ s ∈ qs, ts s = b) :
    b = a := by
  obtain ⟨hle, s, hs, rfl⟩ := ha
  obtain ⟨hle', q, hq, rfl⟩ := hb
  exact UInt64.le_antisymm (hle' s (hperm.mem_iff.mpr hs)) (hle q (hperm.mem_iff.mp hq))

theorem greatest_unique {ts : Seen → UInt64} {a b : UInt64} (hperm : qs.Perm ps)
    (ha : (∀ s ∈ ps, ts s ≤ a) ∧ ∃ s ∈ ps, ts s = a)
    (hb : (∀ s ∈ qs, ts s ≤ b) ∧ ∃ s ∈ qs, ts s = b) :
    b = a := by
  obtain ⟨hle, s, hs, rfl⟩ := ha
  obtain ⟨hle', q, hq, rfl⟩ := hb
  exact UInt64.le_antisymm (hle q (hperm.mem_iff.mp hq)) (hle' s (hperm.mem_iff.mpr hs))

theorem Totals.earliest (h : Totals dir flags ps f) :
    (∀ s ∈ ps, f.firstTsNs ≤ s.tsNs) ∧ ∃ s ∈ ps, s.tsNs = f.firstTsNs ∧ dir s = f.firstFromB := by
  obtain ⟨hle, before, s, after, rfl, hts, hdir, -⟩ := h.first
  exact ⟨hle, s, List.mem_append_right _ List.mem_cons_self, hts, hdir⟩

/-- **The totals of the same records, but for the direction.** -/
theorem Totals.perm (h : Totals dir flags ps f) (h' : Totals dir flags qs g) (hperm : qs.Perm ps)
    (hkey : g.key = f.key) (huse : g.inUse = f.inUse) (hhash : g.hash = f.hash) :
    g.undirected = f.undirected := by
  obtain ⟨hle, s, hs, hts, -⟩ := h.earliest
  obtain ⟨hle', q, hq, hqts, -⟩ := h'.earliest
  have hpackets : g.packets = f.packets := by rw [h.packets, h'.packets, hperm.length_eq]
  have hbytes : g.bytes = f.bytes := by rw [h.bytes, h'.bytes, (hperm.map _).sum_eq]
  have hflags : g.tcpFlags = f.tcpFlags := by
    rw [h.tcpFlags, h'.tcpFlags]
    exact (hperm.map flags).foldl_eq 0
  have hfirst : g.firstTsNs = f.firstTsNs := least_unique hperm ⟨hle, s, hs, hts⟩ ⟨hle', q, hq, hqts⟩
  have hlast : g.lastTsNs = f.lastTsNs := greatest_unique hperm h.last h'.last
  cases f
  cases g
  simp only [Flow.undirected] at *
  simp only [hpackets, hbytes, hflags, hfirst, hlast, hkey, huse, hhash]

/-- The direction too, if the earliest records agree on it. -/
theorem Totals.firstFromB_perm (h : Totals dir flags ps f) (h' : Totals dir flags qs g) (hperm : qs.Perm ps)
    (hone : OneWay dir ps) : g.firstFromB = f.firstFromB := by
  obtain ⟨hle, s, hs, hts, hdir⟩ := h.earliest
  obtain ⟨hle', q, hq, hqts, hdir'⟩ := h'.earliest
  rw [← hdir, ← hdir']
  apply hone q (hperm.mem_iff.mp hq) s hs
  · intro r hr
    rw [hqts]
    exact hle' r (hperm.mem_iff.mpr hr)
  · intro r hr
    rw [hts]
    exact hle r hr

end totals

/-! ### Tables -/

section tables

variable {w : ℕ} {on : FlowKey → Seen → Bool} {dir : Seen → Bool} {flags : Seen → UInt8}
  {ps qs : List Seen} {t t' : FlowTable}

/-- Tables of the same records hold the same entries, but for the direction. -/
theorem Exact.lookup_perm (h : Exact on dir flags ps t) (h' : Exact on dir flags qs t') (ht : t.Inv w)
    (ht' : t'.Inv w) (hperm : qs.Perm ps) (K : FlowKey) :
    (t'.lookup K).map Flow.undirected = (t.lookup K).map Flow.undirected := by
  have hfilter := hperm.filter (on K)
  have hnone : t'.lookup K = none ↔ t.lookup K = none := by
    rw [h.absent, h'.absent, ← List.length_eq_zero_iff, ← List.length_eq_zero_iff, hfilter.length_eq]
  cases hf : t.lookup K with
  | none => rw [hnone.mpr hf]
  | some f =>
      cases hg : t'.lookup K with
      | none => exact absurd (hf.symm.trans (hnone.mp hg)) (Option.some_ne_none f)
      | some g =>
          obtain ⟨hkey, huse, hhash⟩ := FlowTable.lookup_key ht hf
          obtain ⟨hkey', huse', hhash'⟩ := FlowTable.lookup_key ht' hg
          have hsame := (h.totals K f hf).perm (h'.totals K g hg) hfilter (hkey'.trans hkey.symm)
            (huse'.trans huse.symm) (hhash'.trans hhash.symm)
          exact congrArg some hsame

theorem Exact.firstFromB_perm (h : Exact on dir flags ps t) (h' : Exact on dir flags qs t')
    (hperm : qs.Perm ps) {K : FlowKey} (hone : OneWay dir (ps.filter (on K))) {f g : Flow} (hf : t.lookup K = some f)
    (hg : t'.lookup K = some g) : g.firstFromB = f.firstFromB :=
  (h.totals K f hf).firstFromB_perm (h'.totals K g hg) (hperm.filter (on K)) hone

theorem eq_of_undirected {f g : Flow} (h : g.undirected = f.undirected)
    (hdir : g.firstFromB = f.firstFromB) : g = f := by
  cases f
  cases g
  simp only [Flow.undirected, Flow.mk.injEq] at h hdir ⊢
  simp only [h, hdir, and_self]

theorem Exact.lookup_eq (h : Exact on dir flags ps t) (h' : Exact on dir flags qs t') (ht : t.Inv w)
    (ht' : t'.Inv w) (hperm : qs.Perm ps) {K : FlowKey} (hone : OneWay dir (ps.filter (on K))) :
    t'.lookup K = t.lookup K := by
  have hsame := h.lookup_perm h' ht ht' hperm K
  cases hf : t.lookup K with
  | none =>
      rw [hf] at hsame
      exact Option.map_eq_none_iff.mp hsame
  | some f =>
      rw [hf] at hsame
      obtain ⟨g, hg, hgf⟩ := Option.map_eq_some_iff.mp hsame
      rw [hg, eq_of_undirected hgf (h.firstFromB_perm h' hperm hone hf hg)]

/-- Tables that stand for one map have the same entries. -/
theorem FlowTable.Inv.mem_entries_congr (ht : t.Inv w) (ht' : t'.Inv w)
    (h : ∀ K, t'.lookup K = t.lookup K) (f : Flow) : f ∈ t.entries ↔ f ∈ t'.entries := by
  have hmem : ∀ {u : FlowTable}, u.Inv w → (f ∈ u.entries ↔ u.lookup f.key = some f) := by
    intro u hu
    rw [FlowTable.lookup, Scheme.lookup_eq_some hu.nodup]
    exact (and_iff_left rfl).symm
  rw [hmem ht, hmem ht', h]

end tables

/-! ### Counters -/

/-- The first and the last timestamp of the records. -/
structure Spans (ps : List Seen) (st : Stats) : Prop where
  first : (∀ s ∈ ps, st.firstTsNs ≤ s.tsNs) ∧ ∃ s ∈ ps, s.tsNs = st.firstTsNs
  last : (∀ s ∈ ps, s.tsNs ≤ st.lastTsNs) ∧ ∃ s ∈ ps, s.tsNs = st.lastTsNs

section counters

variable {ps qs : List Seen} {st st' : Stats}

theorem Seen.count_times (s : Seen) (st : Stats) :
    (s.count st).firstTsNs = (if st.packets = 0 || s.tsNs < st.firstTsNs then s.tsNs else st.firstTsNs) ∧
      (s.count st).lastTsNs = if st.packets = 0 || s.tsNs > st.lastTsNs then s.tsNs else st.lastTsNs := by
  unfold Seen.count statsAdd
  rw [Stats.addIp_eq, Stats.addFrame_eq]
  cases s.matched <;> exact ⟨rfl, rfl⟩

/-- With no packet counted, also if they have wrapped, a record sets both times. -/
theorem Seen.count_times_zero (s : Seen) (hzero : st.packets = 0) :
    (s.count st).firstTsNs = s.tsNs ∧ (s.count st).lastTsNs = s.tsNs := by
  obtain ⟨hfirst, hlast⟩ := s.count_times st
  rw [hfirst, hlast, hzero]
  exact ⟨if_pos rfl, if_pos rfl⟩

theorem Spans.count (h : Spans ps st) (hpackets : st.packets ≠ 0) (s : Seen) :
    Spans (ps ++ [s]) (s.count st) := by
  obtain ⟨hfirst, hlast⟩ := s.count_times st
  simp only [decide_eq_false hpackets, Bool.false_or, decide_eq_true_eq] at hfirst hlast
  constructor
  · rw [hfirst]
    exact least_append h.first s
  · rw [hlast]
    exact greatest_append h.last s

theorem Spans.one (hpackets : st.packets = 0) (s : Seen) : Spans [s] (s.count st) := by
  obtain ⟨hfirst, hlast⟩ := s.count_times_zero hpackets
  constructor
  · rw [hfirst, List.forall_mem_singleton]
    exact ⟨UInt64.le_refl _, s, List.mem_singleton_self s, rfl⟩
  · rw [hlast, List.forall_mem_singleton]
    exact ⟨UInt64.le_refl _, s, List.mem_singleton_self s, rfl⟩

/-- As long as the number of packets does not wrap, the timestamps are the bounds of all. -/
theorem spans_foldl : ∀ (ps : List Seen), ps ≠ [] → ps.length ≤ 2 ^ 64 →
    Spans ps (ps.foldl (fun st s => s.count st) statsInit) := by
  intro ps
  induction ps using List.reverseRecOn with
  | nil =>
      intro hne
      exact absurd rfl hne
  | append_singleton ps s ih =>
      intro _ hlen
      rw [List.length_append, List.length_singleton] at hlen
      have hpackets := counter_foldl .packets ps statsInit
      have htally : tally ps .packets = ps.length := List.countP_eq_length.mpr fun _ _ => rfl
      have hinit : Counter.packets.get statsInit = 0 := rfl
      rw [htally, hinit, UInt64.zero_add] at hpackets
      rw [List.foldl_append]
      by_cases hpos : ps = []
      · subst hpos
        exact Spans.one rfl s
      · apply (ih hpos (by omega)).count
        -- the number of packets is that of the records, which is neither zero nor `2 ^ 64`
        intro hzero
        have hlt : ps.length < 2 ^ 64 := by omega
        have hnat : ps.length = 0 := by
          have heq := congrArg UInt64.toNat (hpackets.symm.trans hzero)
          rwa [UInt64.toNat_ofNat_of_lt' hlt] at heq
        exact hpos (List.length_eq_zero_iff.mp hnat)

theorem Spans.unique (hperm : qs.Perm ps) (h : Spans ps st) (h' : Spans qs st') :
    st'.firstTsNs = st.firstTsNs ∧ st'.lastTsNs = st.lastTsNs :=
  ⟨least_unique hperm h.first h'.first, greatest_unique hperm h.last h'.last⟩

attribute [ext] GtpuStats Stats

theorem Stats.ext_counters (hc : ∀ c : Counter, c.get st' = c.get st) (hwire : st'.wireBytes = st.wireBytes)
    (hcap : st'.capturedBytes = st.capturedBytes) (hfirst : st'.firstTsNs = st.firstTsNs)
    (hlast : st'.lastTsNs = st.lastTsNs) : st' = st := by
  have hgtpu : st'.gtpu = st.gtpu :=
    GtpuStats.ext (hc .gtpPackets) (hc .fragmented) (hc .notV1u) (hc .gpdu) (hc .echoRequest)
      (hc .echoResponse) (hc .errorIndication) (hc .endMarker) (hc .otherType) (hc .withSeq) (hc .withExt)
      (hc .innerIpv4) (hc .innerIpv6) (hc .innerTcp) (hc .innerUdp) (hc .innerIcmp) (hc .innerIcmpv6)
      (hc .innerOther) (hc .nested) (hc .gtpTruncated) (hc .gtpMalformed) (hc .userTruncated)
      (hc .userMalformed) (funext fun s => hc (.gtpByStatus s))
  exact Stats.ext (hc .packets) hwire hcap hfirst hlast (hc .ipv4) (hc .ipv6) (hc .nonIp) (hc .vlanTagged)
    (hc .tcp) (hc .udp) (hc .icmp) (hc .icmpv6) (hc .otherL4) (hc .fragFirst) (hc .fragLater)
    (hc .fragMatched) (hc .truncated) (hc .malformed) (funext fun s => hc (.byStatus s)) hgtpu

end counters

/-! ### Records -/

/-- What a record consists of, wherever it is kept. -/
structure Content where
  tsNs : UInt64
  caplen : UInt32
  wirelen : UInt32
  bytes : List UInt8
deriving DecidableEq, Repr

def PcapRecord.content (rec : PcapRecord) : Content :=
  ⟨rec.tsNs, rec.caplen, rec.wirelen, (rec.data.getD {}).bytes rec.caplen.toNat⟩

/-- The record as `analysis_account` sees it, if it is not a fragment. -/
def Content.whole (c : Content) : Seen :=
  ⟨decodeFrame (SpanWalk.Mem.ofList c.bytes) c.caplen.toNat c.wirelen.toNat, false, c.caplen, c.wirelen,
    c.tsNs⟩

theorem PcapRecord.whole_content (rec : PcapRecord) : rec.content.whole = rec.frame.whole := by
  have hpi : decodeFrame (SpanWalk.Mem.ofList rec.content.bytes) rec.caplen.toNat rec.wirelen.toNat =
      rec.frame.pi := by
    apply decodeFrame_congr
    intro i hi
    exact (Ptr.byte_eq (rec.data.getD {}) hi).symm
  unfold Content.whole Frame.whole
  rw [← hpi]
  rfl

/-- The records as `analysis_account` sees them, if none is a fragment. -/
def wholes (recs : List PcapRecord) : List Seen := recs.map fun rec => rec.frame.whole

theorem wholes_eq (recs : List PcapRecord) :
    wholes recs = (recs.map PcapRecord.content).map Content.whole := by
  unfold wholes
  rw [List.map_map]
  apply List.map_congr_left
  intro rec _
  exact rec.whole_content.symm

theorem wholes_perm {recs recs' : List PcapRecord}
    (h : (recs'.map PcapRecord.content).Perm (recs.map PcapRecord.content)) :
    (wholes recs').Perm (wholes recs) := by
  rw [wholes_eq, wholes_eq]
  exact h.map Content.whole

/-! ### Runs -/

/-- What a run over the records `ps`, none of them a fragment, leaves behind. -/
structure Left (w : ℕ) (ps : List Seen) (a : Analysis) : Prop where
  inv : a.Inv w
  stats : a.stats = ps.foldl (fun st s => s.count st) statsInit
  flows : Exact onFlow (fun s => fromB s.pi) flagsSeen ps a.flows
  tunnels : Exact onTunnel (fun _ => false) (fun _ => 0) ps a.tunnels

/-- The results of two runs over the records `ps` in different orders. -/
structure SameResults (ps : List Seen) (a a' : Analysis) : Prop where
  counters : ∀ c : Counter, c.get a'.stats = c.get a.stats
  bytes : a'.stats.wireBytes = a.stats.wireBytes ∧ a'.stats.capturedBytes = a.stats.capturedBytes
  stats : ps.length ≤ 2 ^ 64 → a'.stats = a.stats
  flows : ∀ K, (a'.flows.lookup K).map Flow.undirected = (a.flows.lookup K).map Flow.undirected
  tunnels : ∀ K, a'.tunnels.lookup K = a.tunnels.lookup K
  direction : ∀ K, OneWay (fun s => fromB s.pi) (ps.filter (onFlow K)) →
    ∀ f g, a.flows.lookup K = some f → a'.flows.lookup K = some g → g.firstFromB = f.firstFromB
  flowReport : (∀ K, OneWay (fun s => fromB s.pi) (ps.filter (onFlow K))) → ∀ qsort ok n,
    reportCsv qsort a'.flows ok = reportCsv qsort a.flows ok ∧
      (flowTableTopN a'.flows qsort n).map a'.flows.slot = (flowTableTopN a.flows qsort n).map a.flows.slot
  tunnelReport : ∀ qsort ok n,
    reportTunnelsCsv qsort a'.tunnels ok = reportTunnelsCsv qsort a.tunnels ok ∧
      (flowTableTopN a'.tunnels qsort n).map a'.tunnels.slot =
        (flowTableTopN a.tunnels qsort n).map a.tunnels.slot

section runs

variable {w : ℕ} {a b b' : Analysis} {ps qs : List Seen}

theorem AccountedAll.left {fs : List Frame} (ha : Fresh w a) (h : AccountedAll w a fs b)
    (hnone : ∀ f ∈ fs, f.pi.frag = .none) : Left w (fs.map Frame.whole) b := by
  have hseen := seenAll_of_none (w := w) (c := a.frags) hnone
  have hflows := (Exact.empty ha.flows).run (fun s _ => grouped_flow s) h.flows
  have htunnels :=
    (Exact.empty ha.tunnels).run (fun s hs => grouped_tunnel (seenAll_decoded s hs)) h.tunnels
  have hstats := h.stats
  rw [List.nil_append, hseen] at hflows htunnels
  rw [hseen, ha.stats] at hstats
  exact ⟨h.inv ha.inv, hstats, hflows, htunnels⟩

theorem Left.bytes_eq (h : Left w ps b) (h' : Left w qs b') (hperm : qs.Perm ps) :
    b'.stats.wireBytes = b.stats.wireBytes ∧ b'.stats.capturedBytes = b.stats.capturedBytes := by
  obtain ⟨hw, hc⟩ := bytes_foldl ps statsInit
  obtain ⟨hw', hc'⟩ := bytes_foldl qs statsInit
  rw [h.stats, h'.stats, hw, hw', hc, hc', (hperm.map _).sum_eq, (hperm.map _).sum_eq]
  exact ⟨rfl, rfl⟩

theorem Left.counter_eq (h : Left w ps b) (h' : Left w qs b') (hperm : qs.Perm ps) (c : Counter) :
    c.get b'.stats = c.get b.stats := by
  rw [h.stats, h'.stats, counter_foldl, counter_foldl, tally, tally, hperm.countP_eq]

theorem Left.stats_eq (h : Left w ps b) (h' : Left w qs b') (hperm : qs.Perm ps)
    (hlen : ps.length ≤ 2 ^ 64) : b'.stats = b.stats := by
  by_cases hps : ps = []
  · subst hps
    rw [h.stats, h'.stats, hperm.eq_nil]
  have hqs : qs ≠ [] := by
    rintro rfl
    exact hps hperm.symm.eq_nil
  have hspans := spans_foldl ps hps hlen
  have hspans' := spans_foldl qs hqs (hperm.length_eq ▸ hlen)
  rw [← h.stats] at hspans
  rw [← h'.stats] at hspans'
  obtain ⟨hfirst, hlast⟩ := hspans.unique hperm hspans'
  obtain ⟨hwire, hcap⟩ := h.bytes_eq h' hperm
  exact Stats.ext_counters (h.counter_eq h' hperm) hwire hcap hfirst hlast

/-- What is left behind does not depend on the order. -/
theorem Left.sameResults (h : Left w ps b) (h' : Left w qs b') (hperm : qs.Perm ps) :
    SameResults ps b b' := by
  have htunnels : ∀ K, b'.tunnels.lookup K = b.tunnels.lookup K := by
    intro K
    exact h.tunnels.lookup_eq h'.tunnels h.inv.tunnels h'.inv.tunnels hperm (OneWay.of_const false _)
  refine ⟨h.counter_eq h' hperm, h.bytes_eq h' hperm, h.stats_eq h' hperm,
    h.flows.lookup_perm h'.flows h.inv.flows h'.inv.flows hperm, htunnels, ?_, ?_, ?_⟩
  · intro K hone f g
    exact h.flows.firstFromB_perm h'.flows hperm hone
  · intro hone qsort ok n
    have hflows : ∀ K, b'.flows.lookup K = b.flows.lookup K := by
      intro K
      exact h.flows.lookup_eq h'.flows h.inv.flows h'.inv.flows hperm (hone K)
    have hsame := h.inv.flows.mem_entries_congr h'.inv.flows hflows
    exact ⟨(csvReport_congr h.inv.flows h'.inv.flows hsame _ _ qsort ok).symm,
      (topN_congr h.inv.flows h'.inv.flows hsame qsort qsort n).symm⟩
  · intro qsort ok n
    have hsame := h.inv.tunnels.mem_entries_congr h'.inv.tunnels htunnels
    exact ⟨(csvReport_congr h.inv.tunnels h'.inv.tunnels hsame _ _ qsort ok).symm,
      (topN_congr h.inv.tunnels h'.inv.tunnels hsame qsort qsort n).symm⟩

theorem Delivers.left {r r' q : PcapReader} {recs : List PcapRecord} {st s : PcapStatus} {ok : ℕ → Grants}
    (hdel : Delivers r recs st r') (ha : Fresh w a) (hnone : ∀ rec ∈ recs, rec.decode.frag = .none)
    (hrun : analysisRun w ok a r = some (b, q, s)) (hs : s ≠ .errNomem) : Left w (wholes recs) b := by
  have hall := AccountedAll.of_run ha.inv (accountAll_of_analysisLoop hdel hrun hs)
  have hleft := hall.left ha (List.forall_mem_map.mpr hnone)
  rwa [List.map_map] at hleft

end runs

/-! ### The theorem -/

/-- **The order of the records does not matter.** -/
theorem analysisRun_anyOrder {w : ℕ} {okFlows okTunnels okFrags : Bool} {a : Analysis}
    (hinit : analysisInit w okFlows okTunnels okFrags = some (some a)) {r r' e e' : PcapReader}
    {recs recs' : List PcapRecord} {st st' : PcapStatus} (hdel : Delivers r recs st e)
    (hdel' : Delivers r' recs' st' e')
    (hperm : (recs'.map PcapRecord.content).Perm (recs.map PcapRecord.content))
    (hnone : ∀ rec ∈ recs, rec.decode.frag = .none) {ok ok' : ℕ → Grants} {b b' : Analysis}
    {q q' : PcapReader} {s s' : PcapStatus} (hrun : analysisRun w ok a r = some (b, q, s)) (hs : s ≠ .errNomem)
    (hrun' : analysisRun w ok' a r' = some (b', q', s')) (hs' : s' ≠ .errNomem) :
    SameResults (wholes recs) b b' := by
  have ha := Fresh.of_init hinit
  have hperm' := wholes_perm hperm
  have hnone' : ∀ rec ∈ recs', rec.decode.frag = .none := by
    intro rec hrec
    have hmem : rec.frame.whole ∈ wholes recs' := List.mem_map_of_mem hrec
    obtain ⟨rec₀, hrec₀, hwhole⟩ := List.mem_map.mp (hperm'.mem_iff.mp hmem)
    have hpi : rec₀.decode = rec.decode := congrArg Seen.pi hwhole
    rw [← hpi]
    exact hnone rec₀ hrec₀
  exact (hdel.left ha hnone hrun hs).sameResults (hdel'.left ha hnone' hrun' hs') hperm'

/-- A plain datagram and the start of one to port 2152. -/
def plainRecord : RawRecord := ⟨5, 0, 60, paddedFrame, paddedFrame_fits⟩
def gtpuRecord : RawRecord := ⟨6, 0, 70, gtpuDatagram, by decide⟩

theorem analysisRun_anyOrder_two : ∃ a b b' q q' recs, analysisInit 64 true true true = some (some a) ∧
    analysisRun 64 (fun _ => ⟨true, true⟩) a (capture [plainRecord, gtpuRecord]) = some (b, q, .eof) ∧
    analysisRun 64 (fun _ => ⟨true, true⟩) a (capture [gtpuRecord, plainRecord]) = some (b', q', .eof) ∧
    SameResults (wholes recs) b b' := by
  obtain ⟨a, hinit⟩ := exists_init
  have hends := fun raws => analysisRun_ends (fun _ => ⟨true, true⟩) (capture raws)
    (fun a => a.flows.count) .eof 2 hinit
  obtain ⟨b, q, hrun, -⟩ := hends [plainRecord, gtpuRecord] (by decide +kernel)
  obtain ⟨b', q', hrun', -⟩ := hends [gtpuRecord, plainRecord] (by decide +kernel)
  have hdel := @delivers_deliverAll 3 (capture [plainRecord, gtpuRecord]) .eof (by decide +kernel) (by decide)
  have hdel' := @delivers_deliverAll 3 (capture [gtpuRecord, plainRecord]) .eof (by decide +kernel) (by decide)
  have hsame := analysisRun_anyOrder hinit hdel hdel' (by decide +kernel) (by decide +kernel)
    hrun PcapStatus.noConfusion hrun' PcapStatus.noConfusion
  exact ⟨a, b, b', q, q', _, hinit, hrun, hrun', hsame⟩

/-! ### A capture that is too long -/

/-- One captured byte at a time of `sec` seconds. -/
def tinyRecord (sec : UInt32) : RawRecord := ⟨sec, 0, 1, [0], Nat.le_of_ble_eq_true rfl⟩

def tinyContent (raw : RawRecord) : Content := ⟨UInt64.ofNat (raw.sec.toNat * 1000000000), 1, 1, [0]⟩

theorem Reads.tinyContent {rec : PcapRecord} {sec : UInt32} (h : Reads false rec (tinyRecord sec)) :
    rec.content = Pcapstat.tinyContent (tinyRecord sec) := by
  have hts : rec.tsNs = UInt64.ofNat (sec.toNat * 1000000000) := by
    have hsec : (tinyRecord sec).sec.toNat = sec.toNat := rfl
    have hfrac : (tinyRecord sec).frac.toNat = 0 := rfl
    rw [← UInt64.ofNat_toNat (x := rec.tsNs), h.tsNs, hsec, hfrac, Nat.zero_mul, Nat.add_zero]
  have hcap : rec.caplen = 1 := UInt32.toNat_inj.mp h.caplen
  have hwire : rec.wirelen = 1 := UInt32.toNat_inj.mp h.wirelen
  obtain ⟨p, hp, hbytes⟩ := h.data
  unfold PcapRecord.content
  rw [hts, hcap, hwire, hp]
  exact congrArg (Content.mk _ 1 1) hbytes

theorem map_tinyContent {recs : List PcapRecord} {raws : List RawRecord}
    (hreads : List.Forall₂ (Reads false) recs raws) (htiny : ∀ raw ∈ raws, ∃ sec, raw = tinyRecord sec) :
    recs.map PcapRecord.content = raws.map tinyContent := by
  induction hreads with
  | nil => rfl
  | @cons rec raw recs raws hread hreads ih =>
      obtain ⟨sec, rfl⟩ := htiny raw List.mem_cons_self
      rw [List.map_cons, List.map_cons, hread.tinyContent, ih]
      intro raw' hraw
      exact htiny raw' (List.mem_cons_of_mem _ hraw)

theorem tiny_spec {rec : PcapRecord} {raw : RawRecord} (h : rec.content = tinyContent raw) :
    rec.decode.status ≠ .ok ∧ rec.decode.frag = .none := by
  have hwhole : rec.frame.whole = (tinyContent raw).whole := by rw [← rec.whole_content, h]
  have hpi : rec.decode = (tinyContent raw).whole.pi := congrArg Seen.pi hwhole
  have hbytes : (tinyContent raw).whole.pi = decodeFrame (SpanWalk.Mem.ofList [0]) 1 1 := rfl
  rw [hpi, hbytes]
  decide +kernel

/-- The packet after the first `2 ^ 64` sets the timestamps again. -/
theorem count_wrapped (ps : List Seen) (hlen : ps.length = 2 ^ 64) (s : Seen) :
    ((ps ++ [s]).foldl (fun st s => s.count st) statsInit).firstTsNs = s.tsNs := by
  rw [List.foldl_append, List.foldl_cons, List.foldl_nil]
  apply And.left
  apply Seen.count_times_zero
  have hpackets := counter_foldl .packets ps statsInit
  have htally : tally ps .packets = ps.length := List.countP_eq_length.mpr fun _ _ => rfl
  rw [htally, hlen] at hpackets
  exact hpackets

theorem wrapped_first (raws : List RawRecord) (hlen : raws.length = 2 ^ 64) {sec : UInt32}
    (htiny : ∀ raw ∈ raws ++ [tinyRecord sec], ∃ sec', raw = tinyRecord sec') {a : Analysis}
    (hinit : analysisInit 64 true true true = some (some a)) :
    ∃ recs b q e, Delivers (capture (raws ++ [tinyRecord sec])) recs .eof e ∧
      recs.map PcapRecord.content = (raws ++ [tinyRecord sec]).map tinyContent ∧
      (∀ rec ∈ recs, rec.decode.frag = .none) ∧
      analysisRun 64 (fun _ => ⟨true, true⟩) a (capture (raws ++ [tinyRecord sec])) = some (b, q, .eof) ∧
      b.stats.firstTsNs = UInt64.ofNat (sec.toNat * 1000000000) := by
  obtain ⟨recs, e, hdel, hreads⟩ := delivers_capture (raws ++ [tinyRecord sec])
  have hcontent := map_tinyContent hreads htiny
  have hspec : ∀ rec ∈ recs, rec.decode.status ≠ .ok ∧ rec.decode.frag = .none := by
    intro rec hrec
    obtain ⟨raw, -, hraw⟩ := List.mem_map.mp (hcontent ▸ List.mem_map_of_mem hrec : rec.content ∈ _)
    exact tiny_spec hraw.symm
  have hbad : ∀ f ∈ recs.map PcapRecord.frame, f.pi.status ≠ .ok := by
    rw [List.forall_mem_map]
    intro rec hrec
    exact (hspec rec hrec).1
  have hnone : ∀ rec ∈ recs, rec.decode.frag = .none := by
    intro rec hrec
    exact (hspec rec hrec).2
  obtain ⟨b, hrun⟩ := @accountAll_of_bad 64 (fun _ => ⟨true, true⟩) _ a 0 hbad
  obtain ⟨q, st, hloop, -, rfl⟩ := analysisRun_of_delivers hdel hrun
  have hleft := hdel.left (Fresh.of_init hinit) hnone hloop PcapStatus.noConfusion
  refine ⟨recs, b, q, e, hdel, hcontent, hnone, hloop, ?_⟩
  rw [hleft.stats, wholes_eq, hcontent, List.map_map, List.map_append]
  apply count_wrapped
  rw [List.length_map, hlen]

/-- The earliest record comes first, or last. -/
def earlyFirst : List RawRecord := tinyRecord 0 :: List.replicate (2 ^ 64) (tinyRecord 1)
def earlyLast : List RawRecord := List.replicate (2 ^ 64) (tinyRecord 1) ++ [tinyRecord 0]

/-- A capture of `2 ^ 64 + 1` records in two orders. -/
theorem longCapture_reordered : ∃ a b b' q q' e e' recs recs', analysisInit 64 true true true = some (some a) ∧
    Delivers (capture earlyFirst) recs .eof e ∧ Delivers (capture earlyLast) recs' .eof e' ∧
    (recs'.map PcapRecord.content).Perm (recs.map PcapRecord.content) ∧
    (∀ rec ∈ recs, rec.decode.frag = .none) ∧
    analysisRun 64 (fun _ => ⟨true, true⟩) a (capture earlyFirst) = some (b, q, .eof) ∧
    analysisRun 64 (fun _ => ⟨true, true⟩) a (capture earlyLast) = some (b', q', .eof) ∧
    b'.stats.firstTsNs ≠ b.stats.firstTsNs := by
  obtain ⟨a, hinit⟩ := exists_init
  obtain ⟨n, hn⟩ : ∃ n, n + 1 = 2 ^ 64 := ⟨2 ^ 64 - 1, rfl⟩
  have hsplit : earlyFirst = (tinyRecord 0 :: List.replicate n (tinyRecord 1)) ++ [tinyRecord 1] := by
    unfold earlyFirst
    rw [← hn, List.replicate_succ', List.cons_append]
  have hperm : earlyLast.Perm earlyFirst := List.perm_append_singleton _ _
  have htiny : ∀ raw ∈ earlyFirst, ∃ sec, raw = tinyRecord sec := by
    intro raw hraw
    rcases List.mem_cons.mp hraw with rfl | hraw
    · exact ⟨0, rfl⟩
    · exact ⟨1, List.eq_of_mem_replicate hraw⟩
  have htiny' : ∀ raw ∈ earlyLast, ∃ sec, raw = tinyRecord sec := by
    intro raw hraw
    exact htiny raw (hperm.mem_iff.mp hraw)
  obtain ⟨recs', b', q', e', hdel', hcontent', -, hrun', hfirst'⟩ :=
    wrapped_first (List.replicate (2 ^ 64) (tinyRecord 1)) List.length_replicate htiny' hinit
  rw [hsplit] at hperm htiny ⊢
  obtain ⟨recs, b, q, e, hdel, hcontent, hnone, hrun, hfirst⟩ :=
    wrapped_first (tinyRecord 0 :: List.replicate n (tinyRecord 1))
      (by rw [List.length_cons, List.length_replicate, hn]) htiny hinit
  refine ⟨a, b, b', q, q', e, e', recs, recs', hinit, hdel, hdel', ?_, hnone, hrun, hrun', ?_⟩
  · rw [hcontent, hcontent']
    exact hperm.map tinyContent
  · rw [hfirst, hfirst']
    decide

end Pcapstat
