import Pcapstat.CsvReport
import Pcapstat.FragFlow
import Pcapstat.KeyedList
import Pcapstat.Teids

/-! # The ledger of a capture

What the program reports, told from the records alone: a ledger is a plain list of entries, searched from
front to back, and a later fragment looks for its first fragment among the packets before it.  There is no
probing, no growth and no heap, and of the cache only which packets share a slot.

* The analysis holds the entries of the ledger (`analysisRun_ledger`), whatever the tables look like.
* The reports list the ledger in its ranking (`ranked`). -/

namespace Pcapstat

/-! ### Fragments -/

/-- The packet that was the last to write the slot of `q` in the cache. -/
def lastWriter (w : ℕ) (ps : List PacketInfo) (q : PacketInfo) : Option PacketInfo :=
  ps.reverse.find? fun p => recordsPorts p && slotFor w p = slotFor w q

/-- The first fragment that `q` borrows its ports from. -/
def lender (w : ℕ) (ps : List PacketInfo) (q : PacketInfo) : Option PacketInfo :=
  if asksPorts q then (lastWriter w ps q).filter fun p => fragKey p = fragKey q else none

/-- A frame behind the packets `ps`. -/
def resolve (w : ℕ) (ps : List PacketInfo) (f : Frame) : Seen :=
  match lender w ps f.pi with
  | none => ⟨f.pi, false, f.caplen, f.wirelen, f.tsNs⟩
  | some p => ⟨f.pi.withPorts p.srcPort p.dstPort, true, f.caplen, f.wirelen, f.tsNs⟩

def resolveAll (w : ℕ) : List PacketInfo → List Frame → List Seen
  | _, [] => []
  | ps, f :: fs => resolve w ps f :: resolveAll w (ps ++ [f.pi]) fs

section fragments

variable {w : ℕ} {ps : List PacketInfo}

/-- A slot of the cache holds what its last writer left. -/
theorem run_slot (w : ℕ) (ps : List PacketInfo) (q : PacketInfo) :
    (fragScheme w).run (fun _ => {}) ps (slotFor w q) = ((lastWriter w ps q).map .ofFirst).getD {} := by
  unfold lastWriter
  induction ps using List.reverseRecOn with
  | nil => rfl
  | append_singleton ps p ih =>
      have hrun : (fragScheme w).run (fun _ => {}) (ps ++ [p]) =
          (fragScheme w).store ((fragScheme w).run (fun _ => {}) ps) p := by
        unfold DirectMapped.Scheme.run
        rw [List.foldl_append]
        rfl
      rw [hrun, List.reverse_append, List.reverse_singleton, List.singleton_append]
      cases hp : recordsPorts p && slotFor w p = slotFor w q with
      | true =>
          rw [List.find?_cons_of_pos (p := fun p => recordsPorts p && slotFor w p = slotFor w q) hp]
          obtain ⟨hrec, hslot⟩ := (Bool.and_eq_true _ _).mp hp
          unfold DirectMapped.Scheme.store
          rw [if_pos (show (fragScheme w).writes p = true from hrec), ← of_decide_eq_true hslot]
          exact Function.update_self _ _ _
      | false =>
          rw [List.find?_cons_of_neg (p := fun p => recordsPorts p && slotFor w p = slotFor w q)
            (by rw [hp]; exact Bool.false_ne_true), ← ih]
          apply DirectMapped.Scheme.store_of_ne
          intro hrec hslot
          have hboth : (recordsPorts p && slotFor w p = slotFor w q) = true :=
            (Bool.and_eq_true _ _).mpr ⟨hrec, decide_eq_true hslot⟩
          exact absurd (hp.symm.trans hboth) Bool.false_ne_true

/-- The cache lends the ports that the packets before tell. -/
theorem seen_eq_resolve (f : Frame) : seen w ⟨some ((fragScheme w).run (fun _ => {}) ps)⟩ f = resolve w ps f := by
  have hslot := run_slot w ps f.pi
  unfold seen resolve lender
  rw [fragCacheApply_some, foundPorts, hslot]
  cases asksPorts f.pi with
  | false => rfl
  | true =>
      rw [Bool.true_and, if_pos rfl]
      cases lastWriter w ps f.pi with
      | none => rfl
      | some p =>
          rw [Option.map_some, Option.getD_some, Option.filter_some]
          by_cases hkey : fragKey p = fragKey f.pi
          · rw [(sameDatagram_ofFirst p f.pi).mpr hkey, if_pos (decide_eq_true hkey)]
            rfl
          · have hno : sameDatagram (.ofFirst p) f.pi = false := by
              rw [← Bool.not_eq_true, sameDatagram_ofFirst]
              exact hkey
            rw [hno, if_neg Bool.false_ne_true, if_neg (by rw [decide_eq_true_eq]; exact hkey)]

theorem seenAll_eq_resolveAll : ∀ (fs : List Frame) (ps : List PacketInfo),
    seenAll w ⟨some ((fragScheme w).run (fun _ => {}) ps)⟩ fs = resolveAll w ps fs
  | [], _ => rfl
  | f :: fs, ps => by
      have hnext : (fragCacheApply w ⟨some ((fragScheme w).run (fun _ => {}) ps)⟩ f.pi).1 =
          ⟨some ((fragScheme w).run (fun _ => {}) (ps ++ [f.pi]))⟩ := by
        rw [fragCacheApply_some]
        unfold DirectMapped.Scheme.run
        rw [List.foldl_append]
        rfl
      rw [seenAll, resolveAll, seen_eq_resolve, hnext, seenAll_eq_resolveAll fs]

end fragments

/-! ### Entries -/

/-- A contribution is entered. -/
def enter (l : List Flow) (e : FlowKey × Contribution) : List Flow :=
  KeyedList.update Flow.key e.1 (accounted e.1 e.2) l

/-- The entries of some contributions, in the order of their first ones. -/
def ledger (es : List (FlowKey × Contribution)) : List Flow := es.foldl enter []

/-- The entries in the order in which they are listed. -/
def ranked (l : List Flow) : List Flow := RankHeap.sort rankCmp l

def flowLedger (ss : List Seen) : List Flow := ledger (ss.filterMap Seen.flowEvent)

def tunnelLedger (ss : List Seen) : List Flow := ledger (ss.filterMap Seen.tunnelEvent)

section entries

variable {w : ℕ} {t t' : FlowTable} {l : List Flow} {e : Option (FlowKey × Contribution)}

theorem FlowTable.lookup_eq_find (t : FlowTable) (k : FlowKey) :
    t.lookup k = KeyedList.find Flow.key k t.entries := rfl

theorem FlowTable.Inv.lookup_ledger (h : t.Inv w) (hperm : t.entries.Perm l) (k : FlowKey) :
    t.lookup k = KeyedList.find Flow.key k l :=
  (FlowTable.lookup_eq_find t k).trans (KeyedList.find_perm hperm h.nodup)

/-- One contribution is entered in the table and in the ledger. -/
theorem Added.enter (h : Added w t e t' true) (ht : t.Inv w) (hperm : t.entries.Perm l) :
    t'.entries.Perm (e.toList.foldl Pcapstat.enter l) := by
  cases h with
  | skip _ => exact hperm
  | @done k c _ rest _ _ hold hnew =>
      rw [ht.lookup_ledger hperm] at hold hnew
      exact hnew.trans (KeyedList.update_perm (hperm.symm.trans hold)).symm

/-- A run of contributions is entered in the table and in the ledger. -/
theorem AddedAll.enter {es : List (Option (FlowKey × Contribution))} (h : AddedAll w t es t') (ht : t.Inv w)
    (hperm : t.entries.Perm l) : t'.entries.Perm ((es.filterMap id).foldl Pcapstat.enter l) := by
  induction h generalizing l with
  | nil => exact hperm
  | @cons t t₁ t₂ e es hadd _ ih =>
      have hstep := ih hadd.inv (hadd.enter ht hperm)
      cases e with
      | none => exact hstep
      | some e => exact hstep

/-- The ledger of a table, ranked, is the ranking of the table. -/
theorem FlowTable.Inv.ranking_ranked (h : t.Inv w) (hperm : t.entries.Perm l) : Ranking t (ranked l) := by
  have hsort : (ranked l).Perm t.entries := (RankHeap.sort_perm l).trans hperm.symm
  have hnodup : (ranked l).Nodup := hsort.nodup_iff.mpr (List.Nodup.of_map _ h.nodup)
  refine ⟨hsort, ((RankHeap.pairwise_sort l).and hnodup).imp_of_mem ?_⟩
  rintro f g hf hg ⟨hle, hne⟩
  rcases Ordering.isLE_iff_eq_lt_or_eq_eq.mp hle with hlt | heq
  · exact rankCmp_lt_iff.mp hlt
  · exact absurd (h.eq_of_rankCmp (hsort.mem_iff.mp hf) (hsort.mem_iff.mp hg) heq) hne

end entries

/-! ### Reports -/

/-- What the program takes from a table for its reports is told from the ledger `l`. -/
structure Told (w : ℕ) (t : FlowTable) (l : List Flow) : Prop where
  count : t.count = l.length
  find : ∀ k, ∃ i, flowTableFind w t k = some i ∧ i.map t.slot = KeyedList.find Flow.key k l
  top : ∀ qsort n, (flowTableTopN t qsort n).map t.slot = (ranked l).take n
  csv : ∀ header line qsort, csvReport header line qsort t true = some (header ++ (ranked l).flatMap line)
  teids : ∀ qsort, flowTableDistinctTeids qsort t true = some (l.map fun f => f.key.teid).toFinset.card

theorem FlowTable.Inv.told {w : ℕ} {t : FlowTable} {l : List Flow} (h : t.Inv w) (hperm : t.entries.Perm l) :
    Told w t l := by
  have hranking := h.ranking_ranked hperm
  refine ⟨h.count.trans hperm.length_eq, ?_, ?_, ?_, ?_⟩
  · intro k
    obtain ⟨i, hcall, hslot⟩ := h.find k
    exact ⟨i, hcall, hslot.trans (h.lookup_ledger hperm k)⟩
  · intro qsort n
    exact (h.topN qsort n).first _ hranking
  · intro header line qsort
    rw [csvReport_eq, Ranking.unique h (h.reported qsort) hranking, List.flatten_cons, List.flatMap_def]
  · intro qsort
    have hteids : (t.iterate (t.capacity + 1) 0).map (fun i => (t.slot i).key.teid) =
        t.entries.map fun f => f.key.teid := by
      rw [← h.map_iterate, List.map_map]
      rfl
    have hsorted := qsort.perm teidCmp (t.entries.map fun f => f.key.teid)
    unfold flowTableDistinctTeids
    by_cases hcount : t.count = 0
    · have hnil : l = [] := by
        rw [← List.length_eq_zero_iff, ← hperm.length_eq, ← h.count, hcount]
      rw [if_pos hcount, hnil]
      rfl
    · rw [if_neg hcount, if_neg (by decide)]
      simp only [hteids]
      rw [countRuns_sorted (qsort.sorted teidCmp _),
        List.toFinset_eq_of_perm _ _ (hsorted.trans (hperm.map fun f => f.key.teid))]

/-! ### Runs -/

/-- The analysis of the frames `fs`, told from their ledger. -/
structure Entered (w : ℕ) (fs : List Frame) (a : Analysis) : Prop where
  inv : a.Inv w
  frags : a.frags = ⟨some ((fragScheme w).run (fun _ => {}) (fs.map Frame.pi))⟩
  stats : a.stats = (resolveAll w [] fs).foldl (fun st s => s.count st) statsInit
  flows : a.flows.entries.Perm (flowLedger (resolveAll w [] fs))
  tunnels : a.tunnels.entries.Perm (tunnelLedger (resolveAll w [] fs))

/-- **A run enters its frames.** -/
theorem AccountedAll.entered {w : ℕ} {a a' : Analysis} {fs : List Frame} (h : AccountedAll w a fs a')
    (ha : Fresh w a) : Entered w fs a' := by
  have hseen : seenAll w a.frags fs = resolveAll w [] fs := by
    rw [ha.frags]
    exact seenAll_eq_resolveAll fs []
  have hflows := h.flows.enter ha.inv.flows (List.Perm.of_eq ha.flows)
  have htunnels := h.tunnels.enter ha.inv.tunnels (List.Perm.of_eq ha.tunnels)
  rw [List.filterMap_map, hseen] at hflows htunnels
  refine ⟨h.inv ha.inv, ?_, ?_, hflows, htunnels⟩
  · rw [h.frags, ha.frags, fragCacheAll_some]
  · rw [h.stats, ha.stats, hseen]

/-- **The analysis of a capture is its ledger.** -/
theorem analysisRun_ledger {w : ℕ} {okFlows okTunnels okFrags : Bool} {ok : ℕ → Grants} {a a' : Analysis}
    {r r' : PcapReader} {st : PcapStatus} (hinit : analysisInit w okFlows okTunnels okFrags = some (some a))
    (hrun : analysisRun w ok a r = some (a', r', st)) (hst : st ≠ .errNomem) :
    ∃ recs ss, Delivers r recs st r' ∧ ss = resolveAll w [] (recs.map PcapRecord.frame) ∧
      a'.stats = ss.foldl (fun st s => s.count st) statsInit ∧
      Told w a'.flows (flowLedger ss) ∧ Told w a'.tunnels (tunnelLedger ss) := by
  have hfresh := Fresh.of_init hinit
  obtain ⟨a₁, r₁, st₁, hrun₁, hspec⟩ := analysisRun_spec hfresh.inv ok r
  rw [hrun, Option.some.injEq, Prod.mk.injEq, Prod.mk.injEq] at hrun₁
  obtain ⟨rfl, rfl, rfl⟩ := hrun₁
  obtain ⟨recs, hdel, hall⟩ := hspec hst
  have h := hall.entered hfresh
  exact ⟨recs, _, hdel, rfl, h.stats, h.inv.flows.told h.flows, h.inv.tunnels.told h.tunnels⟩

/-- A datagram in two fragments, and a G-PDU. -/
def fragmentTalk : PcapReader := capture
  [⟨5, 0, 42, fragmentBytes [0x20, 0] [0x03, 0xE8, 0x07, 0xD0, 0, 16, 0, 0], by decide⟩,
    ⟨6, 0, 42, fragmentBytes [0, 1] [0, 0, 0, 0, 0, 0, 0, 0], by decide⟩,
    ⟨7, 0, 70, gtpuDatagram ++ gpduMessage, gpdu_fits⟩]

/-- The second fragment is entered with the ports of the first. -/
theorem analysisRun_ledger_fragments : ∃ a a' r' recs ss, analysisInit 64 true true true = some (some a) ∧
    analysisRun 64 (fun _ => ⟨true, true⟩) a fragmentTalk = some (a', r', .eof) ∧
    Delivers fragmentTalk recs .eof r' ∧ ss = resolveAll 64 [] (recs.map PcapRecord.frame) ∧
    a'.stats = ss.foldl (fun st s => s.count st) statsInit ∧
    Told 64 a'.flows (flowLedger ss) ∧ Told 64 a'.tunnels (tunnelLedger ss) ∧
    ss.map Seen.matched = [false, true, false] ∧ (flowLedger ss).map Flow.packets = [2, 1] ∧
    (tunnelLedger ss).map Flow.packets = [1] := by
  have hdel₀ := @delivers_deliverAll 4 fragmentTalk .eof (by decide +kernel) (by decide)
  obtain ⟨a, a', hinit, hrun⟩ := exists_fewRecords (fun _ => ⟨true, true⟩) hdel₀ (by decide +kernel)
  obtain ⟨recs, ss, hdel, hss, hstats, hflows, htunnels⟩ := analysisRun_ledger hinit hrun PcapStatus.noConfusion
  obtain ⟨rfl, -, -⟩ := hdel₀.unique hdel
  refine ⟨a, a', _, _, ss, hinit, hrun, hdel, hss, hstats, hflows, htunnels, ?_, ?_, ?_⟩
  · rw [hss]
    decide +kernel
  · rw [hss]
    decide +kernel
  · rw [hss]
    decide +kernel

end Pcapstat
