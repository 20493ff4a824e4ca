import Pcapstat.OutOfMemory
import Pcapstat.RecordOrder
import Pcapstat.WholeCaptures

/-! # Captures in parts

A capture is often kept in several files.  What the analysis makes of the whole capture is told from what it
makes of its parts: counters and lengths are added, and the entries of a flow are merged (`mergeFlow`).

* The fragment cache is the only thing that carries over from one part to the next.  If no datagram is cut by the
  border between the parts, their packets are seen alike (`resolveAll_append`).
* The ledger of the whole is that of the merged entries (`analysisRun_split`), and so is every report. -/

namespace Pcapstat

/-! ### Entries -/

/-- The entry of a flow of which one part has `f`, and the part behind it `g`. -/
def mergeFlow (f g : Flow) : Flow :=
  { f with
    firstTsNs := if g.firstTsNs < f.firstTsNs then g.firstTsNs else f.firstTsNs
    firstFromB := if g.firstTsNs < f.firstTsNs then g.firstFromB else f.firstFromB
    lastTsNs := if g.lastTsNs > f.lastTsNs then g.lastTsNs else f.lastTsNs
    packets := f.packets + g.packets
    bytes := f.bytes + g.bytes
    tcpFlags := f.tcpFlags ||| g.tcpFlags }

/-- The entry of `k` after its first contribution. -/
def opened (k : FlowKey) (c : Contribution) : Flow :=
  { Flow.fresh k with
    firstTsNs := c.tsNs
    firstFromB := c.reversed
    lastTsNs := c.tsNs
    packets := 1
    bytes := c.wireLen.toUInt64
    tcpFlags := c.tcpFlags }

section entries

variable {l : List Flow}

theorem earliest_assoc {β : Type} (a b c : UInt64) (x y z : β) :
    (if c < (if b < a then b else a) then z else if b < a then y else x) =
      if (if c < b then c else b) < a then (if c < b then z else y) else x := by
  simp only [UInt64.lt_iff_toNat_lt]
  split_ifs <;> first | rfl | omega

theorem latest_assoc (a b c : UInt64) :
    (if c > (if b > a then b else a) then c else if b > a then b else a) =
      if (if c > b then c else b) > a then (if c > b then c else b) else a := by
  simp only [gt_iff_lt, UInt64.lt_iff_toNat_lt]
  split_ifs <;> first | rfl | omega

theorem merging_mergeFlow : KeyedList.Merging Flow.key mergeFlow where
  key_op _ _ := rfl
  assoc f g h := by
    unfold mergeFlow
    rw [Flow.mk.injEq]
    refine ⟨rfl, UInt8.or_assoc _ _ _, ?_, rfl, rfl, UInt64.add_assoc _ _ _, UInt64.add_assoc _ _ _, ?_, ?_⟩
    · exact earliest_assoc _ _ _ _ _ _
    · exact earliest_assoc _ _ _ _ _ _
    · exact latest_assoc _ _ _

theorem accounted_none (k : FlowKey) (c : Contribution) : accounted k c none = opened k c := by
  unfold accounted Flow.account opened
  simp only [if_pos, UInt64.lt_irrefl, gt_iff_lt, if_false, Flow.fresh, UInt64.zero_add, UInt8.zero_or]

theorem accounted_some (k : FlowKey) (c : Contribution) (f : Flow) :
    accounted k c (some f) = mergeFlow f (opened k c) := by
  unfold accounted Flow.account mergeFlow opened
  simp only [Bool.false_eq_true, if_false]
  split_ifs <;> rfl

theorem enter_eq_put (l : List Flow) (e : FlowKey × Contribution) :
    enter l e = KeyedList.put Flow.key mergeFlow l (opened e.1 e.2) := by
  have hstep : accounted e.1 e.2 = fun o => o.elim (opened e.1 e.2) fun f => mergeFlow f (opened e.1 e.2) := by
    funext o
    cases o with
    | none => exact accounted_none e.1 e.2
    | some f => exact accounted_some e.1 e.2 f
  unfold enter
  rw [hstep]
  rfl

/-- **A ledger collects what the contributions open.** -/
theorem ledger_eq_collect (es : List (FlowKey × Contribution)) :
    ledger es = KeyedList.collect Flow.key mergeFlow (es.map fun e => opened e.1 e.2) := by
  unfold ledger KeyedList.collect KeyedList.merge
  rw [List.foldl_map]
  simp only [← enter_eq_put]

theorem ledger_append (es es' : List (FlowKey × Contribution)) :
    ledger (es ++ es') = KeyedList.merge Flow.key mergeFlow (ledger es) (ledger es') := by
  rw [ledger_eq_collect, ledger_eq_collect, ledger_eq_collect, List.map_append,
    KeyedList.collect_append merging_mergeFlow]

end entries

/-! ### Fragments -/

/-- No packet of `qs` borrows the ports of one of `ps`. -/
def Apart (ps qs : List PacketInfo) : Prop :=
  ∀ p ∈ ps, ∀ q ∈ qs, recordsPorts p = true → asksPorts q = true → fragKey p ≠ fragKey q

section fragments

variable {w : ℕ} {ps qs : List PacketInfo} {fs gs : List Frame} {f : Frame}

theorem lender_append {q : PacketInfo} (h : Apart ps [q]) : lender w (ps ++ qs) q = lender w qs q := by
  unfold lender
  split
  · rename_i hasks
    unfold lastWriter
    rw [List.reverse_append, List.find?_append]
    cases hfind : qs.reverse.find? fun p => recordsPorts p && slotFor w p = slotFor w q with
    | some p => rfl
    | none =>
        -- nobody behind the border has written the slot, and whoever did before it has another key
        rw [Option.none_or]
        cases hfind' : ps.reverse.find? fun p => recordsPorts p && slotFor w p = slotFor w q with
        | none => rfl
        | some p =>
            have hmem := List.mem_reverse.mp (List.mem_of_find?_eq_some hfind')
            have hwrites := List.find?_some hfind'
            rw [Bool.and_eq_true] at hwrites
            have hkey := h p hmem q (List.mem_singleton_self q) hwrites.1 hasks
            rw [Option.filter_some, if_neg (by rwa [decide_eq_true_eq])]
            rfl
  · rfl

theorem resolve_append (h : Apart ps [f.pi]) : resolve w (ps ++ qs) f = resolve w qs f := by
  unfold resolve
  rw [lender_append h]

theorem resolveAll_apart (h : Apart ps (fs.map Frame.pi)) (qs : List PacketInfo) :
    resolveAll w (ps ++ qs) fs = resolveAll w qs fs := by
  induction fs generalizing qs with
  | nil => rfl
  | cons f fs ih =>
      have hhead : Apart ps [f.pi] := by
        intro p hp q hq
        exact h p hp q (List.mem_singleton.mp hq ▸ List.mem_cons_self)
      have htail : Apart ps (fs.map Frame.pi) := by
        intro p hp q hq
        exact h p hp q (List.mem_cons_of_mem _ hq)
      rw [resolveAll, resolveAll, resolve_append hhead, List.append_assoc, ih htail]

theorem resolveAll_behind (fs gs : List Frame) (ps : List PacketInfo) :
    resolveAll w ps (fs ++ gs) = resolveAll w ps fs ++ resolveAll w (ps ++ fs.map Frame.pi) gs := by
  induction fs generalizing ps with
  | nil => rw [List.map_nil, List.append_nil]; rfl
  | cons f fs ih =>
      rw [List.cons_append, resolveAll, ih, List.append_assoc, resolveAll]
      rfl

/-- The packets of parts that are apart are seen as in the whole. -/
theorem resolveAll_append (h : Apart (fs.map Frame.pi) (gs.map Frame.pi)) :
    resolveAll w [] (fs ++ gs) = resolveAll w [] fs ++ resolveAll w [] gs := by
  have hgs := resolveAll_apart (w := w) h []
  rw [List.append_nil] at hgs
  rw [resolveAll_behind, List.nil_append, hgs]

end fragments

/-! ### Counters -/

/-- The counters of some records. -/
def counted (ss : List Seen) : Stats := ss.foldl (fun st s => s.count st) statsInit

/-- `st` are the counters of a capture, of which one part has `a`, and the part behind it `b`. -/
structure Summed (a b st : Stats) : Prop where
  counters : ∀ c : Counter, c.get st = c.get a + c.get b
  wireBytes : st.wireBytes = a.wireBytes + b.wireBytes
  capturedBytes : st.capturedBytes = a.capturedBytes + b.capturedBytes

/-- The times of a capture, of which one part has the counters `a`, and the other one `b`. -/
structure Hull (a b st : Stats) : Prop where
  first : st.firstTsNs = if b.packets = 0 then a.firstTsNs else if a.packets = 0 then b.firstTsNs
    else if b.firstTsNs < a.firstTsNs then b.firstTsNs else a.firstTsNs
  last : st.lastTsNs = if b.packets = 0 then a.lastTsNs else if a.packets = 0 then b.lastTsNs
    else if b.lastTsNs > a.lastTsNs then b.lastTsNs else a.lastTsNs

section counters

variable {ps qs : List Seen}

theorem counted_sum (ps qs : List Seen) : Summed (counted ps) (counted qs) (counted (ps ++ qs)) := by
  have hsplit : counted (ps ++ qs) = qs.foldl (fun st s => s.count st) (counted ps) := List.foldl_append
  obtain ⟨hwire, hcap⟩ := bytes_foldl qs (counted ps)
  obtain ⟨hwire', hcap'⟩ := bytes_foldl qs statsInit
  rw [hsplit]
  refine ⟨?_, ?_, ?_⟩
  · intro c
    have hzero : c.get statsInit = 0 := by cases c <;> rfl
    have hqs : c.get (counted qs) = UInt64.ofNat (tally qs c) := by
      unfold counted
      rw [counter_foldl, hzero, UInt64.zero_add]
    rw [counter_foldl, hqs]
  · unfold counted at hwire ⊢
    rw [hwire, hwire']
    exact congrArg _ (UInt64.zero_add _).symm
  · unfold counted at hcap ⊢
    rw [hcap, hcap']
    exact congrArg _ (UInt64.zero_add _).symm

theorem counted_packets_eq_zero (hlen : ps.length < 2 ^ 64) : (counted ps).packets = 0 ↔ ps = [] := by
  have hpackets : (counted ps).packets = UInt64.ofNat ps.length := packets_foldl ps
  rw [hpackets, ← UInt64.toNat_inj, UInt64.toNat_ofNat_of_lt' hlen]
  exact List.length_eq_zero_iff

theorem least_both {a b : UInt64} (ha : (∀ s ∈ ps, a ≤ s.tsNs) ∧ ∃ s ∈ ps, s.tsNs = a)
    (hb : (∀ s ∈ qs, b ≤ s.tsNs) ∧ ∃ s ∈ qs, s.tsNs = b) :
    (∀ s ∈ ps ++ qs, (if b < a then b else a) ≤ s.tsNs) ∧
      ∃ s ∈ ps ++ qs, s.tsNs = if b < a then b else a := by
  obtain ⟨hle, p, hp, rfl⟩ := ha
  obtain ⟨hle', q, hq, rfl⟩ := hb
  rw [List.forall_mem_append]
  by_cases h : q.tsNs < p.tsNs
  · rw [if_pos h]
    exact ⟨⟨fun s hs => UInt64.le_trans (UInt64.le_of_lt h) (hle s hs), hle'⟩, q,
      List.mem_append_right _ hq, rfl⟩
  · rw [if_neg h]
    have hpq := UInt64.not_lt.mp h
    exact ⟨⟨hle, fun s hs => UInt64.le_trans hpq (hle' s hs)⟩, p, List.mem_append_left _ hp, rfl⟩

theorem greatest_both {a b : UInt64} (ha : (∀ s ∈ ps, s.tsNs ≤ a) ∧ ∃ s ∈ ps, s.tsNs = a)
    (hb : (∀ s ∈ qs, s.tsNs ≤ b) ∧ ∃ s ∈ qs, s.tsNs = b) :
    (∀ s ∈ ps ++ qs, s.tsNs ≤ if b > a then b else a) ∧
      ∃ s ∈ ps ++ qs, s.tsNs = if b > a then b else a := by
  obtain ⟨hle, p, hp, rfl⟩ := ha
  obtain ⟨hle', q, hq, rfl⟩ := hb
  rw [List.forall_mem_append]
  by_cases h : q.tsNs > p.tsNs
  · rw [if_pos h]
    exact ⟨⟨fun s hs => UInt64.le_trans (hle s hs) (UInt64.le_of_lt h), hle'⟩, q,
      List.mem_append_right _ hq, rfl⟩
  · rw [if_neg h]
    have hqp := UInt64.not_lt.mp h
    exact ⟨⟨hle, fun s hs => UInt64.le_trans (hle' s hs) hqp⟩, p, List.mem_append_left _ hp, rfl⟩

theorem counted_hull (hlen : (ps ++ qs).length < 2 ^ 64) : Hull (counted ps) (counted qs) (counted (ps ++ qs)) := by
  rw [List.length_append] at hlen
  have hps := @counted_packets_eq_zero ps (by omega)
  have hqs := @counted_packets_eq_zero qs (by omega)
  by_cases hq : qs = []
  · subst hq
    rw [List.append_nil]
    exact ⟨(if_pos rfl).symm, (if_pos rfl).symm⟩
  by_cases hp : ps = []
  · subst hp
    constructor
    · rw [if_neg (hqs.not.mpr hq), if_pos (hps.mpr rfl)]
      rfl
    · rw [if_neg (hqs.not.mpr hq), if_pos (hps.mpr rfl)]
      rfl
  have hne : ps ++ qs ≠ [] := List.append_ne_nil_of_left_ne_nil hp qs
  have hspan := spans_foldl (ps ++ qs) hne (by rw [List.length_append]; omega)
  have hspanps := spans_foldl ps hp (by omega)
  have hspanqs := spans_foldl qs hq (by omega)
  constructor
  · rw [if_neg (hqs.not.mpr hq), if_neg (hps.not.mpr hp)]
    exact least_unique (.refl _) (least_both hspanps.first hspanqs.first) hspan.first
  · rw [if_neg (hqs.not.mpr hq), if_neg (hps.not.mpr hp)]
    exact greatest_unique (.refl _) (greatest_both hspanps.last hspanqs.last) hspan.last

end counters

/-! ### Runs -/

/-- What the analysis of a capture of `n` records makes of it is told from its parts `a` and `b`. -/
structure Joined (w n : ℕ) (a b whole : Analysis) : Prop where
  stats : Summed a.stats b.stats whole.stats
  times : n < 2 ^ 64 → Hull a.stats b.stats whole.stats
  flow : ∀ k, whole.flows.lookup k = Option.merge mergeFlow (a.flows.lookup k) (b.flows.lookup k)
  tunnel : ∀ k, whole.tunnels.lookup k = Option.merge mergeFlow (a.tunnels.lookup k) (b.tunnels.lookup k)
  flows : Told w whole.flows (KeyedList.merge Flow.key mergeFlow a.flows.entries b.flows.entries)
  tunnels : Told w whole.tunnels (KeyedList.merge Flow.key mergeFlow a.tunnels.entries b.tunnels.entries)

section runs

variable {w : ℕ} {a b whole : Analysis} {fs gs hs : List Frame}

theorem Delivers.entered {r r' q : PcapReader} {recs : List PcapRecord} {st s : PcapStatus} {ok : ℕ → Grants}
    (hdel : Delivers r recs st r') (ha : Fresh w a) (hrun : analysisRun w ok a r = some (b, q, s))
    (hs : s ≠ .errNomem) : Entered w (recs.map PcapRecord.frame) b :=
  (AccountedAll.of_run ha.inv (accountAll_of_analysisLoop hdel hrun hs)).entered ha

theorem sameFrame_of_content {rec rec' : PcapRecord} (h : rec.content = rec'.content) :
    SameFrame rec.frame rec'.frame := by
  have hwhole : rec.frame.whole = rec'.frame.whole := by
    rw [← rec.whole_content, ← rec'.whole_content, h]
  exact ⟨congrArg Seen.pi hwhole, congrArg Seen.caplen hwhole, congrArg Seen.wirelen hwhole,
    congrArg Seen.tsNs hwhole⟩

theorem sameFrames_of_contents : ∀ {recs recs' : List PcapRecord},
    recs.map PcapRecord.content = recs'.map PcapRecord.content →
      List.Forall₂ SameFrame (recs.map PcapRecord.frame) (recs'.map PcapRecord.frame)
  | [], [], _ => .nil
  | rec :: recs, rec' :: recs', h => by
      rw [List.map_cons, List.map_cons, List.cons.injEq] at h
      exact .cons (sameFrame_of_content h.1) (sameFrames_of_contents h.2)

theorem merged_entries {t u v : FlowTable} {l m : List Flow} (ht : t.Inv w) (hu : u.Inv w)
    (htl : t.entries.Perm l) (hum : u.entries.Perm m)
    (hvlm : v.entries.Perm (KeyedList.merge Flow.key mergeFlow l m)) :
    v.entries.Perm (KeyedList.merge Flow.key mergeFlow t.entries u.entries) :=
  hvlm.trans (KeyedList.merge_perm merging_mergeFlow htl hum ht.nodup hu.nodup).symm

theorem Entered.join (ha : Entered w fs a) (hb : Entered w gs b) (hwhole : Entered w hs whole)
    (hsame : List.Forall₂ SameFrame hs (fs ++ gs)) (hapart : Apart (fs.map Frame.pi) (gs.map Frame.pi)) :
    Joined w hs.length a b whole := by
  have hseen : resolveAll w [] hs = resolveAll w [] fs ++ resolveAll w [] gs := by
    rw [resolveAll_congr hsame, resolveAll_append hapart]
  have hlen : (resolveAll w [] fs ++ resolveAll w [] gs).length = hs.length := by
    rw [← hseen, length_resolveAll]
  have hflows := hwhole.flows
  have htunnels := hwhole.tunnels
  have hstats := hwhole.stats
  unfold flowLedger at hflows
  unfold tunnelLedger at htunnels
  rw [hseen, List.filterMap_append, ledger_append] at hflows htunnels
  rw [hseen] at hstats
  have hmerged := merged_entries ha.inv.flows hb.inv.flows ha.flows hb.flows hflows
  have hmerged' := merged_entries ha.inv.tunnels hb.inv.tunnels ha.tunnels hb.tunnels htunnels
  refine ⟨?_, ?_, ?_, ?_, hwhole.inv.flows.told hmerged, hwhole.inv.tunnels.told hmerged'⟩
  · rw [ha.stats, hb.stats, hstats]
    exact counted_sum _ _
  · intro hn
    rw [ha.stats, hb.stats, hstats]
    exact counted_hull (hlen ▸ hn)
  · intro k
    rw [hwhole.inv.flows.lookup_ledger hmerged]
    exact KeyedList.find_merge merging_mergeFlow hb.inv.flows.nodup k _
  · intro k
    rw [hwhole.inv.tunnels.lookup_ledger hmerged']
    exact KeyedList.find_merge merging_mergeFlow hb.inv.tunnels.nodup k _

end runs

/-- **A capture is analysed in parts.** -/
theorem analysisRun_split {w : ℕ} {okFlows okTunnels okFrags : Bool} {a₀ : Analysis}
    (hinit : analysisInit w okFlows okTunnels okFrags = some (some a₀)) {r₁ r₂ r e₁ e₂ e : PcapReader}
    {recs₁ recs₂ recs : List PcapRecord} {st₁ st₂ st : PcapStatus} (hdel₁ : Delivers r₁ recs₁ st₁ e₁)
    (hdel₂ : Delivers r₂ recs₂ st₂ e₂) (hdel : Delivers r recs st e)
    (hparts : recs.map PcapRecord.content = (recs₁ ++ recs₂).map PcapRecord.content)
    (hapart : Apart (recs₁.map PcapRecord.decode) (recs₂.map PcapRecord.decode)) {ok₁ ok₂ ok : ℕ → Grants}
    {a₁ a₂ a : Analysis} {q₁ q₂ q : PcapReader} {s₁ s₂ s : PcapStatus}
    (hrun₁ : analysisRun w ok₁ a₀ r₁ = some (a₁, q₁, s₁)) (hs₁ : s₁ ≠ .errNomem)
    (hrun₂ : analysisRun w ok₂ a₀ r₂ = some (a₂, q₂, s₂)) (hs₂ : s₂ ≠ .errNomem)
    (hrun : analysisRun w ok a₀ r = some (a, q, s)) (hs : s ≠ .errNomem) :
    Joined w recs.length a₁ a₂ a := by
  have hfresh := Fresh.of_init hinit
  have h₁ := hdel₁.entered hfresh hrun₁ hs₁
  have h₂ := hdel₂.entered hfresh hrun₂ hs₂
  have h := hdel.entered hfresh hrun hs
  have hsame := sameFrames_of_contents hparts
  rw [List.map_append] at hsame
  have hjoin := h₁.join h₂ h hsame (by rw [List.map_map, List.map_map]; exact hapart)
  rwa [List.length_map] at hjoin

/-- A G-PDU of one and the same tunnel. -/
def gpduRecord (sec : UInt32) : RawRecord := ⟨sec, 0, 70, gtpuDatagram ++ gpduMessage, gpdu_fits⟩

/-- A tunnel with a G-PDU in each of the parts. -/
theorem analysisRun_split_tunnel : ∃ a₀ a₁ a₂ a q₁ q₂ q,
    analysisInit 64 true true true = some (some a₀) ∧
    analysisRun 64 (fun _ => ⟨true, true⟩) a₀ (capture [plainRecord, gpduRecord 6]) = some (a₁, q₁, .eof) ∧
    analysisRun 64 (fun _ => ⟨true, true⟩) a₀ (capture [gpduRecord 7]) = some (a₂, q₂, .eof) ∧
    analysisRun 64 (fun _ => ⟨true, true⟩) a₀ (capture [plainRecord, gpduRecord 6, gpduRecord 7]) =
      some (a, q, .eof) ∧
    Joined 64 3 a₁ a₂ a ∧ (a₁.flows.count, a₂.flows.count, a.flows.count) = (2, 1, 2) ∧
    a₁.tunnels.entries.map Flow.packets = [1] ∧ a₂.tunnels.entries.map Flow.packets = [1] ∧
    a.tunnels.entries.map Flow.packets = [2] := by
  obtain ⟨a₀, hinit⟩ := exists_init
  have hview := fun raws b => analysisRun_ends (fun _ => ⟨true, true⟩) (capture raws)
    (fun a => (a.flows.count, a.tunnels.entries.map Flow.packets)) .eof b hinit
  obtain ⟨a₁, q₁, hrun₁, hview₁⟩ := hview [plainRecord, gpduRecord 6] (2, [1]) (by decide +kernel)
  obtain ⟨a₂, q₂, hrun₂, hview₂⟩ := hview [gpduRecord 7] (1, [1]) (by decide +kernel)
  obtain ⟨a, q, hrun, hview₃⟩ := hview [plainRecord, gpduRecord 6, gpduRecord 7] (2, [2]) (by decide +kernel)
  have hdel := fun raws => @delivers_deliverAll 4 (capture raws) .eof
  have hdel₁ := hdel [plainRecord, gpduRecord 6] (by decide +kernel) (by decide)
  have hdel₂ := hdel [gpduRecord 7] (by decide +kernel) (by decide)
  have hdel := hdel [plainRecord, gpduRecord 6, gpduRecord 7] (by decide +kernel) (by decide)
  have hjoined := analysisRun_split hinit hdel₁ hdel₂ hdel (by decide +kernel) (by unfold Apart; decide +kernel)
    hrun₁ PcapStatus.noConfusion hrun₂ PcapStatus.noConfusion hrun PcapStatus.noConfusion
  have hlen : (deliverAll 4 (capture [plainRecord, gpduRecord 6, gpduRecord 7])).1.length = 3 := by decide +kernel
  rw [hlen] at hjoined
  rw [Prod.mk.injEq] at hview₁ hview₂ hview₃
  exact ⟨a₀, a₁, a₂, a, q₁, q₂, q, hinit, hrun₁, hrun₂, hrun, hjoined,
    by rw [hview₁.1, hview₂.1, hview₃.1], hview₁.2, hview₂.2, hview₃.2⟩

end Pcapstat
