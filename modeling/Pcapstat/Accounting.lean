import Pcapstat.Run

/-! # Whole-run accounting

After a run of `analysis_account` the table of flows holds exactly the totals of the records of
each flow, and the table of tunnels exactly those of each tunnel.

`Totals` says what an entry is of a list of records.  One contribution keeps it
(`Totals.first`, `Totals.next`); so a whole run does (`AddedAll.exact`). -/

namespace Pcapstat

open LinearProbe

/-! ### What a run is expected to leave behind -/

/-- Is the packet accounted to the flow `K`? -/
def onFlow (K : FlowKey) (s : Seen) : Bool :=
  s.pi.status = .ok && s.pi.hasL3 && (flowKeyFromPacket s.pi).map Prod.fst = some K

/-- The key of a tunnel: outer source and destination, TEID and IP version. -/
def tunnelKey (pi : PacketInfo) : FlowKey :=
  { teid := pi.teid, ipVersion := pi.ipVersion, proto := ipprotoUdp, addrA := pi.srcAddr
    addrB := pi.dstAddr }

/-- Is the packet accounted to the tunnel `K`? -/
def onTunnel (K : FlowKey) (s : Seen) : Bool :=
  s.pi.isGtpu && s.pi.gtpV1u && s.pi.gtpMsgType = gtpuMsgGpdu && s.pi.gtpMsgOk && tunnelKey s.pi = K

/-- The flags of a TCP packet. -/
def flagsSeen (s : Seen) : UInt8 :=
  if s.pi.ipProto = ipprotoTcp && s.pi.hasL4 then s.pi.tcpFlags else 0

/-- `f` holds the totals of the records `ps`, which travel in direction `dir` and carry `flags`. -/
structure Totals (dir : Seen → Bool) (flags : Seen → UInt8) (ps : List Seen) (f : Flow) : Prop where
  packets : f.packets = UInt64.ofNat ps.length
  bytes : f.bytes = UInt64.ofNat (ps.map fun s => s.wirelen.toNat).sum
  tcpFlags : f.tcpFlags = (ps.map flags).foldl (· ||| ·) 0
  last : (∀ s ∈ ps, s.tsNs ≤ f.lastTsNs) ∧ ∃ s ∈ ps, s.tsNs = f.lastTsNs
  /-- the earliest record, the first of them in file order -/
  first : (∀ s ∈ ps, f.firstTsNs ≤ s.tsNs) ∧ ∃ before s after, ps = before ++ s :: after ∧
    s.tsNs = f.firstTsNs ∧ dir s = f.firstFromB ∧ ∀ q ∈ before, f.firstTsNs < q.tsNs

/-- The entries of `t` are the totals of the records `ps`, grouped by `on`. -/
structure Accounts (on : FlowKey → Seen → Bool) (dir : Seen → Bool) (flags : Seen → UInt8)
    (ps : List Seen) (t : FlowTable) : Prop where
  nodup : (t.entries.map Flow.key).Nodup
  holds : ∀ K, (∃ f ∈ t.entries, f.key = K) ↔ ∃ s ∈ ps, on K s = true
  totals : ∀ f ∈ t.entries, Totals dir flags (ps.filter (on f.key)) f

/-! ### One contribution -/

section step

variable {dir : Seen → Bool} {flags : Seen → UInt8} {ps : List Seen} {f : Flow} {K : FlowKey}

/-- What a record contributes. -/
def Seen.contribution (dir : Seen → Bool) (flags : Seen → UInt8) (s : Seen) : Contribution :=
  ⟨dir s, flags s, s.wirelen, s.tsNs⟩

theorem Flow.account_times (f : Flow) (rev : Bool) (fl : UInt8) (len : UInt32) (ts : UInt64) :
    (f.account false rev fl len ts).lastTsNs = (if ts > f.lastTsNs then ts else f.lastTsNs) ∧
      (f.account false rev fl len ts).firstTsNs = (if ts < f.firstTsNs then ts else f.firstTsNs) ∧
      (f.account false rev fl len ts).firstFromB = if ts < f.firstTsNs then rev else f.firstFromB := by
  simp only [Flow.account, Bool.false_eq_true, if_false]
  split_ifs <;> exact ⟨rfl, rfl, rfl⟩

theorem Flow.account_times_new (f : Flow) (rev : Bool) (fl : UInt8) (len : UInt32) (ts : UInt64) :
    (f.account true rev fl len ts).lastTsNs = ts ∧ (f.account true rev fl len ts).firstTsNs = ts ∧
      (f.account true rev fl len ts).firstFromB = rev := by
  simp only [Flow.account, if_true, gt_iff_lt, UInt64.lt_irrefl, if_false, and_self]

theorem ofNat_wirelen (len : UInt32) : UInt64.ofNat len.toNat = len.toUInt64 :=
  UInt64.ofNat_uInt32ToNat _

theorem Totals.one (K : FlowKey) (s : Seen) :
    Totals dir flags [s] (accounted K (s.contribution dir flags) none) := by
  obtain ⟨hpackets, hbytes, hflags⟩ :=
    (Flow.fresh K).account_sums true (dir s) (flags s) s.wirelen s.tsNs
  obtain ⟨hlast, hfirst, hdir⟩ :=
    (Flow.fresh K).account_times_new (dir s) (flags s) s.wirelen s.tsNs
  rw [Seen.contribution, accounted]
  generalize (Flow.fresh K).account true (dir s) (flags s) s.wirelen s.tsNs = g at *
  refine ⟨?_, ?_, ?_, ?_, ?_⟩
  · rw [hpackets]
    rfl
  · rw [hbytes, List.map_singleton, List.sum_singleton, ofNat_wirelen]
    exact UInt64.zero_add _
  · rw [hflags]
    rfl
  · refine ⟨?_, s, List.mem_singleton_self s, hlast.symm⟩
    rw [List.forall_mem_singleton, hlast]
    exact UInt64.le_refl _
  · refine ⟨?_, [], s, [], rfl, hfirst.symm, hdir.symm, ?_⟩
    · rw [List.forall_mem_singleton, hfirst]
      exact UInt64.le_refl _
    · intro q hq
      exact absurd hq List.not_mem_nil

theorem least_append {a : UInt64} (h : (∀ s ∈ ps, a ≤ s.tsNs) ∧ ∃ s ∈ ps, s.tsNs = a) (s : Seen) :
    (∀ q ∈ ps ++ [s], (if s.tsNs < a then s.tsNs else a) ≤ q.tsNs) ∧
      ∃ q ∈ ps ++ [s], q.tsNs = if s.tsNs < a then s.tsNs else a := by
  obtain ⟨hle, q, hq, hqts⟩ := h
  rw [List.forall_mem_append, List.forall_mem_singleton]
  by_cases hlt : s.tsNs < a
  · rw [if_pos hlt]
    refine ⟨⟨?_, UInt64.le_refl _⟩, s, List.mem_append_right _ (List.mem_singleton_self s), rfl⟩
    intro r hr
    exact UInt64.le_trans (UInt64.le_of_lt hlt) (hle r hr)
  · rw [if_neg hlt]
    exact ⟨⟨hle, UInt64.not_lt.mp hlt⟩, q, List.mem_append_left _ hq, hqts⟩

theorem greatest_append {a : UInt64} (h : (∀ s ∈ ps, s.tsNs ≤ a) ∧ ∃ s ∈ ps, s.tsNs = a) (s : Seen) :
    (∀ q ∈ ps ++ [s], q.tsNs ≤ if s.tsNs > a then s.tsNs else a) ∧
      ∃ q ∈ ps ++ [s], q.tsNs = if s.tsNs > a then s.tsNs else a := by
  obtain ⟨hle, q, hq, hqts⟩ := h
  rw [List.forall_mem_append, List.forall_mem_singleton]
  by_cases hgt : s.tsNs > a
  · rw [if_pos hgt]
    refine ⟨⟨?_, UInt64.le_refl _⟩, s, List.mem_append_right _ (List.mem_singleton_self s), rfl⟩
    intro r hr
    exact UInt64.le_trans (hle r hr) (UInt64.le_of_lt hgt)
  · rw [if_neg hgt]
    exact ⟨⟨hle, UInt64.not_lt.mp hgt⟩, q, List.mem_append_left _ hq, hqts⟩

/-- An entry that is updated holds the totals of one record more. -/
theorem Totals.append (h : Totals dir flags ps f) (K : FlowKey) (s : Seen) :
    Totals dir flags (ps ++ [s]) (accounted K (s.contribution dir flags) (some f)) := by
  obtain ⟨hpackets, hbytes, hflags⟩ := f.account_sums false (dir s) (flags s) s.wirelen s.tsNs
  obtain ⟨hlast, hfirst, hdir⟩ := f.account_times (dir s) (flags s) s.wirelen s.tsNs
  rw [Seen.contribution, accounted]
  generalize f.account false (dir s) (flags s) s.wirelen s.tsNs = g at *
  refine ⟨?_, ?_, ?_, ?_, ?_⟩
  · rw [hpackets, h.packets, List.length_append, List.length_singleton, UInt64.ofNat_add]
    rfl
  · rw [hbytes, h.bytes, List.map_append, List.sum_append, List.map_singleton, List.sum_singleton,
      UInt64.ofNat_add]
    rw [ofNat_wirelen]
  · rw [hflags, h.tcpFlags, List.map_append, List.foldl_append]
    rfl
  · rw [hlast]
    exact greatest_append h.last s
  · rw [hfirst, hdir]
    obtain ⟨hle, before, q, after, hps, hqts, hqdir, hbefore⟩ := h.first
    have hq : q ∈ ps := by
      rw [hps]
      exact List.mem_append_right _ List.mem_cons_self
    refine ⟨(least_append ⟨hle, q, hq, hqts⟩ s).1, ?_⟩
    by_cases hlt : s.tsNs < f.firstTsNs
    · rw [if_pos hlt, if_pos hlt]
      refine ⟨ps, s, [], rfl, rfl, rfl, ?_⟩
      intro r hr
      exact UInt64.lt_of_lt_of_le hlt (hle r hr)
    · rw [if_neg hlt, if_neg hlt]
      refine ⟨before, q, after ++ [s], ?_, hqts, hqdir, hbefore⟩
      rw [hps, List.append_assoc, List.cons_append]

end step

/-! ### Whole runs -/

/-- The map that `t` stands for holds the totals of the records `ps`. -/
structure Exact (on : FlowKey → Seen → Bool) (dir : Seen → Bool) (flags : Seen → UInt8)
    (ps : List Seen) (t : FlowTable) : Prop where
  absent : ∀ K, t.lookup K = none ↔ ps.filter (on K) = []
  totals : ∀ K f, t.lookup K = some f → Totals dir flags (ps.filter (on K)) f

/-- A record is added to the entry it belongs to, if there is one. -/
structure Grouped (on : FlowKey → Seen → Bool) (dir : Seen → Bool) (flags : Seen → UInt8) (s : Seen)
    (e : Option (FlowKey × Contribution)) : Prop where
  quiet : e = none → ∀ K, on K s = false
  counted : ∀ k c, e = some (k, c) → c = s.contribution dir flags ∧ ∀ K, on K s = decide (K = k)

theorem Grouped.of_none {on : FlowKey → Seen → Bool} {dir : Seen → Bool} {flags : Seen → UInt8}
    {s : Seen} (h : ∀ K, on K s = false) : Grouped on dir flags s none where
  quiet _ := h
  counted k c hkc := absurd hkc.symm (Option.some_ne_none (k, c))

theorem Grouped.of_some {on : FlowKey → Seen → Bool} {dir : Seen → Bool} {flags : Seen → UInt8}
    {s : Seen} {k : FlowKey} (h : ∀ K, on K s = decide (K = k)) :
    Grouped on dir flags s (some (k, s.contribution dir flags)) where
  quiet hnone := absurd hnone (Option.some_ne_none _)
  counted k' c hkc := by
    rw [Option.some.injEq, Prod.mk.injEq] at hkc
    obtain ⟨rfl, rfl⟩ := hkc
    exact ⟨rfl, h⟩

section run

variable {w : ℕ} {on : FlowKey → Seen → Bool} {dir : Seen → Bool} {flags : Seen → UInt8}
  {ps : List Seen} {t t' : FlowTable}

theorem Exact.step (h : Exact on dir flags ps t) {s : Seen} {e : Option (FlowKey × Contribution)}
    (hs : Grouped on dir flags s e) (ha : Added w t e t' true) : Exact on dir flags (ps ++ [s]) t' := by
  cases ha with
  | skip _ =>
      have hsame : ∀ K, (ps ++ [s]).filter (on K) = ps.filter (on K) := by
        intro K
        rw [List.filter_append, List.filter_cons_of_neg (by simp [hs.quiet rfl K]), List.filter_nil,
          List.append_nil]
      constructor
      · intro K
        rw [hsame, h.absent]
      · intro K f hf
        rw [hsame]
        exact h.totals K f hf
  | @done k c _ _ _ hlookup _ _ =>
      obtain ⟨rfl, hon⟩ := hs.counted k c rfl
      have hsame : ∀ K, K ≠ k → (ps ++ [s]).filter (on K) = ps.filter (on K) := by
        intro K hK
        rw [List.filter_append, List.filter_cons_of_neg (by simp [hon, hK]), List.filter_nil,
          List.append_nil]
      have hgrown : (ps ++ [s]).filter (on k) = ps.filter (on k) ++ [s] := by
        rw [List.filter_append, List.filter_cons_of_pos (by simp [hon]), List.filter_nil]
      constructor
      · intro K
        rw [hlookup]
        by_cases hK : K = k
        · subst hK
          simp [hgrown]
        · rw [if_neg hK, hsame K hK, h.absent]
      · intro K f hf
        rw [hlookup] at hf
        by_cases hK : K = k
        · subst hK
          rw [if_pos rfl, Option.some.injEq] at hf
          rw [hgrown, ← hf]
          cases hold : t.lookup K with
          | none =>
              rw [(h.absent K).mp hold]
              exact Totals.one K s
          | some f₀ => exact (h.totals K f₀ hold).append K s
        · rw [if_neg hK] at hf
          rw [hsame K hK]
          exact h.totals K f hf

theorem Exact.run {event : Seen → Option (FlowKey × Contribution)} : ∀ {qs : List Seen} {ps : List Seen}
    {t : FlowTable}, Exact on dir flags ps t → (∀ s ∈ qs, Grouped on dir flags s (event s)) →
      AddedAll w t (qs.map event) t' → Exact on dir flags (ps ++ qs) t'
  | [], ps, t, h, _, hrun => by
      cases hrun with
      | nil => rwa [List.append_nil]
  | s :: qs, ps, t, h, hgroup, hrun => by
      cases hrun with
      | cons hadd hrest =>
          have hstep := h.step (hgroup s List.mem_cons_self) hadd
          have hall := hstep.run (fun q hq => hgroup q (List.mem_cons_of_mem _ hq)) hrest
          rwa [List.append_assoc] at hall

theorem Exact.accounts (h : Exact on dir flags ps t) (ht : t.Inv w) : Accounts on dir flags ps t where
  nodup := ht.nodup
  holds K := by
    have hiff : (∃ f ∈ t.entries, f.key = K) ↔ t.lookup K ≠ none := by
      rw [Option.ne_none_iff_exists']
      exact exists_congr fun f => (Scheme.lookup_eq_some ht.nodup).symm
    rw [hiff, ne_eq, h.absent, List.filter_eq_nil_iff]
    simp only [not_forall, not_not, exists_prop]
  totals f hf := h.totals f.key f ((Scheme.lookup_eq_some ht.nodup).mpr ⟨hf, rfl⟩)

theorem AddedAll.inv {es : List (Option (FlowKey × Contribution))} (ht : t.Inv w)
    (h : AddedAll w t es t') : t'.Inv w := by
  induction h with
  | nil => exact ht
  | cons hadd _ ih => exact ih hadd.inv

theorem Exact.empty (ht : t.entries = []) : Exact on dir flags [] t where
  absent K := by
    refine ⟨fun _ => rfl, fun _ => Scheme.lookup_eq_none.mpr ?_⟩
    rw [show flowScheme.entries t.slots = [] from ht]
    exact List.not_mem_nil
  totals K f hf := by
    have hmem : f ∈ t.entries := List.mem_of_find?_eq_some hf
    rw [ht] at hmem
    exact absurd hmem List.not_mem_nil

end run

/-! ### The rules of the two tables -/

theorem grouped_flow (s : Seen) : Grouped onFlow (fun s => fromB s.pi) flagsSeen s s.flowEvent := by
  by_cases hst : s.pi.status = .ok
  · cases hl3 : s.pi.hasL3 with
    | false =>
        have hkey : flowKeyFromPacket s.pi = none := by
          rw [flowKeyFromPacket, hl3]
          rfl
        have he : s.flowEvent = none := by rw [Seen.flowEvent, if_neg (not_not.mpr hst), hkey, Option.map_none]
        rw [he]
        exact .of_none fun K => by simp [onFlow, hkey]
    | true =>
        obtain ⟨k, hkey⟩ : ∃ k, flowKeyFromPacket s.pi = some (k, fromB s.pi) := by
          rw [flowKeyFromPacket, hl3]
          cases hb : fromB s.pi with
          | false => exact ⟨_, rfl⟩
          | true => exact ⟨_, rfl⟩
        have he : s.flowEvent = some (k, s.contribution (fun s => fromB s.pi) flagsSeen) := by
          rw [Seen.flowEvent, if_neg (not_not.mpr hst), hkey, Option.map_some]
          rfl
        rw [he]
        refine .of_some fun K => ?_
        simp [onFlow, hst, hl3, hkey, eq_comm]
  · rw [Seen.flowEvent, if_pos hst]
    exact .of_none fun K => by simp [onFlow, hst]

theorem onTunnel_eq (K : FlowKey) (s : Seen) :
    onTunnel K s = (joinsTunnel s.pi && decide (tunnelKey s.pi = K)) := by
  rw [onTunnel, joinsTunnel]
  ac_rfl

theorem grouped_tunnel {s : Seen} (hs : s.Decoded) :
    Grouped onTunnel (fun _ => false) (fun _ => 0) s s.tunnelEvent := by
  cases hjoins : joinsTunnel s.pi with
  | false =>
      have he : s.tunnelEvent = none := by
        rw [Seen.tunnelEvent, hjoins]
        exact ite_self none
      rw [he]
      exact .of_none fun K => by rw [onTunnel_eq, hjoins, Bool.false_and]
  | true =>
      have hj := hjoins
      simp only [joinsTunnel, Bool.and_eq_true] at hj
      have htun := hs.gtpu.tunnelled hj.1.1.1
      have hkey : tunnelKeyFromPacket s.pi = some (tunnelKey s.pi) := by
        rw [tunnelKeyFromPacket, hj.1.1.1, hj.1.1.2, htun.proto]
        rfl
      have he : s.tunnelEvent = some (tunnelKey s.pi, s.contribution (fun _ => false) fun _ => 0) := by
        rw [Seen.tunnelEvent, if_neg (not_not.mpr htun.status), hjoins, hkey]
        rfl
      rw [he]
      refine .of_some fun K => ?_
      rw [onTunnel_eq, hjoins, Bool.true_and, decide_eq_decide, eq_comm]

/-! ### Packets of no flow -/

section quiet

variable {w : ℕ} {a a' : Analysis} {f : Frame} {ok : Grants} {b : Bool}

theorem flowEvent_none {s : Seen} (h : ∀ K, onFlow K s = false) (hst : s.pi.status = .ok) :
    flowKeyFromPacket s.pi = none := by
  cases hkey : flowKeyFromPacket s.pi with
  | none => rfl
  | some kr =>
      have hl3 : s.pi.hasL3 = true := by
        by_contra hno
        rw [flowKeyFromPacket, if_pos (by simp [hno])] at hkey
        exact Option.some_ne_none kr hkey.symm
      have hno := h kr.1
      rw [onFlow, hst, hl3, hkey] at hno
      simp at hno

theorem tunnelEvent_none {s : Seen} (h : ∀ K, onTunnel K s = false) : joinsTunnel s.pi = false := by
  have hno := h (tunnelKey s.pi)
  rwa [onTunnel_eq, decide_eq_true rfl, Bool.and_true] at hno

/-- A packet of no flow and no tunnel leaves the tables as they are. -/
theorem analysisAccount_quiet
    (h : analysisAccount w a f.pi f.caplen f.wirelen f.tsNs ok = some (a', b)) :
    ((∀ K, onFlow K (seen w a.frags f) = false) → a'.flows = a.flows) ∧
      ((∀ K, onTunnel K (seen w a.frags f) = false) → a'.tunnels = a.tunnels) := by
  have hpi : (seen w a.frags f).pi = (fragCacheApply w a.frags f.pi).2.1 := rfl
  rcases hq : fragCacheApply w a.frags f.pi with ⟨c, pi, matched⟩
  rw [hq] at hpi
  rw [analysisAccount, hq] at h
  dsimp only at h hpi
  by_cases hst : pi.status = .ok
  swap
  · rw [if_pos hst, Option.some.injEq, Prod.mk.injEq] at h
    obtain ⟨rfl, -⟩ := h
    exact ⟨fun _ => rfl, fun _ => rfl⟩
  rw [if_neg (not_not.mpr hst), Option.bind_eq_bind] at h
  obtain ⟨⟨t, added⟩, hflow, h⟩ := Option.bind_eq_some_iff.mp h
  have hflows : (∀ K, onFlow K (seen w a.frags f) = false) → t = a.flows := by
    intro hno
    have hkey := flowEvent_none hno (hpi ▸ hst)
    rw [hpi] at hkey
    rw [flowTableAddPacket, hkey, Option.some.injEq, Prod.mk.injEq] at hflow
    exact hflow.1.symm
  dsimp only at h
  by_cases hadd : (!added) = true
  · rw [if_pos hadd, Option.some.injEq, Prod.mk.injEq] at h
    obtain ⟨rfl, -⟩ := h
    exact ⟨hflows, fun _ => rfl⟩
  rw [if_neg hadd] at h
  by_cases hjoins : joinsTunnel pi = true
  · rw [if_pos hjoins] at h
    obtain ⟨⟨t', added'⟩, -, h⟩ := Option.bind_eq_some_iff.mp h
    rw [Option.some.injEq, Prod.mk.injEq] at h
    obtain ⟨rfl, -⟩ := h
    refine ⟨hflows, fun hno => ?_⟩
    have hj := tunnelEvent_none hno
    rw [hpi] at hj
    exact absurd (hj.symm.trans hjoins) Bool.false_ne_true
  · rw [if_neg hjoins, Option.some.injEq, Prod.mk.injEq] at h
    obtain ⟨rfl, -⟩ := h
    exact ⟨hflows, fun _ => rfl⟩

end quiet

/-! ### The theorem -/

/-- **Whole-run accounting is exact.** -/
theorem analysis_accounting {w : ℕ} {okFlows okTunnels okFrags : Bool} {a a' : Analysis}
    (hinit : analysisInit w okFlows okTunnels okFrags = some (some a)) {ok : ℕ → Grants} {i : ℕ}
    {fs : List Frame} (hrun : accountAll w ok i a fs = some (a', true)) :
    Accounts onFlow (fun s => fromB s.pi) flagsSeen (seenAll w a.frags fs) a'.flows ∧
      Accounts onTunnel (fun _ => false) (fun _ => 0) (seenAll w a.frags fs) a'.tunnels ∧
      ∀ (b b' : Analysis) (f : Frame) (g : Grants) (added : Bool),
        analysisAccount w b f.pi f.caplen f.wirelen f.tsNs g = some (b', added) →
          ((∀ K, onFlow K (seen w b.frags f) = false) → b'.flows = b.flows) ∧
            ((∀ K, onTunnel K (seen w b.frags f) = false) → b'.tunnels = b.tunnels) := by
  have ha := Fresh.of_init hinit
  have hall := AccountedAll.of_run ha.inv hrun
  have hflows := (Exact.empty ha.flows).run (fun s _ => grouped_flow s) hall.flows
  have htunnels := (Exact.empty ha.tunnels).run (fun s hs => grouped_tunnel (seenAll_decoded s hs))
    hall.tunnels
  refine ⟨hflows.accounts (hall.flows.inv ha.inv.flows), htunnels.accounts (hall.tunnels.inv ha.inv.tunnels),
    fun b b' f g added h => analysisAccount_quiet h⟩

/-- Two G-PDUs of a tunnel, and one of the answering tunnel that was sent before them. -/
def conversation : List Frame :=
  [wholeFrame (gtpuDatagram ++ gpduMessage) 5, wholeFrame (gtpuDatagram ++ gpduMessage) 9,
    wholeFrame (datagramBetween 2 1 ++ gpduMessage) 3]

/-- What an entry counts. -/
structure Sums where
  packets : UInt64
  bytes : UInt64
  firstTsNs : UInt64
  lastTsNs : UInt64
  firstFromB : Bool
deriving DecidableEq, Repr

def Flow.sums (f : Flow) : Sums := ⟨f.packets, f.bytes, f.firstTsNs, f.lastTsNs, f.firstFromB⟩

theorem analysis_accounting_conversation : ∃ a a', analysisInit 64 true true true = some (some a) ∧
    accountAll 64 (fun _ => ⟨true, true⟩) 0 a conversation = some (a', true) ∧
      Accounts onFlow (fun s => fromB s.pi) flagsSeen (seenAll 64 a.frags conversation) a'.flows ∧
      Accounts onTunnel (fun _ => false) (fun _ => 0) (seenAll 64 a.frags conversation) a'.tunnels ∧
      a'.flows.entries.map Flow.sums = [⟨3, 210, 3, 9, true⟩] ∧
      a'.tunnels.entries.map Flow.sums = [⟨1, 70, 3, 3, false⟩, ⟨2, 140, 5, 9, false⟩] := by
  obtain ⟨a, a', hinit, hrun, hentries⟩ := exists_runOn conversation
    (fun a => (a.flows.entries.map Flow.sums, a.tunnels.entries.map Flow.sums))
    ([⟨3, 210, 3, 9, true⟩], [⟨1, 70, 3, 3, false⟩, ⟨2, 140, 5, 9, false⟩]) (by decide +kernel)
  rw [Prod.mk.injEq] at hentries
  obtain ⟨hflows, htunnels, -⟩ := analysis_accounting hinit hrun
  exact ⟨a, a', hinit, hrun, hflows, htunnels, hentries⟩

end Pcapstat
