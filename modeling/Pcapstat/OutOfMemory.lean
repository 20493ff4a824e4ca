import Pcapstat.Balance
import Pcapstat.Ledger
import Pcapstat.ReaderErrors

/-! # Runs that run out of memory

`analysis_run` stops at the record that an allocation failed for.  The record has been counted, but it is
missing from the table that could not be given room, and always from the table of tunnels
(`analysisAccount_refused`).  Everything else is as if the capture had ended there
(`analysisRun_outOfMemory`), so that the message of `main`, which names the number of records that the
statistics cover, is true. -/

namespace Pcapstat

/-! ### One record -/

/-- What a call of `analysis_account` that returns -1 has done. -/
structure AccountFailed (w : ℕ) (a : Analysis) (f : Frame) (a' : Analysis) : Prop where
  stats : a'.stats = (seen w a.frags f).count a.stats
  flows : a'.flows = a.flows ∨ Added w a.flows (seen w a.frags f).flowEvent a'.flows true
  tunnels : a'.tunnels = a.tunnels

section step

variable {w : ℕ} {t t' : FlowTable} {e : Option (FlowKey × Contribution)}

theorem Added.of_refused (h : Added w t e t' false) : t' = t := by
  cases h
  rfl

theorem flowTableAddTunnel_refused (h : t.Inv w) {pi : PacketInfo} {len : UInt32} {ts : UInt64} {ok : Bool}
    (hcall : flowTableAddTunnel w t pi len ts ok = some (t', false)) : t' = t := by
  unfold flowTableAddTunnel at hcall
  cases hkey : tunnelKeyFromPacket pi with
  | none =>
      rw [hkey] at hcall
      cases hcall
  | some k =>
      rw [hkey] at hcall
      dsimp only at hcall
      obtain ⟨t₁, b, hacc, hadd⟩ := account_spec h k ⟨false, 0, len, ts⟩ ok
      rw [hcall, Option.some.injEq, Prod.mk.injEq] at hacc
      obtain ⟨rfl, rfl⟩ := hacc
      exact hadd.of_refused

/-- A call that returns -1 leaves the tunnels alone, and the flows as well unless it has added to them. -/
theorem analysisAccount_refused {a a' : Analysis} (h : a.Inv w) {f : Frame} {ok : Grants}
    (hcall : analysisAccount w a f.pi f.caplen f.wirelen f.tsNs ok = some (a', false)) : AccountFailed w a f a' := by
  obtain ⟨a₁, b, hcall', hatt⟩ := analysisAccount_attempted h f ok
  rw [hcall, Option.some.injEq, Prod.mk.injEq] at hcall'
  obtain ⟨rfl, rfl⟩ := hcall'
  obtain ⟨b₁, hflows, -⟩ := hatt.flows
  refine ⟨hatt.stats, ?_, ?_⟩
  · cases b₁ with
    | false => exact .inl hflows.of_refused
    | true => exact .inr hflows
  · unfold analysisAccount at hcall
    rcases hq : fragCacheApply w a.frags f.pi with ⟨c, pi, matched⟩
    rw [hq] at hcall
    dsimp only at hcall
    by_cases hst : pi.status = .ok
    swap
    · rw [if_pos hst] at hcall
      cases hcall
    rw [if_neg (not_not.mpr hst), Option.bind_eq_bind] at hcall
    obtain ⟨⟨t₁, added⟩, -, hcall⟩ := Option.bind_eq_some_iff.mp hcall
    cases added with
    | false =>
        cases hcall
        rfl
    | true =>
        by_cases hjoins : joinsTunnel pi = true
        · simp only [Bool.not_true, Bool.false_eq_true, if_false, if_pos hjoins] at hcall
          obtain ⟨⟨t₂, added⟩, hadd, hcall⟩ := Option.bind_eq_some_iff.mp hcall
          cases hcall
          exact flowTableAddTunnel_refused h.tunnels hadd
        · simp only [Bool.not_true, Bool.false_eq_true, if_false, if_neg hjoins] at hcall
          cases hcall

end step

/-! ### Runs -/

/-- **Where a run stops**: behind the record that memory ran out for. -/
theorem analysisLoop_stopped {w : ℕ} {ok : ℕ → Grants} {r r' : PcapReader} {all : List PcapRecord}
    {st : PcapStatus} (h : Delivers r all st r') {a a' : Analysis} {r₁ : PcapReader} (ha : a.Inv w)
    (hst : st ≠ .errNomem) {fuel i : ℕ} (hrun : analysisLoop w ok fuel i a r = some (a', r₁, .errNomem)) :
    ∃ recs rec more a₁, all = recs ++ rec :: more ∧ AccountedAll w a (recs.map PcapRecord.frame) a₁ ∧
      AccountFailed w a₁ rec.frame a' ∧ r₁.records = r.records + UInt64.ofNat (recs.length + 1) := by
  induction h generalizing a fuel i with
  | @stop r r' st rec hnext hbad =>
      cases fuel with
      | zero => cases hrun
      | succ fuel =>
          rw [analysisLoop, hnext] at hrun
          simp only [ne_eq, hbad, not_false_eq_true, if_true, Option.some.injEq, Prod.mk.injEq] at hrun
          exact absurd hrun.2.2 hst
  | @next r r₂ r' st rec all hnext hdel ih =>
      cases fuel with
      | zero => cases hrun
      | succ fuel =>
          rw [analysisLoop, hnext] at hrun
          simp only [ne_eq, not_true, if_false, Option.bind_eq_bind] at hrun
          obtain ⟨⟨a₁, added⟩, hcall, hrun⟩ := Option.bind_eq_some_iff.mp hrun
          cases added with
          | false =>
              simp only [Bool.not_false, if_true, Option.some.injEq, Prod.mk.injEq, and_true] at hrun
              obtain ⟨rfl, rfl⟩ := hrun
              exact ⟨[], rec, all, a, rfl, .nil, analysisAccount_refused ha hcall, pcapNext_records hnext⟩
          | true =>
              simp only [Bool.not_true, Bool.false_eq_true, if_false] at hrun
              obtain ⟨a₂, b, hcall', hacc⟩ := analysisAccount_spec ha rec.frame (ok i)
              have hsame := hcall'.symm.trans hcall
              rw [Option.some.injEq, Prod.mk.injEq] at hsame
              obtain ⟨rfl, rfl⟩ := hsame
              obtain ⟨recs, rec', more, a₃, rfl, hall, href, hrecords⟩ := ih (hacc rfl).inv hst hrun
              refine ⟨rec :: recs, rec', more, a₃, rfl, .cons (hacc rfl) hall, href, ?_⟩
              rw [hrecords, pcapNext_records hnext, List.length_cons, UInt64.ofNat_add (recs.length + 1) 1,
                UInt64.ofNat_one, UInt64.add_assoc, UInt64.add_comm 1]

/-! ### The theorem -/

theorem length_resolveAll (w : ℕ) : ∀ (fs : List Frame) (ps : List PacketInfo),
    (resolveAll w ps fs).length = fs.length
  | [], _ => rfl
  | f :: fs, ps => congrArg Nat.succ (length_resolveAll w fs (ps ++ [f.pi]))

theorem packets_foldl (ss : List Seen) :
    (ss.foldl (fun st s => s.count st) statsInit).packets = UInt64.ofNat ss.length := by
  have htally : tally ss .packets = ss.length := by
    unfold tally
    rw [List.countP_eq_length]
    exact fun _ _ => rfl
  have hget := counter_foldl .packets ss statsInit
  rw [htally] at hget
  exact hget.trans (UInt64.zero_add _)

theorem flowLedger_append (ss : List Seen) (s : Seen) :
    flowLedger (ss ++ [s]) = s.flowEvent.toList.foldl enter (flowLedger ss) := by
  unfold flowLedger ledger
  rw [List.filterMap_append, List.foldl_append]
  cases he : s.flowEvent with
  | none => rw [List.filterMap_cons_none he]; rfl
  | some e => rw [List.filterMap_cons_some he]; rfl

/-- **A run that runs out of memory** has counted all records up to the one that memory ran out for, and no
others.  All but the last are in both tables; the last one is in none, or only in that of flows. -/
theorem analysisRun_outOfMemory {w : ℕ} {okFlows okTunnels okFrags : Bool} {ok : ℕ → Grants} {a a' : Analysis}
    {r r' : PcapReader} (hinit : analysisInit w okFlows okTunnels okFrags = some (some a)) (herr : r.error = .ok)
    (hrun : analysisRun w ok a r = some (a', r', .errNomem)) :
    ∃ recs rec more st rEnd ss s, Delivers r (recs ++ rec :: more) st rEnd ∧
      ss = resolveAll w [] (recs.map PcapRecord.frame) ∧
      s = resolve w (recs.map fun rec => rec.frame.pi) rec.frame ∧
      a'.stats = (ss ++ [s]).foldl (fun st s => s.count st) statsInit ∧
      r'.records = r.records + a'.stats.packets ∧
      (Told w a'.flows (flowLedger ss) ∨ Told w a'.flows (flowLedger (ss ++ [s]))) ∧
      Told w a'.tunnels (tunnelLedger ss) := by
  have hfresh := Fresh.of_init hinit
  obtain ⟨all, st, rEnd, hdel⟩ := exists_delivers r
  have hst : st ≠ .errNomem := by
    rintro rfl
    exact absurd (hdel.stops herr) (by decide)
  obtain ⟨recs, rec, more, a₁, rfl, hall, href, hrecords⟩ := analysisLoop_stopped hdel hfresh.inv hst hrun
  have h := hall.entered hfresh
  have hseen : seen w a₁.frags rec.frame = resolve w (recs.map fun rec => rec.frame.pi) rec.frame := by
    rw [h.frags, List.map_map]
    exact seen_eq_resolve _
  have hstats := href.stats
  rw [hseen, h.stats] at hstats
  have htold : Told w a₁.flows (flowLedger (resolveAll w [] (recs.map PcapRecord.frame))) := h.inv.flows.told h.flows
  refine ⟨recs, rec, more, st, rEnd, _, _, hdel, rfl, rfl, ?_, ?_, ?_, ?_⟩
  · rw [hstats, List.foldl_append]
    rfl
  · rw [hrecords, hstats]
    have hpackets := packets_foldl (resolveAll w [] (recs.map PcapRecord.frame) ++
      [resolve w (recs.map fun rec => rec.frame.pi) rec.frame])
    rw [List.foldl_append, List.length_append, length_resolveAll, List.length_map] at hpackets
    exact congrArg (r.records + ·) hpackets.symm
  · rcases href.flows with hsame | hadd
    · rw [hsame]
      exact .inl htold
    · rw [hseen] at hadd
      right
      rw [flowLedger_append]
      exact hadd.inv.told (hadd.enter h.inv.flows h.flows)
  · rw [href.tunnels]
    exact h.inv.tunnels.told h.tunnels

/-- The table of tunnels cannot be given room. -/
theorem analysisRun_outOfMemory_tunnels : ∃ a a' r', analysisInit 64 true true true = some (some a) ∧
    analysisRun 64 (fun _ => ⟨true, false⟩) a (tunnelCapture id) = some (a', r', .errNomem) ∧
    ∃ recs rec more st rEnd ss s, Delivers (tunnelCapture id) (recs ++ rec :: more) st rEnd ∧
      ss = resolveAll 64 [] (recs.map PcapRecord.frame) ∧
      s = resolve 64 (recs.map fun rec => rec.frame.pi) rec.frame ∧
      a'.stats = (ss ++ [s]).foldl (fun st s => s.count st) statsInit ∧
      r'.records = (tunnelCapture id).records + a'.stats.packets ∧
      (Told 64 a'.flows (flowLedger ss) ∨ Told 64 a'.flows (flowLedger (ss ++ [s]))) ∧
      Told 64 a'.tunnels (tunnelLedger ss) := by
  obtain ⟨a, a', r', hinit, hrun, -⟩ := tunnelCapture_refused
  exact ⟨a, a', r', hinit, hrun, analysisRun_outOfMemory hinit (by decide +kernel) hrun⟩

end Pcapstat
