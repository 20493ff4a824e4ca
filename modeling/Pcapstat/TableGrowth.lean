import Pcapstat.Run
import Pcapstat.TableSizes
import Pcapstat.TwoRuns

/-! # The memory of a run

A table doubles its array when the load limit asks for room, also for a key that it has.  Still its array is
never large for its entries (`Snug`), and there are no more entries than records, so that a run asks for memory
in proportion to its capture.  If all that it asks for is granted, it never runs out of memory
(`analysisRun_granted`); only a capture of more than `2 ^ w / 252` records could make the sizes too large. -/

namespace Pcapstat

/-! ### One call -/

/-- What a call does to the room of a table; `b` is its answer. -/
structure Grown (w : ℕ) (ok : Bool) (t t' : FlowTable) (b : Bool) : Prop where
  capacity : t'.capacity = t.capacity ∨ t'.capacity = t.capacity * 2 ∧ t.capacity * 7 < (t.count + 1) * 10
  count : t.count ≤ t'.count ∧ t'.count ≤ t.count + 1
  refused : b = false → t.capacity * 7 < (t.count + 1) * 10 ∧ FlowTable.Refused w t ok

/-- A table that was allocated with `start` slots is not too large for its entries. -/
def FlowTable.Snug (start : ℕ) (t : FlowTable) : Prop :=
  t.capacity = start ∨ t.capacity * 7 < (t.count + 1) * 20

/-- Memory for another record would be granted. -/
def Fits (w n : ℕ) : Prop := n * 252 < 2 ^ w

section call

variable {w : ℕ} {t t' : FlowTable} {ok b : Bool} {start n : ℕ}

theorem Fits.mono {m : ℕ} (h : Fits w n) (hle : m ≤ n) : Fits w m := (Nat.mul_le_mul_right 252 hle).trans_lt h

theorem Grown.same (w : ℕ) (ok : Bool) (t : FlowTable) : Grown w ok t t true :=
  ⟨.inl rfl, ⟨le_rfl, Nat.le_succ _⟩, fun hb => absurd hb (by decide)⟩

theorem Grown.snug (h : Grown w ok t t' b) (hs : t.Snug start) : t'.Snug start := by
  have hcount := h.count.1
  unfold FlowTable.Snug at hs ⊢
  rcases h.capacity with hsame | ⟨hdouble, hload⟩
  · rw [hsame]
    exact hs.imp_right fun hs => by omega
  · right
    omega

theorem Grown.granted (h : Grown w true t t' b) (hfits : Fits w (t.count + 1)) : b = true := by
  cases b with
  | true => rfl
  | false =>
      exfalso
      obtain ⟨hload, href⟩ := h.refused rfl
      rcases href with hno | hbig
      · exact absurd hno (by decide)
      · have hlarge := doubleLimit_lt_iff.mp hbig
        unfold Fits at hfits
        unfold flowSize sizeMax at hlarge
        omega

theorem FlowTable.Snug.capacity_le (h : t.Snug start) : t.capacity ≤ max start (3 * (t.count + 1)) := by
  rcases h with hstart | hload
  · exact hstart ▸ le_max_left _ _
  · exact le_max_of_le_right (by omega)

theorem findOrInsert_size {k : FlowKey} {f : Option ℕ} {ins : Bool} (h : findOrInsert w t k = some (t', f, ins)) :
    t'.capacity = t.capacity ∧ (t.count ≤ t'.count ∧ t'.count ≤ t.count + 1) ∧ f.isSome := by
  unfold findOrInsert at h
  obtain ⟨i, -, h⟩ := Option.bind_eq_some_iff.mp h
  cases hused : (t.slot i).inUse with
  | true =>
      rw [hused, if_pos rfl, Option.some.injEq, Prod.mk.injEq, Prod.mk.injEq] at h
      obtain ⟨rfl, rfl, -⟩ := h
      exact ⟨rfl, ⟨le_rfl, Nat.le_succ _⟩, rfl⟩
  | false =>
      rw [hused, if_neg Bool.false_ne_true, Option.some.injEq, Prod.mk.injEq, Prod.mk.injEq] at h
      obtain ⟨rfl, rfl, -⟩ := h
      exact ⟨rfl, ⟨Nat.le_succ _, le_rfl⟩, rfl⟩

/-- What `account` does to the room, once the entry has been looked for. -/
theorem account_of_found {k : FlowKey} {c : Contribution} {i : ℕ} {ins : Bool}
    (h : flowTableFindOrInsert w t k ok = some (t', some i, ins)) :
    ∃ t₁, account w t k c.reversed c.tcpFlags c.wireLen c.tsNs ok = some (t₁, true) ∧
      t₁.capacity = t'.capacity ∧ t₁.count = t'.count := by
  rw [account, h]
  exact ⟨_, rfl, rfl, rfl⟩

/-- `account` doubles the array if the load limit asks for room, and then only. -/
theorem account_grown (h : t.Inv w) (k : FlowKey) (c : Contribution) (ok : Bool) :
    ∃ t' b, account w t k c.reversed c.tcpFlags c.wireLen c.tsNs ok = some (t', b) ∧ Grown w ok t t' b := by
  by_cases hneeds : needsRoom w t = true
  swap
  · obtain ⟨t₁, j, ins, hcall, -⟩ := h.findOrInsert_of_room hneeds k ok
    obtain ⟨t', hacc, hcap, hcount⟩ := @account_of_found w t t₁ ok k c j ins hcall
    have hmin := h.min
    rw [flowTableFindOrInsert, if_neg (by omega), if_neg hneeds] at hcall
    obtain ⟨hcap', hcount', -⟩ := findOrInsert_size hcall
    refine ⟨t', true, hacc, .inl (hcap.trans hcap'), ?_, fun hb => absurd hb (by decide)⟩
    rw [hcount]
    exact hcount'
  have hload := h.needsRoom_iff.mp hneeds
  have hmin := h.min
  have hfind : flowTableFindOrInsert w t k ok = (grow w t ok).bind fun p =>
      if p.2 then findOrInsert w p.1 k else some (p.1, none, false) := by
    rw [flowTableFindOrInsert, if_neg (by omega), if_pos hneeds]
    rfl
  rcases h.grow ok with ⟨hgrow, href⟩ | ⟨t₁, hgrow, hr⟩
  · refine ⟨t, false, ?_, .inl rfl, ⟨le_rfl, Nat.le_succ _⟩, fun _ => ⟨hload, href⟩⟩
    rw [account, hfind, hgrow]
    rfl
  · obtain ⟨t₂, j, ins, hcall, -⟩ := hr.findOrInsert k ok
    have hfound : flowTableFindOrInsert w t k ok = some (t₂, some j, ins) := by
      rw [hfind, hgrow]
      exact hcall
    obtain ⟨t', hacc, hcap, hcount⟩ := @account_of_found w t t₂ ok k c j ins hfound
    obtain ⟨hcap', hcount', -⟩ := findOrInsert_size hcall
    have hsame : t₁.count = t.count := by rw [hr.inv.count, hr.perm.length_eq, h.count]
    refine ⟨t', true, hacc, .inr ⟨?_, hload⟩, ?_, fun hb => absurd hb (by decide)⟩
    · rw [hcap, hcap', (grow_doubled hgrow).1]
    · rw [hcount, ← hsame]
      exact hcount'

theorem flowTableAddPacket_grown (h : t.Inv w) (pi : PacketInfo) (len : UInt32) (ts : UInt64) (ok : Bool) :
    ∃ t' b, flowTableAddPacket w t pi len ts ok = some (t', b) ∧ Grown w ok t t' b := by
  unfold flowTableAddPacket
  cases flowKeyFromPacket pi with
  | none => exact ⟨t, true, rfl, .same w ok t⟩
  | some kr =>
      obtain ⟨k, reversed⟩ := kr
      exact account_grown h k ⟨reversed, _, len, ts⟩ ok

theorem flowTableAddTunnel_grown (h : t.Inv w) (pi : PacketInfo) (len : UInt32) (ts : UInt64) (ok : Bool) :
    ∃ t' b, flowTableAddTunnel w t pi len ts ok = some (t', b) ∧ Grown w ok t t' b := by
  unfold flowTableAddTunnel
  cases tunnelKeyFromPacket pi with
  | none => exact ⟨t, true, rfl, .same w ok t⟩
  | some k => exact account_grown h k ⟨false, 0, len, ts⟩ ok

end call

/-! ### Runs -/

section runs

variable {w : ℕ} {a a' : Analysis} {ok : ℕ → Grants}

theorem analysisAccount_grown (h : a.Inv w) (f : Frame) (ok : Grants) :
    ∃ a' b b₁ b₂, analysisAccount w a f.pi f.caplen f.wirelen f.tsNs ok = some (a', b) ∧ a'.Inv w ∧
      Grown w ok.flows a.flows a'.flows b₁ ∧ Grown w ok.tunnels a.tunnels a'.tunnels b₂ ∧
      b = (b₁ && b₂) := by
  obtain ⟨a', b, hcall, hatt⟩ := analysisAccount_attempted h f ok
  have hinv := hatt.inv
  refine ⟨a', b, ?_⟩
  suffices ∃ b₁ b₂, Grown w ok.flows a.flows a'.flows b₁ ∧ Grown w ok.tunnels a.tunnels a'.tunnels b₂ ∧
      b = (b₁ && b₂) by
    obtain ⟨b₁, b₂, hgrown⟩ := this
    exact ⟨b₁, b₂, hcall, hinv, hgrown⟩
  rcases hq : fragCacheApply w a.frags f.pi with ⟨c, pi, matched⟩
  rw [analysisAccount, hq] at hcall
  dsimp only at hcall
  by_cases hst : pi.status = .ok
  swap
  · rw [if_pos hst, Option.some.injEq, Prod.mk.injEq] at hcall
    obtain ⟨rfl, rfl⟩ := hcall
    exact ⟨true, true, .same _ _ _, .same _ _ _, rfl⟩
  obtain ⟨t₁, b₁, hadd, hgrown⟩ := flowTableAddPacket_grown h.flows pi f.wirelen f.tsNs ok.flows
  rw [if_neg (not_not.mpr hst), hadd, Option.bind_eq_bind, Option.bind_some] at hcall
  cases b₁ with
  | false =>
      cases hcall
      exact ⟨false, true, hgrown, .same _ _ _, rfl⟩
  | true =>
      simp only [Bool.not_true, Bool.false_eq_true, if_false] at hcall
      by_cases hjoins : joinsTunnel pi = true
      swap
      · rw [if_neg hjoins] at hcall
        cases hcall
        exact ⟨true, true, hgrown, .same _ _ _, rfl⟩
      · obtain ⟨t₂, b₂, hadd', hgrown'⟩ := flowTableAddTunnel_grown h.tunnels pi f.wirelen f.tsNs ok.tunnels
        rw [if_pos hjoins, hadd', Option.bind_some] at hcall
        cases hcall
        exact ⟨true, b₂, hgrown, hgrown', (Bool.true_and b₂).symm⟩

/-- The memory of both tables. -/
structure Thrifty (start start' n : ℕ) (a : Analysis) : Prop where
  flows : a.flows.Snug start
  tunnels : a.tunnels.Snug start'
  flowCount : a.flows.count ≤ n
  tunnelCount : a.tunnels.count ≤ n

/-- **A run over some frames asks for little, and if that is granted it gets to their end.** -/
theorem accountAll_thrifty {start start' : ℕ} {fs : List Frame} {i n : ℕ} {b : Bool} (h : a.Inv w)
    (ha : Thrifty start start' n a) (hrun : accountAll w ok i a fs = some (a', b)) :
    Thrifty start start' (n + fs.length) a' ∧
      ((∀ j < i + fs.length, ok j = ⟨true, true⟩) → Fits w (n + fs.length) → b = true) := by
  induction fs generalizing a i n with
  | nil =>
      rw [accountAll, Option.some.injEq, Prod.mk.injEq] at hrun
      obtain ⟨rfl, rfl⟩ := hrun
      exact ⟨ha, fun _ _ => rfl⟩
  | cons f fs ih =>
      obtain ⟨a₁, b₁, bf, bt, hcall, hinv, hflows, htunnels, hb⟩ := analysisAccount_grown h f (ok i)
      have hstep : Thrifty start start' (n + 1) a₁ :=
        ⟨hflows.snug ha.flows, htunnels.snug ha.tunnels,
          hflows.count.2.trans (Nat.succ_le_succ ha.flowCount),
          htunnels.count.2.trans (Nat.succ_le_succ ha.tunnelCount)⟩
      rw [accountAll, hcall, Option.bind_eq_bind, Option.bind_some] at hrun
      rw [List.length_cons, Nat.add_comm fs.length 1, ← Nat.add_assoc, ← Nat.add_assoc]
      cases b₁ with
      | false =>
          cases hrun
          refine ⟨⟨hstep.flows, hstep.tunnels, Nat.le_add_right_of_le hstep.flowCount,
            Nat.le_add_right_of_le hstep.tunnelCount⟩, ?_⟩
          intro hok hfits
          have hgranted := hok i (by omega)
          have hflowCount := ha.flowCount
          have htunnelCount := ha.tunnelCount
          rw [hgranted] at hflows htunnels
          have hbf := hflows.granted (hfits.mono (by omega))
          have hbt := htunnels.granted (hfits.mono (by omega))
          rw [hbf, hbt] at hb
          exact absurd hb (by decide)
      | true => exact ih hinv hstep hrun

end runs

/-! ### The first arrays -/

section init

variable {w : ℕ}

/-- A hint that is a small power of two is the first capacity. -/
theorem flowTableInit_capacity (hw : 32 ≤ w) {d : ℕ} (hd : d ≤ 6) (ok : Bool) :
    flowTableInit w (minCapacity * 2 ^ d) ok =
      if ok then some (⟨List.replicate (minCapacity * 2 ^ d) {}, minCapacity * 2 ^ d, 0⟩, true)
      else some (⟨[], 0, 0⟩, false) := by
  have hpow : 2 ^ 32 ≤ 2 ^ w := Nat.pow_le_pow_right Nat.two_pos hw
  have hcap : minCapacity * 2 ^ d ≤ 1024 := Nat.mul_le_mul_left minCapacity (Nat.pow_le_pow_right Nat.two_pos hd)
  have hseek : LinearProbe.seek (fun cap => !(cap < minCapacity * 2 ^ d && cap ≤ sizeMax w / 2 / flowSize)) (· * 2)
      (w + 1) minCapacity = some (minCapacity * 2 ^ d) := by
    rw [← FlowTable.double_iterate]
    apply LinearProbe.seek_eq_some (by omega)
    · rw [decide_eq_false (lt_irrefl _), Bool.false_and, Bool.not_false]
    · intro e he
      have hlt : minCapacity * 2 ^ e < minCapacity * 2 ^ d :=
        Nat.mul_lt_mul_of_pos_left (Nat.pow_lt_pow_right (by decide) he) (by decide)
      have hle : minCapacity * 2 ^ e ≤ sizeMax w / 2 / flowSize := by
        unfold sizeMax flowSize
        omega
      rw [FlowTable.double_iterate, FlowTable.double_iterate, decide_eq_true hlt, decide_eq_true hle]
      rfl
  have hcalloc : calloc w (minCapacity * 2 ^ d) flowSize ok = ok := by
    unfold calloc
    rw [decide_eq_true, Bool.and_true]
    unfold sizeMax flowSize
    omega
  rw [flowTableInit, hseek, Option.bind_eq_bind, Option.bind_some, hcalloc]

theorem analysisInit_thrifty (hw : 32 ≤ w) (okFlows okTunnels okFrags : Bool) :
    ∃ r, analysisInit w okFlows okTunnels okFrags = some r ∧ (∀ a ∈ r, Thrifty 1024 64 0 a) ∧
      (r.isSome ↔ okFlows = true ∧ okTunnels = true ∧ okFrags = true) := by
  have hflows := @flowTableInit_capacity w hw 6 (by decide) okFlows
  have htunnels := @flowTableInit_capacity w hw 2 (by decide) okTunnels
  rw [show minCapacity * 2 ^ 6 = initialFlowSlots from rfl] at hflows
  rw [show minCapacity * 2 ^ 2 = initialTunnelSlots from rfl] at htunnels
  rw [analysisInit, hflows]
  cases okFlows with
  | false => exact ⟨none, rfl, by simp, by simp⟩
  | true =>
      simp only [if_true, Option.bind_eq_bind, Option.bind_some, Bool.not_true, Bool.false_eq_true, if_false, htunnels]
      cases okTunnels with
      | false => exact ⟨none, rfl, by simp, by simp⟩
      | true =>
          cases okFrags with
          | false => exact ⟨none, rfl, by simp, by simp⟩
          | true =>
              refine ⟨_, rfl, ?_, by simp [fragCacheInit]⟩
              rintro a ⟨rfl⟩
              exact ⟨.inl rfl, .inl rfl, le_rfl, le_rfl⟩

end init

theorem analysisRun_thrifty {w : ℕ} (hw : 32 ≤ w) {okFlows okTunnels okFrags : Bool} {ok : ℕ → Grants}
    {a a' : Analysis} {r r' rEnd : PcapReader} {recs : List PcapRecord} {st stEnd : PcapStatus}
    (hinit : analysisInit w okFlows okTunnels okFrags = some (some a)) (hdel : Delivers r recs stEnd rEnd)
    (hrun : analysisRun w ok a r = some (a', r', st)) : Thrifty 1024 64 recs.length a' ∧
      ((∀ i < recs.length, ok i = ⟨true, true⟩) → recs.length * 252 < 2 ^ w → st = stEnd ∧ r' = rEnd) := by
  have hfresh := Fresh.of_init hinit
  obtain ⟨x, hx, hthrifty, -⟩ := analysisInit_thrifty hw okFlows okTunnels okFrags
  rw [hinit, Option.some.injEq] at hx
  subst hx
  obtain ⟨a₁, b, hall, -⟩ := @accountAll_spec w ok (recs.map PcapRecord.frame) a 0 hfresh.inv
  obtain ⟨r₁, st₁, hrun₁, hend⟩ := analysisRun_of_delivers hdel hall
  rw [hrun, Option.some.injEq, Prod.mk.injEq, Prod.mk.injEq] at hrun₁
  obtain ⟨rfl, rfl, rfl⟩ := hrun₁
  obtain ⟨h, hgranted⟩ := accountAll_thrifty hfresh.inv (hthrifty a rfl) hall
  rw [List.length_map, Nat.zero_add] at h hgranted
  refine ⟨h, fun hok hfits => ?_⟩
  rw [hgranted hok hfits] at hend
  exact ⟨hend.2, hend.1⟩

/-! ### The theorem -/

/-- **A run asks for memory in proportion to its capture, and if that is granted it gets to the end.**  The arrays
of both tables have at most three times as many slots as there are entries, or those that they started with, and
there are no more entries than records. -/
theorem analysisRun_granted {w : ℕ} (hw : 32 ≤ w) {okFlows okTunnels okFrags : Bool} {ok : ℕ → Grants}
    {a a' : Analysis} {r r' rEnd : PcapReader} {recs : List PcapRecord} {st stEnd : PcapStatus}
    (hinit : analysisInit w okFlows okTunnels okFrags = some (some a)) (hdel : Delivers r recs stEnd rEnd)
    (hrun : analysisRun w ok a r = some (a', r', st)) :
    a'.flows.count ≤ recs.length ∧ a'.tunnels.count ≤ recs.length ∧
    a'.flows.capacity ≤ max 1024 (3 * (a'.flows.count + 1)) ∧
    a'.tunnels.capacity ≤ max 64 (3 * (a'.tunnels.count + 1)) ∧
    ((∀ i < recs.length, ok i = ⟨true, true⟩) → recs.length * 252 < 2 ^ w → st = stEnd ∧ r' = rEnd) := by
  obtain ⟨h, hgranted⟩ := analysisRun_thrifty hw hinit hdel hrun
  exact ⟨h.flowCount, h.tunnelCount, h.flows.capacity_le, h.tunnels.capacity_le, hgranted⟩

/-- More tunnels than the first table has room for, and all memory granted. -/
theorem analysisRun_granted_tunnels : ∃ a a' r', analysisInit 64 true true true = some (some a) ∧
    analysisRun 64 (fun _ => ⟨true, true⟩) a (tunnelCapture id) = some (a', r', .eof) ∧
    a'.tunnels.count = 46 ∧ a'.tunnels.capacity = 128 ∧
    a'.tunnels.capacity ≤ max 64 (3 * (a'.tunnels.count + 1)) ∧
    ∃ recs, Delivers (tunnelCapture id) recs .eof r' ∧ recs.length = 46 := by
  obtain ⟨recs, rEnd, hdel, hreads⟩ := delivers_capture ((List.range 46).map fun i => tunnelRecord (id i))
  have hlen : recs.length = 46 := hreads.length_eq.trans (by decide)
  obtain ⟨a, a', r', hinit, hrun, hview⟩ := exists_analysisRun (fun _ => ⟨true, true⟩) (tunnelCapture id)
    (fun a => (a.tunnels.count, a.tunnels.capacity)) .eof (46, 128) (by decide +kernel)
  obtain ⟨hcount, hcapacity⟩ := Prod.mk.inj hview
  obtain ⟨-, -, -, hcap, hgranted⟩ := analysisRun_granted (by decide) hinit hdel hrun
  obtain ⟨-, rfl⟩ := hgranted (fun _ _ => rfl) (by rw [hlen]; decide)
  exact ⟨a, a', r', hinit, hrun, hcount, hcapacity, hcap, recs, hdel, hlen⟩

end Pcapstat
