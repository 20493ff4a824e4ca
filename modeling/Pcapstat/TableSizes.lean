import Pcapstat.FlowLookup
import Pcapstat.Run

/-! # The sizes of a flow table are exact

`size_t` arithmetic wraps at `2 ^ w`.  The bound on the allocation (`FlowTable.Inv.fits`) keeps every
size the table computes below that, and the loop of `flow_table_init` and `grow` keep the bound,
because both stop one doubling early.

The tables of the pipeline are tables that calls have led to (`Analysis.Reached.accountAll`), so what is
said here of those holds of them. -/

namespace Pcapstat

open LinearProbe

/-! ### Sizes -/

/-- The largest capacity from which a table may still double. -/
def doubleLimit (w : ℕ) : ℕ := sizeMax w / 2 / flowSize

/-- No size that is computed of the table wraps. -/
structure FlowTable.SizesExact (w : ℕ) (t : FlowTable) : Prop where
  pow : ∃ e, t.capacity = 2 ^ e
  /-- the slots -/
  slots : t.capacity * flowSize ≤ sizeMax w
  /-- the load check -/
  load : (t.count + 1) * loadDen % 2 ^ w = (t.count + 1) * loadDen ∧
    t.capacity * loadNum % 2 ^ w = t.capacity * loadNum
  /-- `grow` refuses a doubling that does not fit -/
  refuses : t.capacity * 2 * flowSize > sizeMax w → ∀ ok, grow w t ok = some (t, false)
  grows : ∀ ok t', grow w t ok = some (t', true) → t'.capacity = t.capacity * 2 ∧
    t.capacity * 2 % 2 ^ w = t.capacity * 2 ∧ t.capacity * 2 * flowSize ≤ sizeMax w
  /-- an array with one element, no larger than a slot, for every entry -/
  counted : ∀ size ≤ flowSize, t.count * size % 2 ^ w = t.count * size

section sizes

variable {w cap : ℕ} {t : FlowTable}

theorem doubleLimit_lt_iff : cap > doubleLimit w ↔ cap * 2 * flowSize > sizeMax w := by
  unfold doubleLimit
  rw [gt_iff_lt, Nat.div_div_eq_div_mul, Nat.div_lt_iff_lt_mul (by decide), Nat.mul_assoc]

theorem mod_of_le_sizeMax {n : ℕ} (h : n ≤ sizeMax w) : n % 2 ^ w = n := by
  have hpos := Nat.two_pow_pos w
  unfold sizeMax at h
  apply Nat.mod_eq_of_lt
  omega

/-- A table that has grown has doubled, and there was room for that. -/
theorem grow_doubled {ok : Bool} {t' : FlowTable} (h : grow w t ok = some (t', true)) :
    t'.capacity = t.capacity * 2 ∧ t.capacity * 2 * flowSize ≤ sizeMax w := by
  unfold grow at h
  by_cases hbig : t.capacity > sizeMax w / 2 / flowSize
  · rw [if_pos hbig, Option.some.injEq, Prod.mk.injEq] at h
    exact absurd h.2 Bool.false_ne_true
  rw [if_neg hbig] at h
  by_cases hmem : (!calloc w (t.capacity * 2) flowSize ok) = true
  · simp only [if_pos hmem, Option.some.injEq, Prod.mk.injEq] at h
    exact absurd h.2 Bool.false_ne_true
  simp only [if_neg hmem, Option.bind_eq_bind, Option.bind_eq_some_iff, Option.some.injEq, Prod.mk.injEq,
    and_true] at h
  obtain ⟨bigger, -, rfl⟩ := h
  exact ⟨rfl, not_lt.mp fun hlt => hbig (doubleLimit_lt_iff.mpr hlt)⟩

theorem FlowTable.Inv.sizesExact (h : t.Inv w) : t.SizesExact w := by
  have hfits := h.fits
  have hload := h.load
  have hmin := h.min
  obtain ⟨e, -, hpow⟩ := h.pow
  refine ⟨⟨e, hpow⟩, hfits, ⟨?_, ?_⟩, ?_, ?_, ?_⟩
  · apply mod_of_le_sizeMax
    unfold loadDen
    unfold flowSize at hfits
    omega
  · apply mod_of_le_sizeMax
    unfold loadNum
    unfold flowSize at hfits
    omega
  · intro hbig ok
    unfold Pcapstat.grow
    exact if_pos (doubleLimit_lt_iff.mpr hbig)
  · intro ok t' hgrow
    obtain ⟨hcap, hroom⟩ := grow_doubled hgrow
    refine ⟨hcap, mod_of_le_sizeMax ?_, hroom⟩
    exact (Nat.le_mul_of_pos_right _ (by decide)).trans hroom
  · intro size hsize
    apply mod_of_le_sizeMax
    calc t.count * size ≤ t.capacity * flowSize := Nat.mul_le_mul (by omega) hsize
      _ ≤ sizeMax w := hfits

/-- The doubling loop of `flow_table_init`, in `size_t`. -/
def initLoop (w capacityHint : ℕ) : Option ℕ :=
  seek (fun cap => !(cap < capacityHint && cap ≤ doubleLimit w)) (fun cap => cap * 2 % 2 ^ w) (w + 1)
    minCapacity

theorem minCapacity_fits (hw : 32 ≤ w) : minCapacity * flowSize ≤ sizeMax w := by
  have hpow : 2 ^ 32 ≤ 2 ^ w := Nat.pow_le_pow_right Nat.two_pos hw
  unfold minCapacity flowSize sizeMax
  omega

/-- **The doubling loop ends with a power of two that fits, and never wraps.** -/
theorem initLoop_spec (hw : 32 ≤ w) (hint : ℕ) : ∃ cap, initLoop w hint = some cap ∧
    seek (fun cap => !(cap < hint && cap ≤ sizeMax w / 2 / flowSize)) (· * 2) (w + 1) minCapacity = some cap ∧
    (∃ e, 4 ≤ e ∧ cap = 2 ^ e) ∧ cap * flowSize ≤ sizeMax w := by
  have hbig : decide (minCapacity * 2 ^ w ≤ sizeMax w / 2 / flowSize) = false := by
    have hpos := Nat.two_pow_pos w
    rw [decide_eq_false_iff_not, minCapacity, sizeMax, flowSize]
    omega
  obtain ⟨d, -, hseek, hstop, hmin⟩ := @exists_seek
    (fun cap => !(cap < hint && cap ≤ sizeMax w / 2 / flowSize)) (· * 2) (w + 1) w minCapacity
    (Nat.lt_succ_self w) (by simp only [FlowTable.double_iterate, hbig, Bool.and_false, Bool.not_false])
  simp only [FlowTable.double_iterate] at hseek hstop hmin
  -- every capacity up to the last one was allowed to double
  have hfits : ∀ e ≤ d, minCapacity * 2 ^ e * flowSize ≤ sizeMax w := by
    intro e he
    cases e with
    | zero =>
        rw [Nat.pow_zero, Nat.mul_one]
        exact minCapacity_fits hw
    | succ e =>
        have hgo := hmin e he
        rw [Bool.not_eq_false', Bool.and_eq_true, decide_eq_true_eq, decide_eq_true_eq] at hgo
        have hle := not_lt.mpr hgo.2
        rw [← gt_iff_lt, show sizeMax w / 2 / flowSize = doubleLimit w from rfl, doubleLimit_lt_iff] at hle
        rw [Nat.pow_succ, ← Nat.mul_assoc]
        exact not_lt.mp hle
  have hexact : ∀ e ≤ d, (fun cap => cap * 2 % 2 ^ w)^[e] minCapacity = minCapacity * 2 ^ e := by
    intro e he
    induction e with
    | zero => rw [Function.iterate_zero_apply, Nat.pow_zero, Nat.mul_one]
    | succ e ih =>
        have hle : minCapacity * 2 ^ (e + 1) ≤ sizeMax w :=
          (Nat.le_mul_of_pos_right _ (by decide)).trans (hfits (e + 1) he)
        rw [Function.iterate_succ_apply', ih (Nat.le_of_succ_le he), Nat.mul_assoc, ← Nat.pow_succ,
          mod_of_le_sizeMax hle]
  refine ⟨minCapacity * 2 ^ d, ?_, hseek, ⟨4 + d, Nat.le_add_right 4 d, ?_⟩, hfits d le_rfl⟩
  · have hd : d < w + 1 := by
      by_contra hd
      have hle := hfits d le_rfl
      have hpow : 2 ^ w ≤ 2 ^ d := Nat.pow_le_pow_right Nat.two_pos (by omega)
      have hpos := Nat.two_pow_pos w
      unfold minCapacity flowSize sizeMax at hle
      omega
    have hloop : initLoop w hint = some ((fun cap => cap * 2 % 2 ^ w)^[d] minCapacity) := by
      apply seek_eq_some hd
      · rw [hexact d le_rfl]
        exact hstop
      · intro e he
        rw [hexact e he.le]
        exact hmin e he
    rw [hloop, hexact d le_rfl]
  · rw [Nat.pow_add]
    rfl

/-- **No size computation of the table wraps.** -/
theorem tableSizes_exact (hw : 32 ≤ w) (hint : ℕ) :
    (∃ cap, initLoop w hint = some cap ∧ (∃ e, 4 ≤ e ∧ cap = 2 ^ e) ∧ cap * flowSize ≤ sizeMax w ∧
      flowTableInit w hint true = some (⟨List.replicate cap {}, cap, 0⟩, true)) ∧
      ∀ ok t₀, flowTableInit w hint ok = some (t₀, true) → ∀ ops t answers,
        TableOp.execAll w t₀ ops = some (t, answers) → t.SizesExact w := by
  refine ⟨?_, ?_⟩
  · obtain ⟨cap, hloop, hseek, hpow, hfits⟩ := initLoop_spec hw hint
    refine ⟨cap, hloop, hpow, hfits, ?_⟩
    have hcalloc : calloc w cap flowSize true = true := decide_eq_true hfits
    unfold flowTableInit
    rw [hseek, Option.bind_eq_bind, Option.bind_some, if_pos hcalloc]
  · intro ok t₀ hinit ops t answers hrun
    have hreached : t.Reached w := ⟨hint, ok, t₀, ops, answers, hinit, hrun⟩
    exact hreached.inv.sizesExact

/-- A table that has grown. -/
theorem tableSizes_exact_ports : ∃ t : FlowTable, t.count = 12 ∧ t.capacity = 32 ∧ t.SizesExact 64 := by
  obtain ⟨t₀, t, answers, f, hinit, hrun, -, hcount, hcap⟩ :=
    @exists_ports [1, 2, 3, 4, 5, 6, 7, 8, 9, 10, 11, 12] 1 12 32 (by decide +kernel)
  exact ⟨t, hcount, hcap, (tableSizes_exact (by decide) 16).2 true t₀ hinit _ t answers hrun⟩

end sizes

/-! ### The tables of the pipeline -/

section reached

variable {w : ℕ} {t t' : FlowTable}

theorem TableOp.execAll_append : ∀ {ops ops' : List TableOp} {t t₁ t₂ : FlowTable} {as as' : List TableAnswer},
    TableOp.execAll w t ops = some (t₁, as) → TableOp.execAll w t₁ ops' = some (t₂, as') →
      TableOp.execAll w t (ops ++ ops') = some (t₂, as ++ as')
  | [], ops', t, t₁, t₂, as, as', h, h' => by
      rw [TableOp.execAll, Option.some.injEq, Prod.mk.injEq] at h
      obtain ⟨rfl, rfl⟩ := h
      exact h'
  | op :: ops, ops', t, t₁, t₂, as, as', h, h' => by
      simp only [TableOp.execAll, Option.bind_eq_bind, Option.bind_eq_some_iff, Option.some.injEq,
        Prod.mk.injEq] at h
      obtain ⟨⟨t₀, a⟩, hop, ⟨t₁', as₁⟩, hrun, rfl, rfl⟩ := h
      simp only [List.cons_append, TableOp.execAll, hop, TableOp.execAll_append hrun h', Option.bind_eq_bind,
        Option.bind_some]

theorem FlowTable.Reached.exec (h : t.Reached w) {op : TableOp} {a : TableAnswer}
    (hop : op.exec w t = some (t', a)) : t'.Reached w := by
  obtain ⟨hint, ok, t₀, ops, answers, hinit, hrun⟩ := h
  have hlast : TableOp.execAll w t [op] = some (t', [a]) := by
    simp only [TableOp.execAll, hop, Option.bind_eq_bind, Option.bind_some]
  exact ⟨hint, ok, t₀, ops ++ [op], answers ++ [a], hinit, TableOp.execAll_append hrun hlast⟩

theorem FlowTable.Reached.account (h : t.Reached w) {k : FlowKey} {rev b ok : Bool} {fl : UInt8} {len : UInt32}
    {ts : UInt64} (hcall : Pcapstat.account w t k rev fl len ts ok = some (t', b)) : t'.Reached w := by
  unfold Pcapstat.account at hcall
  simp only [Option.bind_eq_bind, Option.bind_eq_some_iff] at hcall
  obtain ⟨⟨t₁, f, inserted⟩, hfind, hcall⟩ := hcall
  have hexec : ∀ a, (TableOp.findOrInsert k ok fun f => f.account inserted rev fl len ts).exec w t = some (t', a) →
      t'.Reached w := fun a => h.exec
  simp only [TableOp.exec, hfind, Option.bind_eq_bind, Option.bind_some] at hexec
  cases f with
  | none =>
      simp only [Option.some.injEq, Prod.mk.injEq] at hcall
      obtain ⟨rfl, -⟩ := hcall
      exact hexec _ rfl
  | some i =>
      simp only [Option.some.injEq, Prod.mk.injEq] at hcall
      obtain ⟨rfl, -⟩ := hcall
      obtain ⟨hused, hkey, hhash⟩ := (t₁.slot i).account_frame inserted rev fl len ts
      have hwrite : (t₁.slot i).written (fun f => f.account inserted rev fl len ts) =
          (t₁.slot i).account inserted rev fl len ts := by
        unfold Flow.written
        rw [← hused, ← hkey, ← hhash]
      apply hexec (.entry (some (t₁.slot i)) inserted)
      dsimp only
      rw [hwrite]
      rfl

theorem FlowTable.Reached.addPacket (h : t.Reached w) {pi : PacketInfo} {b ok : Bool} {len : UInt32}
    {ts : UInt64} (hcall : flowTableAddPacket w t pi len ts ok = some (t', b)) : t'.Reached w := by
  unfold flowTableAddPacket at hcall
  cases hkey : flowKeyFromPacket pi with
  | none =>
      simp only [hkey, Option.some.injEq, Prod.mk.injEq] at hcall
      exact hcall.1 ▸ h
  | some kr =>
      simp only [hkey] at hcall
      exact h.account hcall

theorem FlowTable.Reached.addTunnel (h : t.Reached w) {pi : PacketInfo} {b ok : Bool} {len : UInt32}
    {ts : UInt64} (hcall : flowTableAddTunnel w t pi len ts ok = some (t', b)) : t'.Reached w := by
  unfold flowTableAddTunnel at hcall
  cases hkey : tunnelKeyFromPacket pi with
  | none =>
      simp only [hkey, Option.some.injEq, Prod.mk.injEq] at hcall
      exact hcall.1 ▸ h
  | some k =>
      simp only [hkey] at hcall
      exact h.account hcall

end reached

/-- Both tables of the pipeline are such that calls have led to them. -/
structure Analysis.Reached (w : ℕ) (a : Analysis) : Prop where
  flows : a.flows.Reached w
  tunnels : a.tunnels.Reached w

section pipeline

variable {w : ℕ} {a a' : Analysis}

theorem FlowTable.reached_of_init {hint : ℕ} {ok : Bool} {t : FlowTable}
    (h : flowTableInit w hint ok = some (t, true)) : t.Reached w :=
  ⟨hint, ok, t, [], [], h, rfl⟩

theorem Analysis.Reached.of_init {okFlows okTunnels okFrags : Bool}
    (h : analysisInit w okFlows okTunnels okFrags = some (some a)) : a.Reached w := by
  unfold analysisInit at h
  simp only [Option.bind_eq_bind, Option.bind_eq_some_iff] at h
  obtain ⟨⟨flows, ok₁⟩, hflows, h⟩ := h
  cases ok₁ with
  | false => exact absurd h (by simp)
  | true =>
      simp only [Bool.not_true, Bool.false_eq_true, if_false, Option.bind_eq_some_iff] at h
      obtain ⟨⟨tunnels, ok₂⟩, htunnels, h⟩ := h
      cases ok₂ with
      | false => exact absurd h (by simp)
      | true =>
          simp only [Bool.not_true, Bool.false_eq_true, if_false] at h
          split_ifs at h
          · exact absurd (Option.some.inj h) (Option.some_ne_none a).symm
          · obtain rfl := Option.some.inj (Option.some.inj h)
            exact ⟨FlowTable.reached_of_init hflows, FlowTable.reached_of_init htunnels⟩

theorem Analysis.Reached.account (h : a.Reached w) {pi : PacketInfo} {cap len : UInt32} {ts : UInt64} {ok : Grants}
    {b : Bool} (hcall : analysisAccount w a pi cap len ts ok = some (a', b)) : a'.Reached w := by
  unfold analysisAccount at hcall
  generalize fragCacheApply w a.frags pi = r at hcall
  obtain ⟨frags, pi, matched⟩ := r
  dsimp only at hcall
  generalize statsAdd _ pi cap len ts = stats at hcall
  by_cases hst : pi.status ≠ .ok
  · rw [if_pos hst, Option.some.injEq, Prod.mk.injEq] at hcall
    obtain ⟨rfl, -⟩ := hcall
    exact ⟨h.flows, h.tunnels⟩
  rw [if_neg hst] at hcall
  simp only [Option.bind_eq_bind, Option.bind_eq_some_iff] at hcall
  obtain ⟨⟨flows, added⟩, hflows, hcall⟩ := hcall
  have hreached : flows.Reached w := h.flows.addPacket hflows
  dsimp only at hcall
  split_ifs at hcall
  · rw [Option.some.injEq, Prod.mk.injEq] at hcall
    obtain ⟨rfl, -⟩ := hcall
    exact ⟨hreached, h.tunnels⟩
  · simp only [Option.bind_eq_some_iff, Option.some.injEq, Prod.mk.injEq] at hcall
    obtain ⟨⟨tunnels, added'⟩, htunnels, rfl, -⟩ := hcall
    exact ⟨hreached, h.tunnels.addTunnel htunnels⟩
  · rw [Option.some.injEq, Prod.mk.injEq] at hcall
    obtain ⟨rfl, -⟩ := hcall
    exact ⟨hreached, h.tunnels⟩

theorem Analysis.Reached.accountAll {ok : ℕ → Grants} : ∀ {fs : List Frame} {i : ℕ} {a : Analysis} {b : Bool},
    a.Reached w → Pcapstat.accountAll w ok i a fs = some (a', b) → a'.Reached w
  | [], _, a, b, h, hrun => by
      rw [Pcapstat.accountAll, Option.some.injEq, Prod.mk.injEq] at hrun
      exact hrun.1 ▸ h
  | f :: fs, i, a, b, h, hrun => by
      rw [Pcapstat.accountAll, Option.bind_eq_bind, Option.bind_eq_some_iff] at hrun
      obtain ⟨⟨a₁, added⟩, hcall, hrun⟩ := hrun
      have h₁ := h.account hcall
      cases added with
      | false =>
          simp only [Bool.not_false, if_true, Option.some.injEq, Prod.mk.injEq] at hrun
          exact hrun.1 ▸ h₁
      | true => exact h₁.accountAll hrun

end pipeline

end Pcapstat
