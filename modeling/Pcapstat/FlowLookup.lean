import Pcapstat.FlowMap

/-! # Looking up a key again

`flow_table_find_or_insert` makes room before it looks for the key.  So a call for a key that has an
entry leaves the table alone only while there is room for one more entry. -/

namespace Pcapstat

/-- The call returns the entry of `key`, inserts nothing and leaves every slot as it is. -/
def Undisturbed (w : ℕ) (t : FlowTable) (key : FlowKey) (ok : Bool) : Prop :=
  ∃ j, flowTableFindOrInsert w t key ok = some (t, some j, false) ∧ t.lookup key = some (t.slot j)

theorem findOrInsert_old {w : ℕ} {t t' : FlowTable} {key : FlowKey} {j : ℕ}
    (h : findOrInsert w t key = some (t', some j, false)) : t' = t := by
  unfold findOrInsert at h
  obtain ⟨i, -, h⟩ := Option.bind_eq_some_iff.mp h
  split_ifs at h
  · rw [Option.some.injEq, Prod.mk.injEq] at h
    exact h.1.symm
  · rw [Option.some.injEq, Prod.mk.injEq, Prod.mk.injEq] at h
    exact absurd h.2.2.symm Bool.false_ne_true

/-- A key that has an entry is found without memory, exactly when there is room for one more. -/
theorem FlowTable.Inv.undisturbed_iff {w : ℕ} {t : FlowTable} (h : t.Inv w) {key : FlowKey} {f : Flow}
    (hf : t.lookup key = some f) (ok : Bool) :
    Undisturbed w t key ok ↔ (t.count + 1) * 10 ≤ t.capacity * 7 := by
  constructor
  · rintro ⟨j, hcall, -⟩
    obtain ⟨r, hcall', ho⟩ := h.findOrInsert key ok
    obtain rfl := Option.some.inj (hcall.symm.trans hcall')
    cases ho with
    | old hr _ _ => exact hr.room
  · intro hroom
    have hneeds : ¬ needsRoom w t = true := by
      rw [h.needsRoom_iff]
      exact not_lt.mpr hroom
    obtain ⟨t₁, j, ins, hcall, ho⟩ := h.findOrInsert_of_room hneeds key ok
    obtain ⟨hslot, rfl⟩ := ho.entry h
    rw [hf] at hslot hcall
    have hcap : t.capacity ≠ 0 := by
      have := h.min
      omega
    have hfind : Pcapstat.findOrInsert w t key = some (t₁, some j, false) := by
      unfold flowTableFindOrInsert at hcall
      rwa [if_neg hcap, if_neg hneeds] at hcall
    obtain rfl := findOrInsert_old hfind
    exact ⟨j, hcall, hf.trans (congrArg some hslot.symm)⟩

/-- **Updating an entry that exists leaves the table alone, exactly when there is room for one
more.** -/
theorem findOrInsert_undisturbed_iff {w hint : ℕ} {allocated : Bool} {t₀ t : FlowTable}
    {ops : List TableOp} {answers : List TableAnswer} {key : FlowKey} {f : Flow}
    (hinit : flowTableInit w hint allocated = some (t₀, true))
    (hrun : TableOp.execAll w t₀ ops = some (t, answers)) (hf : t.lookup key = some f) (ok : Bool) :
    Undisturbed w t key ok ↔ (t.count + 1) * 10 ≤ t.capacity * 7 := by
  have hreached : t.Reached w := ⟨hint, allocated, t₀, ops, answers, hinit, hrun⟩
  exact hreached.inv.undisturbed_iff hf ok

theorem exists_ports {ns : List UInt16} {n : UInt16} {count capacity : ℕ}
    (hrun : (flowTableInit 64 16 true).bind (fun r => if r.2 then
      (TableOp.execAll 64 r.1 (enterPorts ns)).map (fun s =>
        decide (s.1.count = count ∧ s.1.capacity = capacity) && (s.1.lookup (portKey n)).isSome)
      else none) = some true) :
    ∃ t₀ t answers f, flowTableInit 64 16 true = some (t₀, true) ∧
      TableOp.execAll 64 t₀ (enterPorts ns) = some (t, answers) ∧ t.lookup (portKey n) = some f ∧
      t.count = count ∧ t.capacity = capacity := by
  obtain ⟨⟨t₀, b⟩, hinit, hrun⟩ := Option.bind_eq_some_iff.mp hrun
  cases b with
  | false => exact absurd hrun (Option.some_ne_none true).symm
  | true =>
      rw [if_pos rfl] at hrun
      obtain ⟨⟨t, answers⟩, hall, hcheck⟩ := Option.map_eq_some_iff.mp hrun
      rw [Bool.and_eq_true, decide_eq_true_eq] at hcheck
      obtain ⟨f, hf⟩ := Option.isSome_iff_exists.mp hcheck.2
      exact ⟨t₀, t, answers, f, hinit, hall, hf, hcheck.1⟩

/-- Ten entries in sixteen slots leave room for one more, and eleven do not. -/
theorem findOrInsert_undisturbed_iff_ten :
    (∃ t₀ t answers f, flowTableInit 64 16 true = some (t₀, true) ∧
      TableOp.execAll 64 t₀ (enterPorts [1, 2, 3, 4, 5, 6, 7, 8, 9, 10]) = some (t, answers) ∧
      t.lookup (portKey 1) = some f ∧ Undisturbed 64 t (portKey 1) false) ∧
    ∃ t₀ t answers f, flowTableInit 64 16 true = some (t₀, true) ∧
      TableOp.execAll 64 t₀ (enterPorts [1, 2, 3, 4, 5, 6, 7, 8, 9, 10, 11]) = some (t, answers) ∧
      t.lookup (portKey 1) = some f ∧ ¬ Undisturbed 64 t (portKey 1) true := by
  constructor
  · obtain ⟨t₀, t, answers, f, hinit, hrun, hf, hcount, hcap⟩ :=
      @exists_ports [1, 2, 3, 4, 5, 6, 7, 8, 9, 10] 1 10 16 (by decide +kernel)
    refine ⟨t₀, t, answers, f, hinit, hrun, hf, (findOrInsert_undisturbed_iff hinit hrun hf false).mpr ?_⟩
    rw [hcount, hcap]
    decide
  · obtain ⟨t₀, t, answers, f, hinit, hrun, hf, hcount, hcap⟩ :=
      @exists_ports [1, 2, 3, 4, 5, 6, 7, 8, 9, 10, 11] 1 11 16 (by decide +kernel)
    refine ⟨t₀, t, answers, f, hinit, hrun, hf, fun h => ?_⟩
    have hroom := (findOrInsert_undisturbed_iff hinit hrun hf true).mp h
    rw [hcount, hcap] at hroom
    exact absurd hroom (by decide)

/-- With eleven entries in sixteen slots, a call for one of them asks for memory. -/
theorem eleventhLookup_grows : ∃ t₀ t answers f, flowTableInit 64 16 true = some (t₀, true) ∧
    TableOp.execAll 64 t₀ (enterPorts [1, 2, 3, 4, 5, 6, 7, 8, 9, 10, 11]) = some (t, answers) ∧
      t.lookup (portKey 1) = some f ∧ ∀ ok, ¬ Undisturbed 64 t (portKey 1) ok := by
  obtain ⟨t₀, t, answers, f, hinit, hrun, hf, hcount, hcap⟩ :=
    @exists_ports [1, 2, 3, 4, 5, 6, 7, 8, 9, 10, 11] 1 11 16 (by decide +kernel)
  have hreached : t.Reached 64 := ⟨16, true, t₀, _, answers, hinit, hrun⟩
  refine ⟨t₀, t, answers, f, hinit, hrun, hf, ?_⟩
  intro ok
  rw [hreached.inv.undisturbed_iff hf ok, hcount, hcap]
  decide

end Pcapstat
