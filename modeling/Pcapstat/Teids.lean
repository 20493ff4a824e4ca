import Pcapstat.TableSizes
import Pcapstat.TopN

/-! # Counting distinct TEIDs (`flow_table_distinct_teids`)

The TEIDs of the tunnels are sorted and the first of each run of equal ones is counted.  The
counting loop is read as `List.destutter`, which on a sorted list removes the duplicates. -/

namespace Pcapstat

/-! ### Model -/

/-- `teid_cmp`: `(a > b) - (a < b)` -/
def teidCmp (a b : UInt32) : Ordering := if a > b then .gt else if a < b then .lt else .eq

/-- The loop that counts the first element of each run, for the last `left` values of `i`. -/
def countRuns {α : Type} [DecidableEq α] [Inhabited α] (xs : List α) : (left i count : ℕ) → ℕ
  | 0, _, count => count
  | left + 1, i, count =>
      countRuns xs left (i + 1)
        (if i = 0 || xs.getD i default ≠ xs.getD (i - 1) default then count + 1 else count)

/-- `flow_table_distinct_teids`: `*count`, or `none` when it returns -1; `ok` is the answer of `malloc`. -/
def flowTableDistinctTeids (qsort : Qsort) (t : FlowTable) (ok : Bool) : Option ℕ :=
  if t.count = 0 then some 0
  else if !ok then none
  else
    let teids := (t.iterate (t.capacity + 1) 0).map fun i => (t.slot i).key.teid
    let teids := qsort.run teidCmp teids
    some (countRuns teids teids.length 0 0)

/-! ### Runs of equal elements -/

section runs

variable {α : Type} [DecidableEq α] [Inhabited α]

theorem countRuns_cons : ∀ (rest pre : List α) (x : α) (count : ℕ),
    countRuns (pre ++ x :: rest) rest.length (pre.length + 1) count + 1 =
      count + (rest.destutter' (· ≠ ·) x).length
  | [], pre, x, count => by
      rw [List.destutter'_nil]
      rfl
  | y :: rest, pre, x, count => by
      -- the next round stands behind `x`, and looks back at it
      have hy : (pre ++ x :: y :: rest).getD (pre.length + 1) default = y := by
        rw [List.getD_append_right _ _ _ _ (Nat.le_add_right _ 1), Nat.add_sub_cancel_left]
        rfl
      have hx : (pre ++ x :: y :: rest).getD (pre.length + 1 - 1) default = x := by
        rw [Nat.add_sub_cancel, List.getD_append_right _ _ _ _ le_rfl, Nat.sub_self]
        rfl
      have ih := countRuns_cons rest (pre ++ [x]) y
      rw [List.append_assoc, List.singleton_append, List.length_append, List.length_singleton] at ih
      rw [List.length_cons, countRuns, hx, hy]
      by_cases hne : y = x
      · subst hne
        rw [if_neg (by simp), ih, List.destutter'_cons_neg _ (by simp)]
      · rw [if_pos (by simp [hne]), ih, List.destutter'_cons_pos _ (Ne.symm hne), List.length_cons, Nat.add_assoc,
          Nat.add_comm 1]

theorem countRuns_eq : ∀ xs : List α, countRuns xs xs.length 0 0 = (xs.destutter (· ≠ ·)).length
  | [] => rfl
  | x :: xs => by
      have h := countRuns_cons xs [] x 1
      rw [List.nil_append, List.length_nil] at h
      rw [List.length_cons, countRuns, if_pos (by simp), List.destutter_cons']
      exact Nat.add_right_cancel (h.trans (Nat.add_comm 1 _))

/-- **On a sorted list the loop counts the elements, each once.** -/
theorem countRuns_sorted {r : α → α → Prop} [Std.Antisymm r] {xs : List α} (h : xs.Pairwise r) :
    countRuns xs xs.length 0 0 = xs.toFinset.card := by
  rw [countRuns_eq, h.destutter_eq_dedup, List.card_toFinset]

end runs

/-! ### The comparator -/

theorem teidCmp_eq (a b : UInt32) : teidCmp a b = compare a b := by
  show _ = compareOfLessAndEq a b
  unfold teidCmp compareOfLessAndEq
  by_cases hlt : a < b
  · rw [if_neg (UInt32.lt_asymm hlt), if_pos hlt, if_pos hlt]
  · rw [if_neg hlt, if_neg hlt]
    by_cases hgt : a > b
    · rw [if_pos hgt, if_neg (UInt32.ne_of_lt hgt).symm]
    · rw [if_neg hgt, if_pos (UInt32.le_antisymm (UInt32.not_lt.mp hgt) (UInt32.not_lt.mp hlt))]

instance : Std.TransCmp teidCmp := by
  have heq : teidCmp = (compare : UInt32 → UInt32 → Ordering) := funext fun a => funext (teidCmp_eq a)
  rw [heq]
  infer_instance

instance : Std.Antisymm (RankHeap.Le teidCmp) where
  antisymm a b hab hba := by
    have heq : teidCmp a b = .eq := RankHeap.eq_of_le_of_le hab hba
    rw [teidCmp_eq] at heq
    exact Std.LawfulEqOrd.eq_of_compare heq

/-! ### The TEIDs of a table -/

/-- The set of the TEIDs in the keys of a table. -/
def FlowTable.teids (t : FlowTable) : Finset UInt32 := (t.entries.map fun f => f.key.teid).toFinset

section teids

variable {w : ℕ} {t : FlowTable}

theorem FlowTable.Inv.mem_teids (h : t.Inv w) (teid : UInt32) :
    teid ∈ t.teids ↔ ∃ i < t.capacity, (t.slot i).inUse = true ∧ (t.slot i).key.teid = teid := by
  unfold FlowTable.teids
  rw [List.mem_toFinset, ← h.map_iterate, List.map_map, List.mem_map]
  constructor
  · rintro ⟨i, hi, heq⟩
    obtain ⟨hlt, hused⟩ := (t.iterate_spec.2 i).mp hi
    exact ⟨i, hlt, hused, heq⟩
  · rintro ⟨i, hlt, hused, heq⟩
    exact ⟨i, (t.iterate_spec.2 i).mpr ⟨hlt, hused⟩, heq⟩

theorem FlowTable.Inv.card_teids_le (h : t.Inv w) : t.teids.card ≤ t.count := by
  rw [h.count, ← List.length_map (fun f : Flow => f.key.teid)]
  exact List.toFinset_card_le _

theorem FlowTable.Inv.card_teids_eq_zero (h : t.Inv w) : t.teids.card = 0 ↔ t.count = 0 := by
  unfold FlowTable.teids
  rw [Finset.card_eq_zero, List.toFinset_eq_empty_iff, List.map_eq_nil_iff, h.count, List.length_eq_zero_iff]

/-- **`flow_table_distinct_teids` counts the TEIDs that occur in a table.** -/
theorem distinctTeids_card (h : t.Reached w) (qsort : Qsort) :
    flowTableDistinctTeids qsort t true = some t.teids.card ∧
      (∀ teid, teid ∈ t.teids ↔ ∃ i < t.capacity, (t.slot i).inUse = true ∧ (t.slot i).key.teid = teid) ∧
      t.teids.card ≤ t.count ∧ (t.teids.card = 0 ↔ t.count = 0) := by
  have hinv := h.inv
  refine ⟨?_, hinv.mem_teids, hinv.card_teids_le, hinv.card_teids_eq_zero⟩
  unfold flowTableDistinctTeids
  by_cases hcount : t.count = 0
  · rw [if_pos hcount, hinv.card_teids_eq_zero.mpr hcount]
  · rw [if_neg hcount, if_neg (by decide)]
    have hmap : (t.iterate (t.capacity + 1) 0).map (fun i => (t.slot i).key.teid) =
        t.entries.map fun f => f.key.teid := by
      rw [← hinv.map_iterate, List.map_map]
      rfl
    have hperm := qsort.perm teidCmp (t.entries.map fun f => f.key.teid)
    simp only [hmap]
    rw [countRuns_sorted (qsort.sorted teidCmp _), List.toFinset_eq_of_perm _ _ hperm]
    rfl

/-- The end point of a tunnel. -/
def tunnelTo (teid : UInt32) (proto : UInt8) : FlowKey := { teid := teid, ipVersion := 4, proto := proto }

/-- Three tunnels, two of which have one TEID. -/
theorem distinctTeids_card_shared : ∃ t : FlowTable, t.count = 3 ∧
    flowTableDistinctTeids default t true = some 2 := by
  have hrun : ((flowTableInit 64 16 true).bind fun r => (TableOp.execAll 64 r.1
      ([tunnelTo 7 17, tunnelTo 0xfffffff9 17, tunnelTo 7 6].map fun k => .findOrInsert k true id)).map
        fun s => decide (s.1.count = 3 ∧ s.1.teids.card = 2) && r.2) = some true := by decide +kernel
  obtain ⟨⟨t₀, ok⟩, hinit, hrun⟩ := Option.bind_eq_some_iff.mp hrun
  obtain ⟨⟨t, answers⟩, hall, hcheck⟩ := Option.map_eq_some_iff.mp hrun
  rw [Bool.and_eq_true, decide_eq_true_eq] at hcheck
  obtain ⟨⟨hcount, hcard⟩, rfl⟩ := hcheck
  refine ⟨t, hcount, ?_⟩
  rw [(distinctTeids_card ⟨16, true, t₀, _, answers, hinit, hall⟩ default).1, hcard]

end teids

end Pcapstat
