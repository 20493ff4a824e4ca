import Pcapstat.FlowLookup
import Pcapstat.RankHeap

/-! # The top flows (`flow.c`)

`flow_table_top_n` keeps pointers to `n` flows in a heap while it goes through the table, and sorts
them at the end.

* `rank_cmp` and `key_cmp` are orders that tell all flows with different keys apart.
* The cells of `out` that have been written are a list of pointers; its length is `kept`.
* Of `qsort` only is known that it sorts by its comparator (`Qsort`). -/

namespace Pcapstat

open RankHeap (Le)

/-! ### Comparing -/

def keyCmp (a b : FlowKey) : Ordering :=
  if a.teid ≠ b.teid then if a.teid < b.teid then .lt else .gt
  else if a.ipVersion ≠ b.ipVersion then if a.ipVersion < b.ipVersion then .lt else .gt
  else if a.proto ≠ b.proto then if a.proto < b.proto then .lt else .gt
  else if memcmp a.addrA.bytes b.addrA.bytes ≠ .eq then memcmp a.addrA.bytes b.addrA.bytes
  else if a.portA ≠ b.portA then if a.portA < b.portA then .lt else .gt
  else if memcmp a.addrB.bytes b.addrB.bytes ≠ .eq then memcmp a.addrB.bytes b.addrB.bytes
  else if a.portB ≠ b.portB then if a.portB < b.portB then .lt else .gt
  else .eq

/-- `rank_cmp`: `.lt` if `a` ranks above `b`. -/
def rankCmp (a b : Flow) : Ordering :=
  if a.bytes ≠ b.bytes then if a.bytes > b.bytes then .lt else .gt
  else if a.packets ≠ b.packets then if a.packets > b.packets then .lt else .gt
  else if a.firstTsNs ≠ b.firstTsNs then if a.firstTsNs < b.firstTsNs then .lt else .gt
  else keyCmp a.key b.key

section orders

theorem then_of_ne {α : Type} [LT α] [DecidableRel (α := α) (· < ·)] [DecidableEq α] {x : α}
    (hx : ¬ x < x) (y : α) (o : Ordering) :
    (if x ≠ y then if x < y then .lt else .gt else o) = (compareOfLessAndEq x y).then o := by
  unfold compareOfLessAndEq
  by_cases heq : x = y
  · subst heq
    rw [if_neg (not_not.mpr rfl), if_neg hx, if_pos rfl]
    rfl
  · rw [if_pos heq, if_neg heq]
    split_ifs <;> rfl

theorem then_of_ne_gt {α : Type} [LT α] [DecidableRel (α := α) (· < ·)] [DecidableEq α] {y : α}
    (hy : ¬ y < y) (x : α) (o : Ordering) :
    (if x ≠ y then if x > y then .lt else .gt else o) = (compareOfLessAndEq y x).then o := by
  have hne : (x ≠ y) = (y ≠ x) := propext ne_comm
  rw [← then_of_ne hy x o]
  simp only [hne]

theorem then_of_ne_eq (x o : Ordering) : (if x ≠ .eq then x else o) = x.then o := by
  cases x <;> rfl

theorem memcmp_compareLex : ∀ {a b : List UInt8}, a.length = b.length →
    memcmp a b = List.compareLex compare a b
  | [], [], _ => rfl
  | x :: a, y :: b, h => by
      have ih := @memcmp_compareLex a b (Nat.succ.inj h)
      rw [memcmp, ih, List.compareLex_cons_cons]
      show _ = (compareOfLessAndEq x y).then _
      unfold compareOfLessAndEq
      split_ifs with hlt hgt heq heq
      · rfl
      · exact absurd (heq ▸ hgt) (UInt8.lt_irrefl _)
      · rfl
      · rfl
      · exact absurd (UInt8.le_antisymm (UInt8.not_lt.mp hgt) (UInt8.not_lt.mp hlt)) heq

instance : Ord Addr := ⟨fun a b => memcmp a.bytes b.bytes⟩

theorem compare_addr : (compare : Addr → Addr → Ordering) = compareOn Addr.bytes := by
  funext a b
  exact memcmp_compareLex (a.length_eq.trans b.length_eq.symm)

instance : Std.TransOrd Addr := by
  show Std.TransCmp (compare : Addr → Addr → Ordering)
  rw [compare_addr]
  infer_instance

theorem keyCmp_eq : keyCmp = compareLex (compareOn FlowKey.teid)
    (compareLex (compareOn FlowKey.ipVersion) (compareLex (compareOn FlowKey.proto)
      (compareLex (compareOn FlowKey.addrA) (compareLex (compareOn FlowKey.portA)
        (compareLex (compareOn FlowKey.addrB) (compareOn FlowKey.portB)))))) := by
  funext a b
  have hlast := then_of_ne (UInt16.lt_irrefl a.portB) b.portB .eq
  rw [Ordering.then_eq] at hlast
  unfold keyCmp
  rw [hlast, then_of_ne_eq, then_of_ne (UInt16.lt_irrefl _), then_of_ne_eq,
    then_of_ne (UInt8.lt_irrefl _), then_of_ne (UInt8.lt_irrefl _), then_of_ne (UInt32.lt_irrefl _)]
  rfl

instance : Ord FlowKey := ⟨keyCmp⟩

instance : Std.TransOrd FlowKey := by
  show Std.TransCmp keyCmp
  rw [keyCmp_eq]
  infer_instance

/-- `rank_cmp` compares the fields in turn, the first two downwards. -/
theorem rankCmp_eq : rankCmp = compareLex (fun f g => compareOn Flow.bytes g f)
    (compareLex (fun f g => compareOn Flow.packets g f)
      (compareLex (compareOn Flow.firstTsNs) (compareOn Flow.key))) := by
  funext f g
  unfold rankCmp
  rw [then_of_ne (UInt64.lt_irrefl _), then_of_ne_gt (UInt64.lt_irrefl _),
    then_of_ne_gt (UInt64.lt_irrefl _)]
  rfl

instance : Std.TransCmp rankCmp := by
  rw [rankCmp_eq]
  infer_instance

theorem keyCmp_eq_iff {a b : FlowKey} : keyCmp a b = .eq ↔ a = b := by
  have haddr : ∀ {x y : Addr}, compare x y = .eq ↔ x = y := memcmp_addr
  rw [keyCmp_eq]
  simp only [compareLex_eq_eq, compareOn, haddr, Std.LawfulEqOrd.compare_eq_iff_eq]
  cases a
  cases b
  simp only [FlowKey.mk.injEq]
  tauto

theorem key_eq_of_rankCmp {f g : Flow} (h : rankCmp f g = .eq) : f.key = g.key := by
  rw [rankCmp_eq] at h
  simp only [compareLex_eq_eq] at h
  exact keyCmp_eq_iff.mp h.2.2.2

end orders

/-! ### The heap -/

/-- `qsort`, of which is known that it sorts by its comparator. -/
structure Qsort where
  run : {α : Type} → (α → α → Ordering) → List α → List α
  perm : ∀ {α : Type} (cmp : α → α → Ordering) (l : List α), (run cmp l).Perm l
  sorted : ∀ {α : Type} (cmp : α → α → Ordering) [Std.TransCmp cmp] (l : List α),
    (run cmp l).Pairwise (Le cmp)

instance : Inhabited Qsort :=
  ⟨⟨RankHeap.sort, fun _ l => RankHeap.sort_perm l, fun _ _ l => RankHeap.pairwise_sort l⟩⟩

section topN

variable (t : FlowTable)

/-- `rank_cmp` on pointers. -/
def rankAt (i j : ℕ) : Ordering := rankCmp (t.slot i) (t.slot j)

def siftDown (heap : List ℕ) (n i : ℕ) : List ℕ := RankHeap.siftDown (rankAt t) heap n i

def siftUp (heap : List ℕ) (i : ℕ) : List ℕ := RankHeap.siftUp (rankAt t) heap i

/-- The body of the loop of `flow_table_top_n`. -/
def keepFlow (n : ℕ) (out : List ℕ) (f : ℕ) : List ℕ :=
  if out.length < n then siftUp t (out ++ [f]) out.length
  else if rankCmp (t.slot f) (t.slot (out.getD 0 0)) = .lt then siftDown t (out.set 0 f) out.length 0
  else out

/-- `flow_table_top_n`: the pointers it writes. -/
def flowTableTopN (qsort : Qsort) (n : ℕ) : List ℕ :=
  if n = 0 then []
  else qsort.run (rankAt t) ((t.iterate (t.capacity + 1) 0).foldl (keepFlow t n) [])

theorem keepFlow_eq (n : ℕ) : keepFlow t n = RankHeap.offer (rankAt t) n := rfl

instance : Std.TransCmp (rankAt t) where
  eq_swap := by
    intro i j
    exact @Std.OrientedCmp.eq_swap _ rankCmp _ _ _
  isLE_trans := by
    intro i j k
    exact @Std.TransCmp.isLE_trans _ rankCmp _ _ _ _

end topN

/-- `f` is listed before `g`: more bytes, then more packets, then an earlier start, then the key. -/
def Above (f g : Flow) : Prop :=
  f.bytes > g.bytes ∨ f.bytes = g.bytes ∧ (f.packets > g.packets ∨ f.packets = g.packets ∧
    (f.firstTsNs < g.firstTsNs ∨ f.firstTsNs = g.firstTsNs ∧ keyCmp f.key g.key = .lt))

theorem rankCmp_lt_iff {f g : Flow} : rankCmp f g = .lt ↔ Above f g := by
  unfold rankCmp Above
  split_ifs <;> simp_all

/-! ### The ranking of a table -/

/-- All entries, in the order in which they are listed. -/
structure Ranking (t : FlowTable) (ranking : List Flow) : Prop where
  perm : ranking.Perm t.entries
  sorted : ranking.Pairwise Above

theorem Ranking.bytes_eq {t : FlowTable} {ranking : List Flow} {bytes : List UInt64} (h : Ranking t ranking)
    (hperm : (t.entries.map Flow.bytes).Perm bytes) (hfalls : bytes.Pairwise (· ≥ ·)) :
    ranking.map Flow.bytes = bytes := by
  have hge : ∀ {f g : Flow}, Above f g → f.bytes ≥ g.bytes := by
    rintro f g (hgt | ⟨heq, -⟩)
    · exact UInt64.le_of_lt hgt
    · exact UInt64.le_of_eq heq.symm
  have hranked : (ranking.map Flow.bytes).Pairwise (· ≥ ·) := List.pairwise_map.mpr (h.sorted.imp hge)
  exact List.Perm.eq_of_pairwise (fun b c _ _ hbc hcb => UInt64.le_antisymm hcb hbc) hranked hfalls
    ((h.perm.map Flow.bytes).trans hperm)

/-- The pointers `out` are those to the top `n` flows. -/
structure TopList (t : FlowTable) (n : ℕ) (out : List ℕ) : Prop where
  length : out.length = min n t.count
  used : ∀ i ∈ out, i < t.capacity ∧ (t.slot i).inUse = true
  nodup : out.Nodup
  first : ∀ ranking, Ranking t ranking → out.map t.slot = ranking.take n

section ranking

variable {w : ℕ} {t t' : FlowTable}

theorem FlowTable.Inv.map_iterate (h : t.Inv w) :
    (t.iterate (t.capacity + 1) 0).map t.slot = t.entries := by
  have hslots : (List.range' 0 t.capacity).map t.slot = t.slots := by
    apply List.ext_getElem
    · rw [List.length_map, List.length_range', h.length]
    · intro i hi hi'
      rw [List.getElem_map, List.getElem_range', Nat.zero_add, Nat.one_mul, FlowTable.slot,
        List.getD_eq_getElem?_getD, List.getElem?_eq_getElem hi', Option.getD_some]
  have hused : t.iterate (t.capacity + 1) 0 =
      (List.range' 0 t.capacity).filter ((fun f : Flow => f.inUse) ∘ t.slot) :=
    FlowTable.iterate_eq t _ 0 (Nat.lt_succ_self _)
  rw [hused, ← List.filter_map, hslots]
  rfl

theorem FlowTable.Inv.length_iterate (h : t.Inv w) :
    (t.iterate (t.capacity + 1) 0).length = t.count := by
  rw [h.count, ← h.map_iterate, List.length_map]

theorem FlowTable.Inv.eq_of_rankAt (h : t.Inv w) : ∀ i ∈ t.iterate (t.capacity + 1) 0,
    ∀ j ∈ t.iterate (t.capacity + 1) 0, rankAt t i j = .eq → i = j := by
  intro i hi j hj heq
  exact h.unique ((t.iterate_spec.2 i).mp hi).2 ((t.iterate_spec.2 j).mp hj).2 (key_eq_of_rankCmp heq)

theorem FlowTable.Inv.eq_of_rankCmp (h : t.Inv w) {f g : Flow} (hf : f ∈ t.entries) (hg : g ∈ t.entries)
    (heq : rankCmp f g = .eq) : f = g := by
  rw [← h.map_iterate] at hf hg
  obtain ⟨i, hi, rfl⟩ := List.mem_map.mp hf
  obtain ⟨j, hj, rfl⟩ := List.mem_map.mp hg
  rw [h.eq_of_rankAt i hi j hj heq]

theorem Above.le {f g : Flow} (h : Above f g) : Le rankCmp f g := by
  unfold Le
  rw [rankCmp_lt_iff.mpr h]
  rfl

/-- A table has one ranking only. -/
theorem Ranking.unique (h : t.Inv w) {l l' : List Flow} (hl : Ranking t l) (hl' : Ranking t l') :
    l = l' := by
  have hanti : ∀ f g, f ∈ l → g ∈ l' → Le rankCmp f g → Le rankCmp g f → f = g := by
    intro f g hf hg hfg hgf
    apply h.eq_of_rankCmp (hl.perm.mem_iff.mp hf) (hl'.perm.mem_iff.mp hg)
    exact RankHeap.eq_of_le_of_le hfg hgf
  exact List.Perm.eq_of_pairwise hanti (hl.sorted.imp Above.le) (hl'.sorted.imp Above.le)
    (hl.perm.trans hl'.perm.symm)

theorem Ranking.congr {l : List Flow} (h : Ranking t l) (hperm : t.entries.Perm t'.entries) : Ranking t' l :=
  ⟨h.perm.trans hperm, h.sorted⟩

theorem FlowTable.Inv.ranking (h : t.Inv w) (qsort : Qsort) :
    Ranking t ((qsort.run (rankAt t) (t.iterate (t.capacity + 1) 0)).map t.slot) := by
  have hperm := qsort.perm (rankAt t) (t.iterate (t.capacity + 1) 0)
  have hnodup := hperm.nodup_iff.mpr t.iterate_spec.1
  refine ⟨h.map_iterate ▸ hperm.map t.slot, List.pairwise_map.mpr ?_⟩
  apply ((qsort.sorted (rankAt t) _).and hnodup).imp_of_mem
  -- distinct pointers do not compare as equal
  rintro i j hi hj ⟨hle, hne⟩
  rcases Ordering.isLE_iff_eq_lt_or_eq_eq.mp hle with hlt | heq
  · exact rankCmp_lt_iff.mp hlt
  · exact absurd (h.eq_of_rankAt i (hperm.mem_iff.mp hi) j (hperm.mem_iff.mp hj) heq) hne

theorem kept_of_take (t : FlowTable) {n : ℕ} (hn : 0 < n) (ptrs : List ℕ) :
    RankHeap.Kept (rankAt t) n ptrs (ptrs.foldl (keepFlow t n) []) := by
  rw [keepFlow_eq]
  exact RankHeap.Kept.foldl hn ptrs .nil

/-- **The top flows are the first of the ranking.** -/
theorem FlowTable.Inv.topN (h : t.Inv w) (qsort : Qsort) (n : ℕ) :
    TopList t n (flowTableTopN t qsort n) := by
  unfold flowTableTopN
  by_cases hn : n = 0
  · rw [if_pos hn, hn]
    refine ⟨(Nat.zero_min _).symm, ?_, List.nodup_nil, fun _ _ => rfl⟩
    intro i hi
    exact absurd hi List.not_mem_nil
  rw [if_neg hn]
  have hkept := kept_of_take t (Nat.pos_of_ne_zero hn) (t.iterate (t.capacity + 1) 0)
  have hperm := qsort.perm (rankAt t) ((t.iterate (t.capacity + 1) 0).foldl (keepFlow t n) [])
  have htake := hkept.sorted_take h.eq_of_rankAt hperm (qsort.sorted _ _)
    (qsort.perm (rankAt t) (t.iterate (t.capacity + 1) 0)) (qsort.sorted _ _)
  have hall := qsort.perm (rankAt t) (t.iterate (t.capacity + 1) 0)
  rw [htake]
  refine ⟨?_, ?_, ?_, ?_⟩
  · rw [List.length_take, hall.length_eq, h.length_iterate]
  · intro i hi
    apply (t.iterate_spec.2 i).mp
    exact hall.mem_iff.mp (List.mem_of_mem_take hi)
  · exact (hall.nodup_iff.mpr t.iterate_spec.1).sublist (List.take_sublist n _)
  · intro ranking hranking
    rw [List.map_take, Ranking.unique h (h.ranking qsort) hranking]

/-- The root of the heap ranks lowest of the flows kept so far. -/
theorem root_of_take (t : FlowTable) {n : ℕ} (hn : 0 < n) (ptrs : List ℕ) :
    ∀ i ∈ ptrs.foldl (keepFlow t n) [],
      rankCmp (t.slot i) (t.slot ((ptrs.foldl (keepFlow t n) []).getD 0 0)) ≠ .gt := by
  intro i hi
  exact Ordering.isLE_iff_ne_gt.mp ((kept_of_take t hn ptrs).heaped.le_root_of_mem hi)

theorem FlowTable.Inv.entries_perm {w' : ℕ} (h : t.Inv w) (h' : t'.Inv w')
    (hsame : ∀ f, f ∈ t.entries ↔ f ∈ t'.entries) : t.entries.Perm t'.entries := by
  have hnodup : t.entries.Nodup := List.Nodup.of_map _ h.nodup
  have hnodup' : t'.entries.Nodup := List.Nodup.of_map _ h'.nodup
  exact (List.perm_ext_iff_of_nodup hnodup hnodup').mpr hsame

theorem topN_congr {w' : ℕ} (h : t.Inv w) (h' : t'.Inv w')
    (hsame : ∀ f, f ∈ t.entries ↔ f ∈ t'.entries) (qsort qsort' : Qsort) (n : ℕ) :
    (flowTableTopN t qsort n).map t.slot = (flowTableTopN t' qsort' n).map t'.slot := by
  have hranking := h.ranking qsort
  rw [(h.topN qsort n).first _ hranking,
    (h'.topN qsort' n).first _ (hranking.congr (h.entries_perm h' hsame))]

/-! ### The theorem -/

/-- `key_cmp` is a total order that tells keys apart as `key_equal` does. -/
structure KeyOrder : Prop where
  equal : ∀ a b, keyCmp a b = .eq ↔ keyEqual a b = true
  swap : ∀ a b, keyCmp a b = (keyCmp b a).swap
  trans : ∀ a b c, keyCmp a b = .lt → keyCmp b c = .lt → keyCmp a c = .lt

/-- `rank_cmp` is a strict total order on entries with distinct keys. -/
structure RankOrder : Prop where
  above : ∀ f g, rankCmp f g = .lt ↔ Above f g
  irrefl : ∀ f, ¬ Above f f
  trans : ∀ f g k, Above f g → Above g k → Above f k
  total : ∀ f g, f.key ≠ g.key → Above f g ∨ Above g f

theorem keyOrder : KeyOrder where
  equal _ _ := keyCmp_eq_iff.trans keyEqual_iff.symm
  swap _ _ := Std.OrientedOrd.eq_swap (α := FlowKey)
  trans _ _ _ := @Std.TransCmp.lt_trans _ (compare : FlowKey → FlowKey → Ordering) _ _ _ _

theorem rankOrder : RankOrder where
  above _ _ := rankCmp_lt_iff
  irrefl f h := by
    have hself : rankCmp f f = .eq := Std.ReflCmp.compare_self
    rw [← rankCmp_lt_iff, hself] at h
    exact absurd h (by decide)
  trans f g k hfg hgk := by
    rw [← rankCmp_lt_iff] at hfg hgk ⊢
    exact Std.TransCmp.lt_trans hfg hgk
  total f g hne := by
    rw [← rankCmp_lt_iff, ← rankCmp_lt_iff]
    rcases h : rankCmp f g with _ | _ | _
    · exact .inl rfl
    · exact absurd (key_eq_of_rankCmp h) hne
    · exact .inr (Std.OrientedCmp.lt_of_gt h)

/-- **The top flows of a table depend on its entries only.** -/
theorem flowTableTopN_ranking (h : t.Reached w) (qsort : Qsort) (n : ℕ) :
    ((∃ ranking, Ranking t ranking) ∧ TopList t n (flowTableTopN t qsort n)) ∧
      (∀ {w' : ℕ} {t' : FlowTable}, t'.Reached w' → (∀ f, f ∈ t.entries ↔ f ∈ t'.entries) →
        (flowTableTopN t' qsort n).map t'.slot = (flowTableTopN t qsort n).map t.slot) ∧
      KeyOrder ∧ RankOrder ∧
      (0 < n → ∀ k, ∀ i ∈ ((t.iterate (t.capacity + 1) 0).take k).foldl (keepFlow t n) [],
        rankCmp (t.slot i) (t.slot ((((t.iterate (t.capacity + 1) 0).take k).foldl (keepFlow t n) []).getD 0 0)) ≠
          .gt) := by
  refine ⟨⟨⟨_, h.inv.ranking qsort⟩, h.inv.topN qsort n⟩, ?_, keyOrder, rankOrder, ?_⟩
  · intro w' t' h' hsame
    exact (topN_congr h.inv h'.inv hsame qsort qsort n).symm
  · intro hn k
    exact root_of_take t hn _

theorem flowTableTopN_ranking_ports : ∃ t : FlowTable, t.count = 3 ∧
    TopList t 2 (flowTableTopN t default 2) := by
  obtain ⟨t₀, t, answers, f, hinit, hrun, -, hcount, -⟩ := @exists_ports [1, 2, 3] 1 3 16 (by decide +kernel)
  exact ⟨t, hcount, (flowTableTopN_ranking ⟨16, true, t₀, _, answers, hinit, hrun⟩ default 2).1.2⟩

end ranking

end Pcapstat
