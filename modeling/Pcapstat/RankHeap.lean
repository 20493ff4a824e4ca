import Mathlib

/-! # Keeping the first entries of a ranking

A comparison ranks elements: `cmp a b` is `.lt` if `a` ranks above `b`.  Of a sequence of elements the
`n` that rank highest are kept in a binary heap, with the lowest of them at the root.

* The two loops that restore the heap (`siftUp`, `siftDown`) end with a heap (`Heaped`) if the
  elements are in order everywhere but around the place they start from (`UpOrder`, `DownOrder`).
* `offer` lets an element into the heap if it ranks above the root.  After any sequence of offers
  no element that was dropped ranks above one that was kept (`Kept`).
* So the heap, sorted, is the start of the whole ranking (`Kept.sorted_take`). -/

namespace RankHeap

/-! ### Ranking -/

section ranking

variable {α : Type} (cmp : α → α → Ordering)

/-- `a` does not rank below `b`. -/
def Le (a b : α) : Prop := (cmp a b).isLE = true

variable {cmp} {a b c : α}

theorem le_of_not_gt (h : cmp a b ≠ .gt) : Le cmp a b := Ordering.isLE_iff_ne_gt.mpr h

variable [Std.TransCmp cmp]

theorem Le.refl (a : α) : Le cmp a a := by
  have hself : cmp a a = .eq := Std.ReflCmp.compare_self
  rw [Le, hself]
  rfl

theorem Le.trans (hab : Le cmp a b) (hbc : Le cmp b c) : Le cmp a c := Std.TransCmp.isLE_trans hab hbc

theorem le_of_gt (h : cmp a b = .gt) : Le cmp b a := by
  rw [Le, Std.OrientedCmp.lt_of_gt h]
  rfl

theorem eq_of_le_of_le (hab : Le cmp a b) (hba : Le cmp b a) : cmp a b = .eq :=
  Ordering.eq_eq_of_isLE_of_isGE hab (Std.OrientedCmp.isGE_of_isLE hba)

theorem le_total (a b : α) : Le cmp a b ∨ Le cmp b a := by
  by_cases h : cmp a b = .gt
  · exact .inr (le_of_gt h)
  · exact .inl (le_of_not_gt h)

variable (cmp) in
/-- Sorts by the ranking. -/
def sort (l : List α) : List α := l.mergeSort fun a b => (cmp a b).isLE

omit [Std.TransCmp cmp] in
theorem sort_perm (l : List α) : (sort cmp l).Perm l := List.mergeSort_perm l _

theorem pairwise_sort (l : List α) : (sort cmp l).Pairwise (Le cmp) := by
  refine @List.pairwise_mergeSort _ (fun a b => (cmp a b).isLE) (fun a b c hab hbc => ?_)
    (fun a b => ?_) l
  · exact @Le.trans _ cmp _ _ _ _ hab hbc
  · exact (Bool.or_eq_true _ _).mpr (le_total a b)

end ranking

variable {α : Type} [Inhabited α]

/-! ### The loops -/

/-- `heap[i]` -/
def get (heap : List α) (i : ℕ) : α := heap.getD i default

def swap (heap : List α) (i j : ℕ) : List α := (heap.set i (get heap j)).set j (get heap i)

def parent (i : ℕ) : ℕ := (i - 1) / 2

section loops

variable (cmp : α → α → Ordering)

/-- `if (j < n && cmp(heap[j], heap[low]) > 0) low = j;` -/
def lower (heap : List α) (n low j : ℕ) : ℕ :=
  if j < n ∧ cmp (get heap j) (get heap low) = .gt then j else low

/-- The lowest of `i` and its children. -/
def lowest (heap : List α) (n i : ℕ) : ℕ :=
  lower cmp heap n (lower cmp heap n i (2 * i + 1)) (2 * i + 2)

theorem lower_eq (heap : List α) (n low j : ℕ) :
    lower cmp heap n low j = low ∨ lower cmp heap n low j = j ∧ j < n := by
  unfold lower
  split_ifs with h
  · exact .inr ⟨rfl, h.1⟩
  · exact .inl rfl

theorem lowest_eq (heap : List α) (n i : ℕ) : lowest cmp heap n i = i ∨
    i < lowest cmp heap n i ∧ lowest cmp heap n i < n ∧ parent (lowest cmp heap n i) = i := by
  unfold lowest parent
  rcases lower_eq cmp heap n (lower cmp heap n i (2 * i + 1)) (2 * i + 2) with h | ⟨h, hlt⟩
  · rw [h]
    rcases lower_eq cmp heap n i (2 * i + 1) with h' | ⟨h', hlt'⟩
    · exact .inl h'
    · rw [h']
      exact .inr (by omega)
  · rw [h]
    exact .inr (by omega)

def siftDown (heap : List α) (n i : ℕ) : List α :=
  if lowest cmp heap n i = i then heap
  else siftDown (swap heap i (lowest cmp heap n i)) n (lowest cmp heap n i)
termination_by n - i
decreasing_by
  rcases lowest_eq cmp heap n i with heq | ⟨hgt, hlt, -⟩
  · contradiction
  · omega

def siftUp (heap : List α) (i : ℕ) : List α :=
  if i = 0 then heap
  else if cmp (get heap i) (get heap (parent i)) = .gt then siftUp (swap heap i (parent i)) (parent i)
  else heap
termination_by i
decreasing_by
  unfold parent
  omega

/-- Lets `x` into the `n` that are kept, if it belongs there. -/
def offer (n : ℕ) (heap : List α) (x : α) : List α :=
  if heap.length < n then siftUp cmp (heap ++ [x]) heap.length
  else if cmp x (get heap 0) = .lt then siftDown cmp (heap.set 0 x) heap.length 0
  else heap

end loops

/-! ### Swapping -/

section swap

variable {heap : List α} {i j k : ℕ}

theorem get_eq_getElem (hi : i < heap.length) : get heap i = heap[i] := by
  rw [get, List.getD_eq_getElem?_getD, List.getElem?_eq_getElem hi, Option.getD_some]

theorem get_set (hi : i < heap.length) (a : α) (k : ℕ) :
    get (heap.set i a) k = if k = i then a else get heap k := by
  rw [get, List.getD_eq_getElem?_getD, List.getElem?_set]
  by_cases hk : k = i
  · rw [if_pos hk.symm, if_pos hi, if_pos hk, Option.getD_some]
  · rw [if_neg (Ne.symm hk), if_neg hk, get, List.getD_eq_getElem?_getD]

@[simp]
theorem length_swap (heap : List α) (i j : ℕ) : (swap heap i j).length = heap.length := by
  rw [swap, List.length_set, List.length_set]

theorem get_swap (hi : i < heap.length) (hj : j < heap.length) (k : ℕ) :
    get (swap heap i j) k = if k = j then get heap i else if k = i then get heap j else get heap k := by
  rw [swap, get_set (by rwa [List.length_set]), get_set hi]

theorem swap_perm (hi : i < heap.length) (hj : j < heap.length) : (swap heap i j).Perm heap := by
  rw [swap, get_eq_getElem hi, get_eq_getElem hj]
  exact List.set_set_perm hi hj

theorem parent_lt (hi : 0 < i) : parent i < i := by
  unfold parent
  omega

theorem mem_iff_get {a : α} : a ∈ heap ↔ ∃ i < heap.length, get heap i = a := by
  rw [List.mem_iff_getElem]
  constructor
  · rintro ⟨i, hi, rfl⟩
    exact ⟨i, hi, get_eq_getElem hi⟩
  · rintro ⟨i, hi, rfl⟩
    exact ⟨i, hi, (get_eq_getElem hi).symm⟩

end swap

/-! ### Heaps -/

variable (cmp : α → α → Ordering)

/-- No child ranks below its parent. -/
def Heaped (heap : List α) : Prop :=
  ∀ k, 0 < k → k < heap.length → Le cmp (get heap k) (get heap (parent k))

/-- In order but for `i` and its parent. -/
structure UpOrder (heap : List α) (i : ℕ) : Prop where
  except : ∀ k, 0 < k → k < heap.length → k ≠ i → Le cmp (get heap k) (get heap (parent k))
  grand : 0 < i → ∀ k, 0 < k → k < heap.length → parent k = i →
    Le cmp (get heap k) (get heap (parent i))

/-- In order but for `i` and its children. -/
structure DownOrder (heap : List α) (i : ℕ) : Prop where
  except : ∀ k, 0 < k → k < heap.length → parent k ≠ i → Le cmp (get heap k) (get heap (parent k))
  grand : 0 < i → ∀ k, 0 < k → k < heap.length → parent k = i →
    Le cmp (get heap k) (get heap (parent i))

section heaps

variable {cmp} [Std.TransCmp cmp] {heap : List α} {i : ℕ}

/-- The root ranks lowest. -/
theorem Heaped.le_root (h : Heaped cmp heap) : ∀ k < heap.length, Le cmp (get heap k) (get heap 0) := by
  intro k
  induction k using Nat.strong_induction_on with
  | _ k ih =>
      intro hk
      rcases Nat.eq_zero_or_pos k with rfl | hpos
      · exact .refl _
      · have hlt := parent_lt hpos
        exact (h k hpos hk).trans (ih (parent k) hlt (hlt.trans hk))

theorem UpOrder.swap (h : UpOrder cmp heap i) (hi : i < heap.length) (hpos : 0 < i)
    (hgt : cmp (get heap i) (get heap (parent i)) = .gt) :
    UpOrder cmp (RankHeap.swap heap i (parent i)) (parent i) := by
  have hlt := parent_lt hpos
  have hget := get_swap hi (hlt.trans hi)
  have hle := le_of_gt hgt
  constructor
  · intro k hk hlen hne
    rw [length_swap] at hlen
    have hklt := parent_lt hk
    rw [hget, hget, if_neg hne]
    by_cases hki : k = i
    · rw [if_pos hki, hki, if_pos rfl]
      exact hle
    rw [if_neg hki]
    by_cases hpp : parent k = parent i
    · rw [if_pos hpp]
      exact (hpp ▸ h.except k hk hlen hki).trans hle
    rw [if_neg hpp]
    by_cases hpi : parent k = i
    · rw [if_pos hpi]
      exact h.grand hpos k hk hlen hpi
    · rw [if_neg hpi]
      exact h.except k hk hlen hki
  · intro hp k hk hlen hkp
    rw [length_swap] at hlen
    have hlt' := parent_lt hp
    have hup := h.except (parent i) hp (hlt.trans hi) hlt.ne
    have hklt := parent_lt hk
    rw [hget (parent (parent i)), if_neg hlt'.ne, if_neg (hlt'.trans hlt).ne, hget k, if_neg (by omega)]
    by_cases hki : k = i
    · rw [if_pos hki]
      exact hup
    · rw [if_neg hki]
      exact (hkp ▸ h.except k hk hlen hki).trans hup

theorem siftUp_spec (h : UpOrder cmp heap i) (hi : i < heap.length) :
    Heaped cmp (siftUp cmp heap i) ∧ (siftUp cmp heap i).Perm heap := by
  fun_induction siftUp cmp heap i with
  | case1 heap =>
      refine ⟨?_, .refl _⟩
      intro k hk hlen
      exact h.except k hk hlen hk.ne'
  | case2 heap i hne hgt ih =>
      have hpos := Nat.pos_of_ne_zero hne
      have hlt := (parent_lt hpos).trans hi
      obtain ⟨hheap, hperm⟩ := ih (h.swap hi hpos hgt) (by rwa [length_swap])
      exact ⟨hheap, hperm.trans (swap_perm hi hlt)⟩
  | case3 heap i hne hle =>
      refine ⟨?_, .refl _⟩
      intro k hk hlen
      by_cases hki : k = i
      · rw [hki]
        exact le_of_not_gt hle
      · exact h.except k hk hlen hki

theorem le_lower (heap : List α) (n low j : ℕ) :
    Le cmp (get heap low) (get heap (lower cmp heap n low j)) ∧
      (j < n → Le cmp (get heap j) (get heap (lower cmp heap n low j))) := by
  unfold lower
  split_ifs with h
  · exact ⟨le_of_gt h.2, fun _ => .refl _⟩
  · refine ⟨.refl _, ?_⟩
    intro hj
    apply le_of_not_gt
    intro hgt
    exact h ⟨hj, hgt⟩

/-- The lowest ranks below no child, and not above the parent. -/
theorem le_lowest (heap : List α) (n i : ℕ) :
    Le cmp (get heap i) (get heap (lowest cmp heap n i)) ∧
      ∀ k, 0 < k → k < n → parent k = i → Le cmp (get heap k) (get heap (lowest cmp heap n i)) := by
  obtain ⟨hi, hl⟩ := @le_lower _ _ cmp _ heap n i (2 * i + 1)
  obtain ⟨hlow, hr⟩ := @le_lower _ _ cmp _ heap n (lower cmp heap n i (2 * i + 1)) (2 * i + 2)
  refine ⟨hi.trans hlow, ?_⟩
  intro k hk hkn hki
  have hchild : k = 2 * i + 1 ∨ k = 2 * i + 2 := by
    unfold parent at hki
    omega
  rcases hchild with rfl | rfl
  · exact (hl hkn).trans hlow
  · exact hr hkn

omit [Std.TransCmp cmp] in
theorem DownOrder.swap (h : DownOrder cmp heap i) {low : ℕ} (hlow : low < heap.length) (hgt : i < low)
    (hparent : parent low = i) (hle : Le cmp (get heap i) (get heap low))
    (hleast : ∀ k, 0 < k → k < heap.length → parent k = i → Le cmp (get heap k) (get heap low)) :
    DownOrder cmp (RankHeap.swap heap i low) low := by
  have hget := get_swap (hgt.trans hlow) hlow
  constructor
  · intro k hk hlen hne
    rw [length_swap] at hlen
    have hklt := parent_lt hk
    rw [hget (parent k), if_neg hne]
    by_cases hki : k = i
    · -- what came up does not rank below the parent of `i`
      subst hki
      rw [hget k, if_neg hgt.ne, if_pos rfl, if_neg hklt.ne]
      exact h.grand hk low (hk.trans hgt) hlow hparent
    by_cases hpi : parent k = i
    · rw [if_pos hpi, hget k, if_neg hki]
      by_cases hkl : k = low
      · rw [if_pos hkl]
        exact hle
      · rw [if_neg hkl]
        exact hleast k hk hlen hpi
    · have hkl : k ≠ low := by
        rintro rfl
        exact hpi hparent
      rw [if_neg hpi, hget k, if_neg hkl, if_neg hki]
      exact h.except k hk hlen hpi
  · intro _ k hk hlen hkp
    rw [length_swap] at hlen
    have hklt := parent_lt hk
    rw [hparent, hget i, if_neg hgt.ne, if_pos rfl, hget k, if_neg (by omega), if_neg (by omega), ← hkp]
    exact h.except k hk hlen (by omega)

theorem siftDown_spec {n : ℕ} (h : DownOrder cmp heap i) (hn : heap.length = n) (hi : i < n) :
    Heaped cmp (siftDown cmp heap n i) ∧ (siftDown cmp heap n i).Perm heap := by
  fun_induction siftDown cmp heap n i with
  | case1 heap i heq =>
      subst hn
      refine ⟨?_, .refl _⟩
      intro k hk hlen
      by_cases hki : parent k = i
      · have hle := (@le_lowest _ _ cmp _ heap heap.length i).2 k hk hlen hki
        rwa [heq, ← hki] at hle
      · exact h.except k hk hlen hki
  | case2 heap i hne ih =>
      subst hn
      obtain ⟨hle, hleast⟩ := @le_lowest _ _ cmp _ heap heap.length i
      obtain ⟨hgt, hlt, hparent⟩ := (lowest_eq cmp heap heap.length i).resolve_left hne
      obtain ⟨hheap, hperm⟩ := ih (h.swap hlt hgt hparent hle hleast) (length_swap _ _ _) hlt
      exact ⟨hheap, hperm.trans (swap_perm hi hlt)⟩

end heaps

/-! ### Keeping -/

section keeping

variable {cmp} {n : ℕ} {xs heap : List α}

variable (cmp n) in
/-- Of the elements `xs` those in `heap` are kept. -/
structure Kept (xs heap : List α) : Prop where
  heaped : Heaped cmp heap
  length : heap.length = min n xs.length
  split : ∃ dropped, xs.Perm (heap ++ dropped) ∧ ∀ d ∈ dropped, ∀ k ∈ heap, Le cmp k d

theorem Kept.nil : Kept cmp n [] ([] : List α) := by
  refine ⟨?_, by simp, [], .refl _, ?_⟩
  · intro k _ hk
    exact absurd hk (Nat.not_lt_zero k)
  · intro d hd
    exact absurd hd List.not_mem_nil

theorem Heaped.push (h : Heaped cmp heap) (x : α) : UpOrder cmp (heap ++ [x]) heap.length := by
  have hget : ∀ k < heap.length, get (heap ++ [x]) k = get heap k := by
    intro k hk
    rw [get, get, List.getD_eq_getElem?_getD, List.getD_eq_getElem?_getD, List.getElem?_append_left hk]
  constructor
  · intro k hk hlen hne
    rw [List.length_append, List.length_singleton] at hlen
    have hlt : k < heap.length := by omega
    rw [hget k hlt, hget _ ((parent_lt hk).trans hlt)]
    exact h k hk hlt
  · intro _ k hk hlen hkp
    rw [List.length_append, List.length_singleton] at hlen
    have hklt := parent_lt hk
    omega

theorem Heaped.replace (h : Heaped cmp heap) (hpos : 0 < heap.length) (x : α) :
    DownOrder cmp (heap.set 0 x) 0 := by
  constructor
  · intro k hk hlen hne
    rw [List.length_set] at hlen
    rw [get_set hpos, if_neg hk.ne', get_set hpos, if_neg hne]
    exact h k hk hlen
  · intro hlt
    exact absurd hlt (lt_irrefl 0)

variable [Std.TransCmp cmp]

theorem Heaped.le_root_of_mem (h : Heaped cmp heap) {a : α} (ha : a ∈ heap) : Le cmp a (get heap 0) := by
  obtain ⟨k, hk, rfl⟩ := mem_iff_get.mp ha
  exact h.le_root k hk

/-- While there is room, every element is kept. -/
theorem Kept.push (h : Kept cmp n xs heap) (hroom : heap.length < n) (x : α) :
    Kept cmp n (xs ++ [x]) (siftUp cmp (heap ++ [x]) heap.length) := by
  obtain ⟨dropped, hperm, -⟩ := h.split
  have hlen := h.length
  have hall := hperm.length_eq
  rw [List.length_append] at hall
  have hnone : dropped = [] := by
    apply List.length_eq_zero_iff.mp
    omega
  subst hnone
  obtain ⟨hheap, hsift⟩ := siftUp_spec (h.heaped.push x) (by simp)
  refine ⟨hheap, ?_, [], ?_, ?_⟩
  · rw [hsift.length_eq, List.length_append, List.length_append, List.length_singleton]
    omega
  · rw [List.append_nil] at hperm ⊢
    exact (hperm.append_right [x]).trans hsift.symm
  · intro d hd
    exact absurd hd List.not_mem_nil

/-- An element that ranks above the root takes its place: the root is dropped, and no element that
was kept ranks below it. -/
theorem Kept.replace (h : Kept cmp n xs heap) (hpos : 0 < heap.length) (hfull : n ≤ heap.length) {x : α}
    (hbeats : cmp x (get heap 0) = .lt) :
    Kept cmp n (xs ++ [x]) (siftDown cmp (heap.set 0 x) heap.length 0) := by
  obtain ⟨dropped, hperm, hle⟩ := h.split
  have hlen := h.length
  obtain ⟨hheap, hsift⟩ := siftDown_spec (h.heaped.replace hpos x) List.length_set hpos
  obtain ⟨root, rest, rfl⟩ := List.exists_cons_of_length_pos hpos
  have hset : (root :: rest).set 0 x = x :: rest := rfl
  rw [hset] at hsift hheap ⊢
  have hroot : Le cmp x root := by
    unfold Le
    rw [show cmp x root = .lt from hbeats]
    rfl
  refine ⟨hheap, ?_, root :: dropped, ?_, ?_⟩
  · rw [hsift.length_eq, List.length_append, List.length_singleton]
    simp only [List.length_cons] at hlen hfull ⊢
    omega
  · calc (xs ++ [x]).Perm ((root :: rest ++ dropped) ++ [x]) := hperm.append_right [x]
      _ |>.Perm (x :: (root :: rest ++ dropped)) := List.perm_append_singleton _ _
      _ |>.Perm (x :: (rest ++ root :: dropped)) := List.perm_middle.symm.cons x
      _ |>.Perm (siftDown cmp (x :: rest) (root :: rest).length 0 ++ root :: dropped) :=
        (hsift.append_right _).symm
  · intro d hd k hk
    have hkroot : Le cmp k root := by
      rcases List.mem_cons.mp (hsift.mem_iff.mp hk) with rfl | hk
      · exact hroot
      · exact h.heaped.le_root_of_mem (List.mem_cons_of_mem root hk)
    rcases List.mem_cons.mp hd with rfl | hd
    · exact hkroot
    · exact hkroot.trans (hle d hd root List.mem_cons_self)

/-- An element that ranks below the root is dropped. -/
theorem Kept.drop (h : Kept cmp n xs heap) (hfull : n ≤ heap.length) {x : α} (hrank : Le cmp (get heap 0) x) :
    Kept cmp n (xs ++ [x]) heap := by
  obtain ⟨dropped, hperm, hle⟩ := h.split
  have hlen := h.length
  refine ⟨h.heaped, ?_, x :: dropped, ?_, ?_⟩
  · rw [List.length_append, List.length_singleton]
    omega
  · exact (List.perm_append_singleton x xs).trans ((hperm.cons x).trans List.perm_middle.symm)
  · intro d hd k hk
    rcases List.mem_cons.mp hd with rfl | hd
    · exact (h.heaped.le_root_of_mem hk).trans hrank
    · exact hle d hd k hk

/-- **Another element is offered.** -/
theorem Kept.offer (h : Kept cmp n xs heap) (hn : 0 < n) (x : α) :
    Kept cmp n (xs ++ [x]) (RankHeap.offer cmp n heap x) := by
  unfold RankHeap.offer
  split_ifs with hroom hbeats
  · exact h.push hroom x
  · exact h.replace (by omega) (by omega) hbeats
  · apply h.drop (by omega)
    apply le_of_not_gt
    intro hgt
    exact hbeats (Std.OrientedCmp.lt_of_gt hgt)

theorem Kept.foldl (hn : 0 < n) (ys : List α) : ∀ {xs heap : List α}, Kept cmp n xs heap →
    Kept cmp n (xs ++ ys) (ys.foldl (RankHeap.offer cmp n) heap) := by
  induction ys with
  | nil =>
      intro xs heap h
      rw [List.append_nil]
      exact h
  | cons y ys ih =>
      intro xs heap h
      have hys := ih (h.offer hn y)
      rwa [List.append_assoc] at hys

/-- **Sorted, the kept elements are the start of the whole ranking.** -/
theorem Kept.sorted_take (h : Kept cmp n xs heap) (hstrict : ∀ a ∈ xs, ∀ b ∈ xs, cmp a b = .eq → a = b)
    {top whole : List α} (htop : top.Perm heap) (hsorted : top.Pairwise (Le cmp)) (hwhole : whole.Perm xs)
    (hranked : whole.Pairwise (Le cmp)) : top = whole.take n := by
  obtain ⟨dropped, hperm, hle⟩ := h.split
  have hlen := h.length
  have hd := @sort_perm _ cmp dropped
  have hall : (top ++ sort cmp dropped).Pairwise (Le cmp) := by
    refine List.pairwise_append.mpr ⟨hsorted, pairwise_sort dropped, ?_⟩
    intro k hk d hdm
    exact hle d (hd.mem_iff.mp hdm) k (htop.mem_iff.mp hk)
  have hsame : (top ++ sort cmp dropped).Perm whole :=
    (htop.append hd).trans (hperm.symm.trans hwhole.symm)
  have hanti : ∀ a b, a ∈ top ++ sort cmp dropped → b ∈ whole → Le cmp a b → Le cmp b a → a = b := by
    intro a b ha hb hab hba
    exact hstrict a (hwhole.mem_iff.mp (hsame.mem_iff.mp ha)) b (hwhole.mem_iff.mp hb)
      (eq_of_le_of_le hab hba)
  rw [← hsame.eq_of_pairwise hanti hall hranked]
  by_cases hn : heap.length = n
  · exact (List.take_left' (htop.length_eq.trans hn)).symm
  · have hnone : dropped = [] := by
      have hx := hperm.length_eq
      rw [List.length_append] at hx
      apply List.length_eq_zero_iff.mp
      omega
    have htoplen := htop.length_eq
    rw [hnone, sort, List.mergeSort_nil, List.append_nil, List.take_of_length_le (by omega)]

end keeping

end RankHeap
