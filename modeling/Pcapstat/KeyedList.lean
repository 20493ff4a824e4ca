import Mathlib

/-! # Lists with keys

A list whose elements have keys is a finite map that is searched from front to back.  `update` changes the
element of a key in its place, or puts a new one behind the others.

* Up to order, `update` replaces one element (`exists_focus`).
* Elements with one key may be merged by an associative operation (`Merging`).  Whether they are collected in
  one go, or in parts that are merged afterwards, is all the same (`collect_append`). -/

namespace KeyedList

variable {α κ : Type} [DecidableEq κ] (key : α → κ)

/-- The element with key `k`. -/
def find (k : κ) (l : List α) : Option α := l.find? fun a => key a = k

/-- What `g` makes of the element with key `k`, or of none. -/
def update (k : κ) (g : Option α → α) : List α → List α
  | [] => [g none]
  | a :: l => if key a = k then g (some a) :: l else a :: update k g l

section focus

variable {key} {k : κ} {g : Option α → α} {l l' rest : List α}

theorem find_cons_eq (a : α) (h : key a = k) : find key k (a :: l) = some a :=
  List.find?_cons_of_pos (decide_eq_true h)

theorem find_cons_ne (a : α) (h : key a ≠ k) : find key k (a :: l) = find key k l :=
  List.find?_cons_of_neg (by rw [decide_eq_true_eq]; exact h)

/-- **Everything but the element of the key stays.** -/
theorem exists_focus (key : α → κ) (k : κ) (g : Option α → α) (l : List α) : ∃ rest,
    l.Perm ((find key k l).toList ++ rest) ∧ (update key k g l).Perm (g (find key k l) :: rest) := by
  induction l with
  | nil => exact ⟨[], .refl _, .refl _⟩
  | cons a l ih =>
      unfold update
      by_cases h : key a = k
      · rw [find_cons_eq a h, if_pos h]
        exact ⟨l, .refl _, .refl _⟩
      · obtain ⟨rest, hold, hnew⟩ := ih
        rw [find_cons_ne a h, if_neg h]
        refine ⟨a :: rest, ?_, ?_⟩
        · exact (hold.cons a).trans List.perm_middle.symm
        · exact (hnew.cons a).trans (.swap _ _ _)

/-- The same for any way of setting the element apart. -/
theorem update_perm (h : l.Perm ((find key k l).toList ++ rest)) :
    (update key k g l).Perm (g (find key k l) :: rest) := by
  obtain ⟨rest', hold, hnew⟩ := exists_focus key k g l
  have hrest : rest'.Perm rest := (List.perm_append_left_iff _).mp (hold.symm.trans h)
  exact hnew.trans (hrest.cons _)

theorem find_eq_some (hnodup : (l.map key).Nodup) {a : α} : find key k l = some a ↔ a ∈ l ∧ key a = k := by
  constructor
  · intro h
    have hkey := List.find?_some (p := fun a => decide (key a = k)) h
    exact ⟨List.mem_of_find?_eq_some h, of_decide_eq_true hkey⟩
  · rintro ⟨ha, rfl⟩
    induction l with
    | nil => exact absurd ha List.not_mem_nil
    | cons b l ih =>
        rw [List.map_cons, List.nodup_cons] at hnodup
        rcases List.mem_cons.mp ha with rfl | ha
        · exact find_cons_eq a rfl
        · have hne : key b ≠ key a := by
            intro h
            exact hnodup.1 (h ▸ List.mem_map_of_mem ha)
          rw [find_cons_ne b hne]
          exact ih hnodup.2 ha

theorem find_perm (hperm : l.Perm l') (hnodup : (l.map key).Nodup) : find key k l = find key k l' := by
  have hnodup' : (l'.map key).Nodup := (hperm.map key).nodup_iff.mp hnodup
  apply Option.ext
  intro a
  rw [find_eq_some hnodup, find_eq_some hnodup', hperm.mem_iff]

/-- Lists in which the same elements are found are the same up to order. -/
theorem perm_of_find (hnodup : (l.map key).Nodup) (hnodup' : (l'.map key).Nodup)
    (h : ∀ k, find key k l = find key k l') : l.Perm l' := by
  rw [List.perm_ext_iff_of_nodup hnodup.of_map hnodup'.of_map]
  intro a
  have hmem := @find_eq_some α κ _ key (key a) l hnodup a
  have hmem' := @find_eq_some α κ _ key (key a) l' hnodup' a
  rw [h, hmem'] at hmem
  simpa using hmem.symm

end focus

/-! ### Merging -/

/-- `a` is merged into the element with its key, or put behind the others. -/
def put (op : α → α → α) (l : List α) (a : α) : List α :=
    update key (key a) (fun o => o.elim a fun b => op b a) l

/-- The elements of `m` are merged into `l`. -/
def merge (op : α → α → α) (l m : List α) : List α := m.foldl (put key op) l

/-- One element for every key. -/
def collect (op : α → α → α) (as : List α) : List α := merge key op [] as

/-- Elements with one key may be merged. -/
structure Merging (op : α → α → α) : Prop where
  key_op : ∀ a b, key (op a b) = key a
  assoc : ∀ a b c, op (op a b) c = op a (op b c)

section merging

variable {key} {op : α → α → α} {k : κ} {l l' m m' as bs : List α} {a b c : α}

theorem put_cons_eq (h : key c = key a) : put key op (c :: l) a = op c a :: l := by
  unfold put update
  exact if_pos h

theorem put_cons_ne (h : key c ≠ key a) : put key op (c :: l) a = c :: put key op l a := by
  unfold put
  rw [update, if_neg h]

theorem merge_append (l m m' : List α) : merge key op l (m ++ m') = merge key op (merge key op l m) m' :=
  List.foldl_append

variable (hop : Merging key op)
include hop

theorem map_key_put (l : List α) (a : α) :
    (put key op l a).map key = if key a ∈ l.map key then l.map key else l.map key ++ [key a] := by
  induction l with
  | nil => rfl
  | cons c l ih =>
      by_cases h : key c = key a
      · rw [put_cons_eq h, List.map_cons, hop.key_op, List.map_cons, h, if_pos List.mem_cons_self]
      · rw [put_cons_ne h, List.map_cons, ih, List.map_cons]
        by_cases hmem : key a ∈ l.map key
        · rw [if_pos hmem, if_pos (List.mem_cons_of_mem _ hmem)]
        · have hno : key a ∉ key c :: l.map key := by
            rw [List.mem_cons]
            exact not_or.mpr ⟨Ne.symm h, hmem⟩
          rw [if_neg hmem, if_neg hno, List.cons_append]

theorem nodup_put (h : (l.map key).Nodup) (a : α) : ((put key op l a).map key).Nodup := by
  rw [map_key_put hop]
  split
  · exact h
  · rename_i hmem
    rw [List.nodup_append]
    refine ⟨h, List.nodup_singleton _, ?_⟩
    rintro x hx y hy rfl
    exact hmem (List.mem_singleton.mp hy ▸ hx)

theorem nodup_merge (h : (l.map key).Nodup) (m : List α) : ((merge key op l m).map key).Nodup := by
  induction m generalizing l with
  | nil => exact h
  | cons a m ih => exact ih (nodup_put hop h a)

theorem nodup_collect (as : List α) : ((collect key op as).map key).Nodup := by
  have hnil : (([] : List α).map key).Nodup := List.nodup_nil
  exact nodup_merge hop hnil as

theorem mem_keys_put (l : List α) (a : α) : key a ∈ (put key op l a).map key := by
  rw [map_key_put hop]
  split
  · assumption
  · exact List.mem_append_right _ (List.mem_singleton_self _)

/-- Elements with one key may be merged before they are put. -/
theorem put_put (h : key b = key a) (l : List α) : put key op (put key op l a) b = put key op l (op a b) := by
  induction l with
  | nil =>
      show put key op [a] b = [op a b]
      exact put_cons_eq h.symm
  | cons c l ih =>
      have hkey := hop.key_op a b
      by_cases hc : key c = key a
      · rw [put_cons_eq hc, put_cons_eq (by rw [hop.key_op, hc, h]), put_cons_eq (hc.trans hkey.symm), hop.assoc]
      · rw [put_cons_ne hc, put_cons_ne (by rwa [h]), put_cons_ne (by rwa [hkey]), ih]

/-- Elements with different keys may be exchanged, if the key of one is there. -/
theorem put_comm (h : key a ≠ key b) (hmem : key b ∈ l.map key) :
    put key op (put key op l a) b = put key op (put key op l b) a := by
  induction l with
  | nil => exact absurd hmem List.not_mem_nil
  | cons c l ih =>
      by_cases ha : key c = key a
      · have hb : key c ≠ key b := ha ▸ h
        rw [put_cons_eq ha, put_cons_ne (by rwa [hop.key_op]), put_cons_ne hb, put_cons_eq ha]
      by_cases hb : key c = key b
      · rw [put_cons_ne ha, put_cons_eq hb, put_cons_eq hb, put_cons_ne (by rwa [hop.key_op])]
      · rw [put_cons_ne ha, put_cons_ne hb, put_cons_ne hb, put_cons_ne ha]
        rw [List.map_cons, List.mem_cons] at hmem
        rw [ih (hmem.resolve_left (Ne.symm hb))]

theorem merge_put_comm (hmem : key b ∈ l.map key) (hnot : key b ∉ m.map key) :
    merge key op (put key op l b) m = put key op (merge key op l m) b := by
  induction m generalizing l with
  | nil => rfl
  | cons c m ih =>
      rw [List.map_cons, List.mem_cons, not_or] at hnot
      have hin : key b ∈ (put key op l c).map key := by
        rw [map_key_put hop]
        split
        · exact hmem
        · exact List.mem_append_left _ hmem
      calc merge key op (put key op l b) (c :: m) = merge key op (put key op (put key op l b) c) m := rfl
        _ = merge key op (put key op (put key op l c) b) m := by rw [put_comm hop (Ne.symm hnot.1) hmem]
        _ = put key op (merge key op (put key op l c) m) b := ih hin hnot.2

/-- An element may be put before or after a merge. -/
theorem merge_put (h : (m.map key).Nodup) (l : List α) (b : α) :
    merge key op l (put key op m b) = put key op (merge key op l m) b := by
  induction m generalizing l with
  | nil => rfl
  | cons c m ih =>
      rw [List.map_cons, List.nodup_cons] at h
      by_cases hc : key c = key b
      · rw [put_cons_eq hc]
        have hin : key b ∈ (put key op l c).map key := hc ▸ mem_keys_put hop l c
        calc merge key op l (op c b :: m) = merge key op (put key op l (op c b)) m := rfl
          _ = merge key op (put key op (put key op l c) b) m := by rw [put_put hop hc.symm]
          _ = put key op (merge key op (put key op l c) m) b := merge_put_comm hop hin (hc ▸ h.1)
      · rw [put_cons_ne hc]
        exact ih h.2 (put key op l c)

theorem merge_collect (l as : List α) : merge key op l (collect key op as) = merge key op l as := by
  induction as using List.reverseRecOn with
  | nil => rfl
  | append_singleton as a ih =>
      have hcollect : collect key op (as ++ [a]) = put key op (collect key op as) a := merge_append [] as [a]
      rw [hcollect, merge_put hop (nodup_collect hop as), ih, merge_append]
      rfl

/-- **A row is collected in parts.** -/
theorem collect_append (as bs : List α) :
    collect key op (as ++ bs) = merge key op (collect key op as) (collect key op bs) := by
  rw [merge_collect hop]
  exact merge_append [] as bs

theorem find_put (k : κ) (l : List α) (a : α) :
    find key k (put key op l a) = if key a = k then some ((find key k l).elim a fun b => op b a) else find key k l := by
  induction l with
  | nil =>
      show find key k [a] = _
      by_cases ha : key a = k
      · rw [find_cons_eq a ha, if_pos ha]
        rfl
      · rw [find_cons_ne a ha, if_neg ha]
  | cons c l ih =>
      by_cases hc : key c = key a
      · rw [put_cons_eq hc]
        have hkey := hop.key_op c a
        by_cases ha : key a = k
        · rw [if_pos ha, find_cons_eq _ (by rw [hkey, hc, ha]), find_cons_eq _ (hc.trans ha)]
          rfl
        · rw [if_neg ha, find_cons_ne _ (by rwa [hkey, hc]), find_cons_ne _ (by rwa [hc])]
      · rw [put_cons_ne hc]
        by_cases hk : key c = k
        · have ha : key a ≠ k := fun ha => hc (hk.trans ha.symm)
          rw [find_cons_eq c hk, find_cons_eq c hk, if_neg ha]
        · rw [find_cons_ne c hk, find_cons_ne c hk, ih]

theorem find_merge (h : (m.map key).Nodup) (k : κ) (l : List α) :
    find key k (merge key op l m) = Option.merge op (find key k l) (find key k m) := by
  induction m generalizing l with
  | nil =>
      show find key k l = _
      cases find key k l <;> rfl
  | cons a m ih =>
      rw [List.map_cons, List.nodup_cons] at h
      show find key k (merge key op (put key op l a) m) = _
      rw [ih h.2, find_put hop]
      by_cases ha : key a = k
      · have hnone : find key k m = none := by
          cases hfind : find key k m with
          | none => rfl
          | some b =>
              obtain ⟨hb, hkb⟩ := (find_eq_some h.2).mp hfind
              have hmem := List.mem_map_of_mem (f := key) hb
              rw [hkb, ← ha] at hmem
              exact absurd hmem h.1
        rw [if_pos ha, find_cons_eq a ha, hnone]
        cases find key k l <;> rfl
      · rw [if_neg ha, find_cons_ne a ha]

theorem merge_perm (hl : l.Perm l') (hm : m.Perm m') (hnodup : (l.map key).Nodup) (hnodup' : (m.map key).Nodup) :
    (merge key op l m).Perm (merge key op l' m') := by
  have hnodup₁ : (l'.map key).Nodup := (hl.map key).nodup_iff.mp hnodup
  have hnodup₂ : (m'.map key).Nodup := (hm.map key).nodup_iff.mp hnodup'
  apply perm_of_find (nodup_merge hop hnodup m) (nodup_merge hop hnodup₁ m')
  intro k
  rw [find_merge hop hnodup', find_merge hop hnodup₂, find_perm hl hnodup, find_perm hm hnodup']

end merging

end KeyedList
