import Mathlib

/-! # Direct-mapped stores

A store with one slot for each value of a hash.  Some of the items that pass write their slot and
overwrite whatever was there; nothing is searched and nothing is evicted.  So a slot holds what
its last writer left (`LastWriter.run`), or is still as it was at the start. -/

namespace DirectMapped

/-- Which items write, where and what. -/
structure Scheme (α β ι : Type) where
  writes : α → Bool
  slot : α → ι
  entry : α → β

section last

variable {α : Type} {P : α → Prop} {as pre post pre' post' : List α} {a a' : α}

theorem last_unique (h : pre ++ a :: post = pre' ++ a' :: post') (ha : P a) (ha' : P a')
    (hpost : ∀ b ∈ post, ¬ P b) (hpost' : ∀ b ∈ post', ¬ P b) : a = a' ∧ post = post' := by
  rw [List.append_eq_append_iff] at h
  obtain ⟨mid, -, h⟩ | ⟨mid, -, h⟩ := h
  · cases mid with
    | nil => exact List.cons.inj h
    | cons b mid =>
        have htail : post = mid ++ a' :: post' := (List.cons.inj h).2
        rw [htail] at hpost
        exact absurd ha' (hpost a' (List.mem_append_right mid List.mem_cons_self))
  · cases mid with
    | nil =>
        obtain ⟨h₁, h₂⟩ := List.cons.inj h
        exact ⟨h₁.symm, h₂.symm⟩
    | cons b mid =>
        have htail : post' = mid ++ a :: post := (List.cons.inj h).2
        rw [htail] at hpost'
        exact absurd ha (hpost' a (List.mem_append_right mid List.mem_cons_self))

/-- There is a last item with a property, or none has it. -/
theorem exists_last (P : α → Prop) (as : List α) :
    (∃ pre a post, as = pre ++ a :: post ∧ P a ∧ ∀ b ∈ post, ¬ P b) ∨ ∀ a ∈ as, ¬ P a := by
  induction as with
  | nil =>
      right
      intro a ha
      exact absurd ha List.not_mem_nil
  | cons b as ih =>
      obtain ⟨pre, a, post, rfl, ha, hpost⟩ | hnone := ih
      · exact .inl ⟨b :: pre, a, post, rfl, ha, hpost⟩
      · by_cases hb : P b
        · exact .inl ⟨[], b, as, rfl, hb, hnone⟩
        · right
          intro a ha
          obtain rfl | ha := List.mem_cons.mp ha
          · exact hb
          · exact hnone a ha

end last

namespace Scheme

variable {α β ι : Type}

section store

variable [DecidableEq ι] (S : Scheme α β ι)

/-- The store after one item. -/
def store (m : ι → β) (a : α) : ι → β :=
  if S.writes a then Function.update m (S.slot a) (S.entry a) else m

/-- The store after some items. -/
def run (m : ι → β) (as : List α) : ι → β := as.foldl S.store m

end store

/-- `a` is the last of `as` to write the slot `i`; `post` has passed since. -/
structure LastWriter (S : Scheme α β ι) (i : ι) (as : List α) (a : α) (post : List α) : Prop where
  split : ∃ pre, as = pre ++ a :: post
  writes : S.writes a = true
  slot : S.slot a = i
  untouched : ∀ b ∈ post, S.writes b = true → S.slot b ≠ i

theorem exists_lastWriter (S : Scheme α β ι) (i : ι) (as : List α) :
    (∃ a post, S.LastWriter i as a post) ∨ ∀ b ∈ as, S.writes b = true → S.slot b ≠ i := by
  obtain ⟨pre, a, post, rfl, ⟨hw, hi⟩, hpost⟩ | hnone :=
    exists_last (fun b => S.writes b = true ∧ S.slot b = i) as
  · refine .inl ⟨a, post, ⟨pre, rfl⟩, hw, hi, ?_⟩
    intro b hb hw' hi'
    exact hpost b hb ⟨hw', hi'⟩
  · right
    intro b hb hw hi
    exact hnone b hb ⟨hw, hi⟩

variable [DecidableEq ι] {S : Scheme α β ι} {m : ι → β} {as post : List α} {a : α} {i : ι}

theorem store_of_ne (h : S.writes a = true → S.slot a ≠ i) : S.store m a i = m i := by
  unfold store
  by_cases hw : S.writes a = true
  · rw [if_pos hw, Function.update_of_ne (Ne.symm (h hw))]
  · rw [if_neg hw]

theorem run_untouched (h : ∀ b ∈ as, S.writes b = true → S.slot b ≠ i) : S.run m as i = m i := by
  induction as generalizing m with
  | nil => rfl
  | cons b as ih =>
      have hrest : ∀ c ∈ as, S.writes c = true → S.slot c ≠ i := by
        intro c hc
        exact h c (List.mem_cons_of_mem b hc)
      rw [run, List.foldl_cons, ← run, ih hrest]
      exact store_of_ne (h b List.mem_cons_self)

/-- **A slot holds what its last writer left.** -/
theorem LastWriter.run (h : S.LastWriter i as a post) : S.run m as i = S.entry a := by
  obtain ⟨pre, rfl⟩ := h.split
  rw [Scheme.run, List.foldl_append, List.foldl_cons, ← Scheme.run, run_untouched h.untouched, store,
    if_pos h.writes, h.slot, Function.update_self]

end Scheme

end DirectMapped
