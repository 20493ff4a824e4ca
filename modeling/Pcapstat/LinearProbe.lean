import Mathlib

/-! # Open addressing with linear probing

A table is a list of slots.  A `Scheme` says how a slot is read: whether it is in use, which
key it holds, and where the search for a key starts.  A table is `Probed` when

* no two slots in use hold the same key, and
* no empty slot lies between the home of a key and the slot that holds it.

On a probed table with an empty slot the search loop ends, at the key if it is there
(`Scheme.seek_spec`); putting the key where the search ended keeps the table probed
(`Scheme.Probed.insert`), and so does moving every entry to a larger array
(`Scheme.rehash_spec`). -/

namespace LinearProbe

/-! ### The search loop -/

/-- `for (i = start; !stop(i); i = next(i))`, for at most `fuel` places. -/
def seek (stop : ℕ → Bool) (next : ℕ → ℕ) : (fuel : ℕ) → ℕ → Option ℕ
  | 0, _ => none
  | fuel + 1, i => if stop i then some i else seek stop next fuel (next i)

theorem seek_eq_some {stop : ℕ → Bool} {next : ℕ → ℕ} : ∀ {fuel d i : ℕ}, d < fuel →
    stop (next^[d] i) = true → (∀ e < d, stop (next^[e] i) = false) →
      seek stop next fuel i = some (next^[d] i)
  | 0, _, _, h, _, _ => absurd h (Nat.not_lt_zero _)
  | fuel + 1, 0, i, _, hd, _ => by
      rw [seek, if_pos (show stop i = true from hd)]
      rfl
  | fuel + 1, d + 1, i, h, hd, he => by
      have h0 : ¬ stop i = true := by
        rw [show stop i = false from he 0 (Nat.succ_pos d)]
        exact Bool.false_ne_true
      rw [seek, if_neg h0, Function.iterate_succ_apply]
      apply seek_eq_some (Nat.lt_of_succ_lt_succ h) (by rwa [← Function.iterate_succ_apply])
      intro e hlt
      rw [← Function.iterate_succ_apply]
      exact he (e + 1) (Nat.succ_lt_succ hlt)

/-- A loop that has a place to stop at stops at the first one. -/
theorem exists_seek {stop : ℕ → Bool} {next : ℕ → ℕ} {fuel d i : ℕ} (hd : d < fuel)
    (hstop : stop (next^[d] i) = true) :
    ∃ e ≤ d, seek stop next fuel i = some (next^[e] i) ∧ stop (next^[e] i) = true ∧
      ∀ e' < e, stop (next^[e'] i) = false := by
  classical
  have hex : ∃ e, stop (next^[e] i) = true := ⟨d, hstop⟩
  have hle : Nat.find hex ≤ d := Nat.find_min' hex hstop
  have hmin : ∀ e' < Nat.find hex, stop (next^[e'] i) = false := fun e' h =>
    Bool.eq_false_iff.mpr (Nat.find_min hex h)
  exact ⟨Nat.find hex, hle, seek_eq_some (hle.trans_lt hd) (Nat.find_spec hex) hmin, Nat.find_spec hex, hmin⟩

theorem seek_congr {stop stop' : ℕ → Bool} {next : ℕ → ℕ} (h : ∀ i, stop i = stop' i) (fuel i : ℕ) :
    seek stop next fuel i = seek stop' next fuel i := by
  rw [funext h]

theorem iterate_mod (n h d : ℕ) : (fun i => (i + 1) % n)^[d] (h % n) = (h + d) % n := by
  induction d with
  | zero => rfl
  | succ d ih => rw [Function.iterate_succ_apply', ih, Nat.mod_add_mod, Nat.add_assoc]

/-! ### Tables -/

/-- How the slots of a table are read. -/
structure Scheme (α κ : Type) where
  used : α → Bool
  key : α → κ
  home : κ → ℕ

namespace Scheme

variable {α κ : Type} {S : Scheme α κ} {slots : List α}

/-- The key in slot `i`, if the slot is in use. -/
def keyAt (S : Scheme α κ) (slots : List α) (i : ℕ) : Option κ :=
  slots[i]?.bind fun a => if S.used a then some (S.key a) else none

/-- The `d`-th slot of the search for `k` among `n` slots. -/
def path (S : Scheme α κ) (n : ℕ) (k : κ) (d : ℕ) : ℕ := (S.home k + d) % n

/-- The search for `k` gets to slot `i`. -/
def Reaches (S : Scheme α κ) (slots : List α) (k : κ) (i : ℕ) : Prop :=
  ∃ d < slots.length, S.path slots.length k d = i ∧
    ∀ e < d, (S.keyAt slots (S.path slots.length k e)).isSome = true

/-- The invariant of linear probing. -/
structure Probed (S : Scheme α κ) (slots : List α) : Prop where
  unique : ∀ {i j k}, S.keyAt slots i = some k → S.keyAt slots j = some k → i = j
  reach : ∀ {i k}, S.keyAt slots i = some k → S.Reaches slots k i

/-- The slots in use, in order. -/
def entries (S : Scheme α κ) (slots : List α) : List α := slots.filter S.used

theorem keyAt_eq_some {i : ℕ} {k : κ} : S.keyAt slots i = some k ↔
    ∃ a, slots[i]? = some a ∧ S.used a = true ∧ S.key a = k := by
  rw [keyAt, Option.bind_eq_some_iff]
  refine exists_congr fun a => and_congr_right fun _ => ?_
  split_ifs with h <;> simp [h]

theorem keyAt_lt {i : ℕ} {k : κ} (h : S.keyAt slots i = some k) : i < slots.length := by
  obtain ⟨a, ha, -⟩ := keyAt_eq_some.mp h
  exact (List.getElem?_eq_some_iff.mp ha).1

theorem keyAt_set {j : ℕ} (hj : j < slots.length) {a : α} (ha : S.used a = true) (i : ℕ) :
    S.keyAt (slots.set j a) i = if i = j then some (S.key a) else S.keyAt slots i := by
  rw [keyAt, List.getElem?_set]
  by_cases h : j = i
  · rw [if_pos h, if_pos hj, if_pos h.symm, Option.bind_some, if_pos ha]
  · rw [if_neg h, if_neg (Ne.symm h), keyAt]

theorem mem_entries {a : α} : a ∈ S.entries slots ↔
    ∃ i : ℕ, slots[i]? = some a ∧ S.used a = true := by
  rw [entries, List.mem_filter, List.mem_iff_getElem?]
  simp only [exists_and_right]

theorem exists_keyAt_none (h : (S.entries slots).length < slots.length) :
    ∃ i < slots.length, S.keyAt slots i = none := by
  have hnot : ¬ ∀ a ∈ slots, S.used a = true := fun hall =>
    absurd h (by rw [entries, List.filter_eq_self.mpr hall]; exact lt_irrefl _)
  push Not at hnot
  obtain ⟨a, ha, hused⟩ := hnot
  obtain ⟨i, hi, rfl⟩ := List.mem_iff_getElem.mp ha
  exact ⟨i, hi, by rw [keyAt, List.getElem?_eq_getElem hi, Option.bind_some, if_neg hused]⟩

theorem path_lt {n : ℕ} (hn : 0 < n) (k : κ) (d : ℕ) : S.path n k d < n := Nat.mod_lt _ hn

theorem exists_path {n i : ℕ} (hi : i < n) (k : κ) : ∃ d < n, S.path n k d = i := by
  have hn : 0 < n := Nat.zero_lt_of_lt hi
  refine ⟨(i + (n - S.home k % n)) % n, Nat.mod_lt _ hn, ?_⟩
  have hlt := Nat.mod_lt (S.home k) hn
  have h : S.home k % n + (i + (n - S.home k % n)) = i + n := by omega
  rw [path, Nat.add_mod_mod, ← Nat.mod_add_mod, h, Nat.add_mod_right, Nat.mod_eq_of_lt hi]

/-! ### The search for a key -/

/-- Where the search for `k` stops: at an empty slot or at the key. -/
structure Found (S : Scheme α κ) (slots : List α) (k : κ) (j : ℕ) : Prop where
  lt : j < slots.length
  reaches : S.Reaches slots k j
  /-- an empty slot means that the key is nowhere -/
  at_slot : S.keyAt slots j = some k ∨ S.keyAt slots j = none ∧ ∀ i, S.keyAt slots i ≠ some k

theorem iterate_eq_path (n : ℕ) (k : κ) (d : ℕ) :
    (fun i => (i + 1) % n)^[d] (S.home k % n) = S.path n k d := iterate_mod n (S.home k) d

/-- **The search ends, at the key if it is there.** -/
theorem seek_spec (hP : S.Probed slots) (hfree : ∃ i < slots.length, S.keyAt slots i = none) (k : κ)
    {stop : ℕ → Bool}
    (hstop : ∀ i < slots.length, stop i = true ↔ S.keyAt slots i = none ∨ S.keyAt slots i = some k) :
    ∃ j, seek stop (fun i => (i + 1) % slots.length) slots.length (S.home k % slots.length) = some j ∧
      S.Found slots k j := by
  obtain ⟨i, hi, hnone⟩ := hfree
  have hn : 0 < slots.length := Nat.zero_lt_of_lt hi
  obtain ⟨d₀, hd₀, rfl⟩ := S.exists_path hi k
  obtain ⟨d, hle, hseek, hd, hmin⟩ := @exists_seek stop (fun i => (i + 1) % slots.length) slots.length d₀
    (S.home k % slots.length) hd₀ (by rw [iterate_eq_path]; exact (hstop _ hi).mpr (.inl hnone))
  simp only [iterate_eq_path] at hseek hd hmin
  have hpass : ∀ e < d, ∃ k', S.keyAt slots (S.path slots.length k e) = some k' ∧ k' ≠ k := by
    intro e he
    have hs : ¬ (S.keyAt slots (S.path slots.length k e) = none ∨
        S.keyAt slots (S.path slots.length k e) = some k) := by
      rw [← hstop _ (path_lt hn k e), hmin e he]
      exact Bool.false_ne_true
    rw [not_or] at hs
    obtain ⟨k', hk'⟩ := Option.ne_none_iff_exists'.mp hs.1
    exact ⟨k', hk', fun h => hs.2 (h ▸ hk')⟩
  refine ⟨S.path slots.length k d, hseek, path_lt hn k d,
    ⟨d, hle.trans_lt hd₀, rfl, fun e he => ?_⟩, ?_⟩
  · obtain ⟨k', hk', -⟩ := hpass e he
    rw [hk', Option.isSome_some]
  · rcases (hstop _ (path_lt hn k d)).mp hd with hempty | hkey
    · refine .inr ⟨hempty, fun p hp => ?_⟩
      -- the way to a slot that holds `k` would have to lead past this empty one
      obtain ⟨e, -, rfl, hway⟩ := hP.reach hp
      rcases lt_trichotomy e d with hed | rfl | hed
      · obtain ⟨k', hk', hne⟩ := hpass e hed
        rw [hp] at hk'
        exact hne (Option.some.inj hk').symm
      · rw [hp] at hempty
        exact Option.some_ne_none k hempty
      · have hsome := hway d hed
        rw [hempty] at hsome
        exact Bool.false_ne_true hsome
    · exact .inl hkey

/-! ### Updates -/

theorem Reaches.set {k : κ} {i j : ℕ} {a : α} (h : S.Reaches slots k i) (hj : j < slots.length)
    (ha : S.used a = true) : S.Reaches (slots.set j a) k i := by
  obtain ⟨d, hd, hpath, hway⟩ := h
  rw [Reaches, List.length_set]
  refine ⟨d, hd, hpath, fun e he => ?_⟩
  rw [keyAt_set hj ha]
  split_ifs
  · exact Option.isSome_some
  · exact hway e he

/-- Writing an entry where the search for its key ended keeps the table probed. -/
theorem Probed.insert (hP : S.Probed slots) {a : α} {j : ℕ} (ha : S.used a = true)
    (hj : S.Found slots (S.key a) j) : S.Probed (slots.set j a) where
  unique := by
    have hother : ∀ {i}, i ≠ j → S.keyAt slots i ≠ some (S.key a) := by
      intro i hij hi
      rcases hj.at_slot with h | ⟨-, h⟩
      · exact hij (hP.unique hi h)
      · exact h i hi
    intro i i' k hi hi'
    rw [keyAt_set hj.lt ha] at hi hi'
    split_ifs at hi hi' with h h' h'
    · exact h.trans h'.symm
    · exact absurd (hi'.trans hi.symm) (hother h')
    · exact absurd (hi.trans hi'.symm) (hother h)
    · exact hP.unique hi hi'
  reach := by
    intro i k hi
    rw [keyAt_set hj.lt ha] at hi
    split_ifs at hi with h
    · rw [h, ← Option.some.inj hi]
      exact hj.reaches.set hj.lt ha
    · exact (hP.reach hi).set hj.lt ha

theorem entries_append_cons (l r : List α) (a : α) : S.entries (l ++ a :: r) =
    S.entries l ++ ((if S.used a then [a] else []) ++ S.entries r) := by
  simp only [entries, List.filter_append, List.filter_cons]
  split_ifs <;> rfl

theorem entries_focus {j : ℕ} (hj : j < slots.length) : ∃ rest : List α,
    (S.entries slots).Perm ((if S.used slots[j] then [slots[j]] else []) ++ rest) ∧
      ∀ a, (S.entries (slots.set j a)).Perm ((if S.used a then [a] else []) ++ rest) := by
  have hslots : slots = slots.take j ++ slots[j] :: slots.drop (j + 1) := by
    rw [← List.drop_eq_getElem_cons hj, List.take_append_drop]
  refine ⟨S.entries (slots.take j) ++ S.entries (slots.drop (j + 1)), ?_, fun a => ?_⟩
  · conv_lhs => rw [hslots, entries_append_cons]
    rw [← List.append_assoc, ← List.append_assoc]
    exact List.perm_append_comm.append_right _
  · rw [List.set_eq_take_append_cons_drop, if_pos hj, entries_append_cons, ← List.append_assoc,
      ← List.append_assoc]
    exact List.perm_append_comm.append_right _

theorem entries_set_free {j : ℕ} {a : α} (hj : j < slots.length) (hfree : S.keyAt slots j = none)
    (ha : S.used a = true) : (S.entries (slots.set j a)).Perm (a :: S.entries slots) := by
  obtain ⟨rest, hold, hnew⟩ := S.entries_focus hj
  have hunused : ¬ S.used slots[j] = true := by
    intro h
    rw [keyAt, List.getElem?_eq_getElem hj, Option.bind_some, if_pos h] at hfree
    exact Option.some_ne_none _ hfree
  rw [if_neg hunused, List.nil_append] at hold
  have hnew := hnew a
  rw [if_pos ha] at hnew
  exact hnew.trans (hold.symm.cons a)

theorem entries_set_used {j : ℕ} (hj : j < slots.length) (hused : S.used slots[j] = true) :
    ∃ rest : List α, (S.entries slots).Perm (slots[j] :: rest) ∧
      ∀ a, S.used a = true → (S.entries (slots.set j a)).Perm (a :: rest) := by
  obtain ⟨rest, hold, hnew⟩ := S.entries_focus hj
  rw [if_pos hused] at hold
  refine ⟨rest, hold, fun a ha => ?_⟩
  have hnew := hnew a
  rwa [if_pos ha] at hnew

theorem keyAt_eq_none_of_empty (h : ∀ a ∈ slots, S.used a = false) (i : ℕ) : S.keyAt slots i = none := by
  by_contra hne
  obtain ⟨k, hk⟩ := Option.ne_none_iff_exists'.mp hne
  obtain ⟨a, ha, hused, -⟩ := keyAt_eq_some.mp hk
  exact Bool.false_ne_true ((h a (List.mem_of_getElem? ha)).symm.trans hused)

theorem Probed.of_empty (h : ∀ a ∈ slots, S.used a = false) : S.Probed slots where
  unique hi := absurd hi (by rw [keyAt_eq_none_of_empty h]; exact Option.some_ne_none _ ∘ Eq.symm)
  reach hi := absurd hi (by rw [keyAt_eq_none_of_empty h]; exact Option.some_ne_none _ ∘ Eq.symm)

theorem Probed.nodup (hP : S.Probed slots) : ((S.entries slots).map S.key).Nodup := by
  have h : (slots.filter S.used).Pairwise fun a b => S.key a ≠ S.key b := by
    rw [List.pairwise_filter, List.pairwise_iff_getElem]
    intro i j hi hj hij ha hb hkey
    have hki : S.keyAt slots i = some (S.key slots[i]) :=
      keyAt_eq_some.mpr ⟨_, List.getElem?_eq_getElem hi, ha, rfl⟩
    have hkj : S.keyAt slots j = some (S.key slots[i]) :=
      keyAt_eq_some.mpr ⟨_, List.getElem?_eq_getElem hj, hb, hkey.symm⟩
    exact absurd (hP.unique hki hkj) (Nat.ne_of_lt hij)
  exact List.pairwise_map.mpr h

theorem exists_keyAt_iff {k : κ} : (∃ i, S.keyAt slots i = some k) ↔
    k ∈ (S.entries slots).map S.key := by
  simp only [keyAt_eq_some, List.mem_map, mem_entries]
  constructor
  · rintro ⟨i, a, ha, hused, rfl⟩
    exact ⟨a, ⟨i, ha, hused⟩, rfl⟩
  · rintro ⟨a, ⟨i, ha, hused⟩, rfl⟩
    exact ⟨i, a, ha, hused, rfl⟩

/-! ### The map a table stands for -/

section lookup

variable [DecidableEq κ]

/-- The entry of `k`. -/
def lookup (S : Scheme α κ) (slots : List α) (k : κ) : Option α :=
  (S.entries slots).find? fun a => decide (S.key a = k)

theorem lookup_eq_some (hnodup : ((S.entries slots).map S.key).Nodup) {k : κ} {a : α} :
    S.lookup slots k = some a ↔ a ∈ S.entries slots ∧ S.key a = k := by
  constructor
  · intro h
    exact ⟨List.mem_of_find?_eq_some h, of_decide_eq_true (@List.find?_some _ _ a _ h)⟩
  · rintro ⟨ha, rfl⟩
    cases h : S.lookup slots (S.key a) with
    | none =>
        rw [lookup, List.find?_eq_none] at h
        exact absurd (decide_eq_true rfl) (h a ha)
    | some b =>
        have hb : S.key b = S.key a := of_decide_eq_true (@List.find?_some _ _ b _ h)
        rw [List.inj_on_of_nodup_map hnodup (List.mem_of_find?_eq_some h) ha hb]

theorem lookup_eq_none {k : κ} : S.lookup slots k = none ↔ k ∉ (S.entries slots).map S.key := by
  rw [lookup, List.find?_eq_none, List.mem_map, not_exists]
  simp only [decide_eq_true_eq, not_and]

theorem lookup_perm {slots' : List α} (hnodup : ((S.entries slots).map S.key).Nodup)
    (h : (S.entries slots').Perm (S.entries slots)) (k : κ) : S.lookup slots' k = S.lookup slots k := by
  have hnodup' := (h.map S.key).nodup_iff.mpr hnodup
  apply Option.ext
  intro a
  rw [lookup_eq_some hnodup', lookup_eq_some hnodup, h.mem_iff]

theorem Found.lookup_eq (hP : S.Probed slots) {k : κ} {j : ℕ} (hj : S.Found slots k j) {a : α}
    (ha : slots[j]? = some a) : S.lookup slots k = if S.used a then some a else none := by
  rcases hj.at_slot with h | ⟨h, hno⟩
  · obtain ⟨b, hb, hused, hkey⟩ := keyAt_eq_some.mp h
    have hab : b = a := Option.some.inj (hb.symm.trans ha)
    rw [← hab, if_pos hused, lookup_eq_some hP.nodup]
    exact ⟨mem_entries.mpr ⟨j, hb, hused⟩, hkey⟩
  · have hunused : ¬ S.used a = true := by
      intro hu
      rw [keyAt, ha, Option.bind_some, if_pos hu] at h
      exact Option.some_ne_none _ h
    rw [if_neg hunused, lookup_eq_none, ← exists_keyAt_iff]
    exact fun ⟨i, hi⟩ => hno i hi

/-- Writing an entry where the search for its key ended updates the map at that key. -/
theorem Found.lookup_set (hP : S.Probed slots) {a : α} {j : ℕ} (ha : S.used a = true)
    (hj : S.Found slots (S.key a) j) (k : κ) :
    S.lookup (slots.set j a) k = if k = S.key a then some a else S.lookup slots k := by
  have hP' := hP.insert ha hj
  have hmem : ∀ b, b ∈ S.entries (slots.set j a) ↔ b = a ∨ b ∈ S.entries slots ∧ S.key b ≠ S.key a := by
    intro b
    rcases hj.at_slot with h | ⟨h, hno⟩
    · obtain ⟨c, hc, hused, hkey⟩ := keyAt_eq_some.mp h
      obtain ⟨hlt, rfl⟩ := List.getElem?_eq_some_iff.mp hc
      obtain ⟨rest, hold, hnew⟩ := S.entries_set_used hlt hused
      have hnodup := (hold.map S.key).nodup_iff.mp hP.nodup
      rw [List.map_cons, List.nodup_cons, hkey] at hnodup
      rw [(hnew a ha).mem_iff, hold.mem_iff, List.mem_cons, List.mem_cons]
      refine or_congr_right ⟨fun hb => ⟨.inr hb, fun hba => ?_⟩, fun hb => ?_⟩
      · exact hnodup.1 (List.mem_map.mpr ⟨b, hb, hba⟩)
      · exact hb.1.resolve_left fun hbc => hb.2 (hbc ▸ hkey)
    · rw [(entries_set_free hj.lt h ha).mem_iff, List.mem_cons]
      refine or_congr_right ⟨fun hb => ⟨hb, fun hba => ?_⟩, fun hb => hb.1⟩
      obtain ⟨i, hi⟩ := exists_keyAt_iff.mpr (List.mem_map.mpr ⟨b, hb, hba⟩)
      exact hno i hi
  apply Option.ext
  intro b
  rw [lookup_eq_some hP'.nodup, hmem]
  split_ifs with hk
  · rw [Option.some.injEq, hk]
    constructor
    · rintro ⟨rfl | hb, hba⟩
      · rfl
      · exact absurd hba hb.2
    · rintro rfl
      exact ⟨.inl rfl, rfl⟩
  · rw [lookup_eq_some hP.nodup]
    constructor
    · rintro ⟨rfl | hb, hbk⟩
      · exact absurd hbk.symm hk
      · exact ⟨hb.1, hbk⟩
    · rintro ⟨hb, rfl⟩
      exact ⟨.inr ⟨hb, hk⟩, rfl⟩

end lookup

/-! ### Growing -/

/-- Put an entry into the first empty slot on the path of its key. -/
def place (S : Scheme α κ) (slots : List α) (a : α) : Option (List α) :=
  (seek (fun i => (S.keyAt slots i).isNone) (fun i => (i + 1) % slots.length) slots.length
    (S.home (S.key a) % slots.length)).map fun i => slots.set i a

theorem place_spec (hP : S.Probed slots) {a : α} (ha : S.used a = true)
    (hroom : (S.entries slots).length < slots.length) (hnew : S.key a ∉ (S.entries slots).map S.key) :
    ∃ slots', S.place slots a = some slots' ∧ S.Probed slots' ∧ slots'.length = slots.length ∧
      (S.entries slots').Perm (a :: S.entries slots) := by
  have habsent : ∀ i, S.keyAt slots i ≠ some (S.key a) := fun i hi =>
    hnew (exists_keyAt_iff.mp ⟨i, hi⟩)
  obtain ⟨j, hseek, hj⟩ := @seek_spec α κ S slots hP (exists_keyAt_none hroom) (S.key a)
    (fun i => (S.keyAt slots i).isNone) fun i _ => by
      rw [Option.isNone_iff_eq_none, or_iff_left (habsent i)]
  have hfree : S.keyAt slots j = none := (hj.at_slot.resolve_left (habsent j)).1
  refine ⟨slots.set j a, ?_, hP.insert ha hj, List.length_set, entries_set_free hj.lt hfree ha⟩
  rw [place, hseek, Option.map_some]

/-- **Moving the entries of `old` one by one into an array with room keeps all of them.** -/
theorem rehash_spec : ∀ (old : List α) {slots : List α}, S.Probed slots →
    ((S.entries old ++ S.entries slots).map S.key).Nodup →
    (S.entries old).length + (S.entries slots).length < slots.length →
    ∃ slots', old.foldlM (fun acc a => if S.used a then S.place acc a else some acc) slots = some slots' ∧
      S.Probed slots' ∧ slots'.length = slots.length ∧
      (S.entries slots').Perm (S.entries old ++ S.entries slots)
  | [], slots, hP, _, _ => ⟨slots, rfl, hP, rfl, .refl _⟩
  | a :: old, slots, hP, hnodup, hroom => by
      rw [List.foldlM_cons]
      by_cases ha : S.used a = true
      · have hentries : S.entries (a :: old) = a :: S.entries old := List.filter_cons_of_pos ha
        rw [hentries] at hnodup hroom ⊢
        rw [List.cons_append, List.map_cons, List.nodup_cons, List.map_append, List.mem_append, not_or]
          at hnodup
        rw [List.length_cons] at hroom
        obtain ⟨slots₁, hplace, hP₁, hlen₁, hperm₁⟩ := place_spec hP ha (by omega) hnodup.1.2
        have hnodup₁ : ((S.entries old ++ S.entries slots₁).map S.key).Nodup := by
          have hp : (S.entries old ++ S.entries slots₁).Perm (a :: (S.entries old ++ S.entries slots)) :=
            (hperm₁.append_left _).trans List.perm_middle
          apply (hp.map S.key).nodup_iff.mpr
          rw [List.map_cons, List.nodup_cons, List.map_append, List.mem_append, not_or]
          exact hnodup
        obtain ⟨slots₂, hfold, hP₂, hlen₂, hperm₂⟩ := rehash_spec old hP₁ hnodup₁ (by
          rw [hperm₁.length_eq, List.length_cons, hlen₁]
          omega)
        refine ⟨slots₂, ?_, hP₂, hlen₂.trans hlen₁, ?_⟩
        · rw [if_pos ha, hplace, Option.bind_eq_bind, Option.bind_some, hfold]
        · exact hperm₂.trans ((hperm₁.append_left _).trans List.perm_middle)
      · have hentries : S.entries (a :: old) = S.entries old := List.filter_cons_of_neg ha
        rw [hentries] at hnodup hroom ⊢
        rw [if_neg ha, Option.bind_eq_bind, Option.bind_some]
        exact rehash_spec old hP hnodup hroom

end Scheme
end LinearProbe
