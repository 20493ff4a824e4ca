import Pcapstat.Flow

/-! # The flow table is a finite map

`FlowTable.Inv` is the invariant of the table; its core is that the slots are probed in the
sense of `LinearProbe`.  Every call keeps it, so every probe loop ends.  Read as a map from
keys to entries (`FlowTable.lookup`), a table that goes through a sequence of calls does what
`SpecStep` says of a map. -/

namespace Pcapstat

open LinearProbe

/-! ### Keys and places -/

theorem memcmp_eq_iff : ∀ {a b : List UInt8}, a.length = b.length → (memcmp a b = .eq ↔ a = b)
  | [], [], _ => by simp [memcmp]
  | x :: a, y :: b, h => by
      have ih := @memcmp_eq_iff a b (Nat.succ.inj h)
      rw [memcmp, List.cons.injEq]
      split_ifs with hlt hgt
      · simp [UInt8.ne_of_lt hlt]
      · simp [(UInt8.ne_of_lt hgt).symm]
      · have hxy : x = y := UInt8.le_antisymm (UInt8.not_lt.mp hgt) (UInt8.not_lt.mp hlt)
        rw [ih, hxy, and_iff_right rfl]

theorem memcmp_addr {a b : Addr} : memcmp a.bytes b.bytes = .eq ↔ a = b := by
  rw [memcmp_eq_iff (a.length_eq.trans b.length_eq.symm)]
  exact ⟨Addr.ext_bytes, congrArg Addr.bytes⟩

theorem keyEqual_iff {a b : FlowKey} : keyEqual a b = true ↔ a = b := by
  rw [keyEqual]
  simp only [Bool.and_eq_true, decide_eq_true_eq, memcmp_addr]
  cases a
  cases b
  simp only [FlowKey.mk.injEq, and_assoc]

/-- How the slots of a flow table are read. -/
def flowScheme : Scheme Flow FlowKey where
  used f := f.inUse
  key f := f.key
  home k := (keyHash k).toNat

section places

variable {w e : ℕ}

theorem nextSlot_eq (e : ℕ) : nextSlot (2 ^ e - 1) = fun i => (i + 1) % 2 ^ e :=
  funext fun i => Nat.and_two_pow_sub_one_eq_mod (i + 1) e

/-- Cutting the hash down to `size_t` does not change its slot. -/
theorem homeSlot_eq (h : e ≤ w) (hash : UInt64) : homeSlot w hash (2 ^ e - 1) = hash.toNat % 2 ^ e := by
  rw [homeSlot, Nat.and_two_pow_sub_one_eq_mod, Nat.mod_mod_of_dvd _ (Nat.pow_dvd_pow 2 h)]

theorem le_of_fits (h : 2 ^ e * flowSize ≤ sizeMax w) : e ≤ w := by
  rw [sizeMax, flowSize] at h
  have hlt : 2 ^ e < 2 ^ w := by
    have := Nat.two_pow_pos e
    omega
  exact ((Nat.pow_lt_pow_iff_right Nat.one_lt_two).mp hlt).le

theorem keyAt_getD (slots : List Flow) (i : ℕ) : flowScheme.keyAt slots i =
    if (slots.getD i {}).inUse then some (slots.getD i {}).key else none := by
  rw [Scheme.keyAt, List.getD_eq_getElem?_getD]
  cases slots[i]? with
  | none => rfl
  | some f => rfl

end places

/-! ### The invariant -/

/-- A zeroed entry for `key`. -/
def Flow.fresh (key : FlowKey) : Flow := { key := key, hash := keyHash key, inUse := true }

/-- The entry of a key. -/
def FlowTable.lookup (t : FlowTable) (k : FlowKey) : Option Flow := flowScheme.lookup t.slots k

/-- The entries, in slot order. -/
def FlowTable.entries (t : FlowTable) : List Flow := flowScheme.entries t.slots

/-- The invariant of an allocated table. -/
structure FlowTable.Inv (w : ℕ) (t : FlowTable) : Prop where
  pow : ∃ e, 4 ≤ e ∧ t.capacity = 2 ^ e
  length : t.slots.length = t.capacity
  fits : t.capacity * flowSize ≤ sizeMax w
  count : t.count = t.entries.length
  load : t.count * 10 ≤ t.capacity * 7
  hash : ∀ f ∈ t.entries, f.hash = keyHash f.key
  probed : flowScheme.Probed t.slots

namespace FlowTable

variable {w : ℕ} {t : FlowTable}

theorem Inv.nodup (h : t.Inv w) : ((flowScheme.entries t.slots).map flowScheme.key).Nodup := h.probed.nodup

theorem Inv.min (h : t.Inv w) : 16 ≤ t.capacity := by
  obtain ⟨e, he, hcap⟩ := h.pow
  rw [hcap]
  exact Nat.pow_le_pow_right Nat.two_pos he

/-- The load limit leaves an empty slot. -/
theorem Inv.exists_free (h : t.Inv w) : ∃ i < t.slots.length, flowScheme.keyAt t.slots i = none := by
  have hload := h.load
  have hmin := h.min
  apply Scheme.exists_keyAt_none
  rw [h.length, show (flowScheme.entries t.slots).length = t.count from h.count.symm]
  omega

theorem Inv.hash_of_slot (h : t.Inv w) {i : ℕ} (hi : (t.slot i).inUse = true) :
    (t.slot i).hash = keyHash (t.slot i).key := by
  refine h.hash _ (Scheme.mem_entries.mpr ⟨i, ?_, hi⟩)
  rw [slot, List.getD_eq_getElem?_getD] at hi ⊢
  cases hget : t.slots[i]? with
  | none =>
      rw [hget, Option.getD_none] at hi
      exact absurd hi Bool.false_ne_true
  | some f => rfl

/-- The products of the load check do not wrap. -/
theorem Inv.needsRoom_iff (h : t.Inv w) :
    needsRoom w t = true ↔ t.capacity * 7 < (t.count + 1) * 10 := by
  have hload := h.load
  have hmin := h.min
  have hfits := h.fits
  have hpos := Nat.two_pow_pos w
  rw [sizeMax, flowSize] at hfits
  rw [needsRoom, loadDen, loadNum, decide_eq_true_eq, Nat.mod_eq_of_lt (by omega),
    Nat.mod_eq_of_lt (by omega), gt_iff_lt]

/-! ### Searching -/

/-- A probe loop of the table that passes other keys ends where the search for `key` ends. -/
theorem Inv.seek (h : t.Inv w) (key : FlowKey) {stop : ℕ → Bool}
    (hstop : ∀ i, (t.slot i).inUse = true → (stop i = true ↔ (t.slot i).key = key))
    (hfree : ∀ i, (t.slot i).inUse = false → stop i = true) :
    ∃ j, LinearProbe.seek stop (nextSlot (t.capacity - 1)) t.capacity
        (homeSlot w (keyHash key) (t.capacity - 1)) = some j ∧ flowScheme.Found t.slots key j := by
  obtain ⟨e, -, hcap⟩ := h.pow
  have he : e ≤ w := le_of_fits (hcap ▸ h.fits)
  have hspec := Scheme.seek_spec h.probed h.exists_free key fun i _ => (?_ : stop i = true ↔ _)
  · rw [h.length, hcap] at hspec
    rw [hcap, nextSlot_eq, homeSlot_eq he]
    exact hspec
  · rw [keyAt_getD]
    change _ ↔ (if (t.slot i).inUse = true then some (t.slot i).key else none) = none ∨
      (if (t.slot i).inUse = true then some (t.slot i).key else none) = some key
    cases hu : (t.slot i).inUse with
    | false => simp [hfree i hu]
    | true => simp [hstop i hu]

theorem slot_eq {j : ℕ} (hj : j < t.slots.length) : t.slots[j]? = some (t.slot j) := by
  rw [slot, List.getD_eq_getElem?_getD, List.getElem?_eq_getElem hj, Option.getD_some]

theorem lookup_eq_slot (h : t.Inv w) {key : FlowKey} {j : ℕ} (hj : flowScheme.Found t.slots key j) :
    t.lookup key = if (t.slot j).inUse then some (t.slot j) else none :=
  hj.lookup_eq h.probed (slot_eq hj.lt)

/-- `flow_table_find` returns the entry of the key, and null if there is none. -/
theorem Inv.find (h : t.Inv w) (key : FlowKey) :
    ∃ r, flowTableFind w t key = some r ∧ r.map t.slot = t.lookup key := by
  obtain ⟨j, hseek, hj⟩ := @Inv.seek w t h key
    (fun i => !(t.slot i).inUse || keyEqual (t.slot i).key key)
    (fun i hi => by rw [hi, Bool.not_true, Bool.false_or, keyEqual_iff])
    (fun i hi => by rw [hi, Bool.not_false, Bool.true_or])
  have hcap : t.capacity ≠ 0 := by
    have := h.min
    omega
  refine ⟨if (t.slot j).inUse then some j else none, ?_, ?_⟩
  · rw [flowTableFind, if_neg hcap]
    simp only [hseek, Option.bind_eq_bind, Option.bind_some]
  · rw [lookup_eq_slot h hj]
    split_ifs <;> rfl

/-! ### Growing -/

theorem place_eq {e : ℕ} (he : e ≤ w) {slots : List Flow} (hlen : slots.length = 2 ^ e) {f : Flow}
    (hf : f.hash = keyHash f.key) : place w slots (2 ^ e - 1) f = flowScheme.place slots f := by
  have hstop : ∀ i, (!(slots.getD i {}).inUse) = (flowScheme.keyAt slots i).isNone := fun i => by
    rw [keyAt_getD]
    cases (slots.getD i {}).inUse <;> rfl
  rw [place, seek_congr hstop, nextSlot_eq, homeSlot_eq he, hf, Nat.sub_add_cancel (Nat.two_pow_pos e),
    Scheme.place, hlen, show flowScheme.home (flowScheme.key f) = (keyHash f.key).toNat from rfl]
  cases seek (fun i => (flowScheme.keyAt slots i).isNone) (fun i => (i + 1) % 2 ^ e) (2 ^ e)
    ((keyHash f.key).toNat % 2 ^ e) with
  | none => rfl
  | some i => rfl

theorem length_of_place {slots slots' : List Flow} {f : Flow}
    (h : flowScheme.place slots f = some slots') : slots'.length = slots.length := by
  rw [Scheme.place, Option.map_eq_some_iff] at h
  obtain ⟨i, -, rfl⟩ := h
  exact List.length_set

theorem growFold_eq {e : ℕ} (he : e ≤ w) : ∀ (old : List Flow) {slots : List Flow},
    (∀ f ∈ old, f.inUse = true → f.hash = keyHash f.key) → slots.length = 2 ^ e →
      old.foldlM (fun bigger f => if f.inUse then place w bigger (2 ^ e - 1) f else some bigger) slots =
        old.foldlM (fun acc f => if flowScheme.used f then flowScheme.place acc f else some acc) slots
  | [], _, _, _ => rfl
  | f :: old, slots, hold, hlen => by
      rw [List.foldlM_cons, List.foldlM_cons]
      have ih := @growFold_eq e he old
      have hold' : ∀ f ∈ old, f.inUse = true → f.hash = keyHash f.key := fun g hg =>
        hold g (List.mem_cons_of_mem _ hg)
      change (if f.inUse = true then _ else _) >>= _ = (if f.inUse = true then _ else _) >>= _
      by_cases hu : f.inUse = true
      · rw [if_pos hu, if_pos hu, place_eq he hlen (hold f List.mem_cons_self hu)]
        cases hp : flowScheme.place slots f with
        | none => rfl
        | some slots' => exact ih hold' ((length_of_place hp).trans hlen)
      · rw [if_neg hu, if_neg hu]
        exact ih hold' hlen

/-- The same entries, in an array with room for one more. -/
structure Regrown (w : ℕ) (t t' : FlowTable) : Prop where
  inv : t'.Inv w
  perm : t'.entries.Perm t.entries
  room : (t'.count + 1) * 10 ≤ t'.capacity * 7

theorem Regrown.lookup {t' : FlowTable} (h : t.Inv w) (hr : Regrown w t t') (k : FlowKey) :
    t'.lookup k = t.lookup k := Scheme.lookup_perm h.nodup hr.perm k

theorem Inv.regrown_self (h : t.Inv w) (hroom : ¬ needsRoom w t = true) : Regrown w t t :=
  ⟨h, .refl _, not_lt.mp fun hlt => hroom (h.needsRoom_iff.mpr hlt)⟩

/-- When `grow` may fail. -/
def Refused (w : ℕ) (t : FlowTable) (ok : Bool) : Prop :=
  ok = false ∨ t.capacity > sizeMax w / 2 / flowSize

/-- When a call may return null: the table is to grow and cannot. -/
def NoRoom (w : ℕ) (t : FlowTable) (ok : Bool) : Prop := needsRoom w t = true ∧ Refused w t ok

/-- **Growing keeps every entry; a failed attempt changes nothing.** -/
theorem Inv.grow (h : t.Inv w) (ok : Bool) :
    Pcapstat.grow w t ok = some (t, false) ∧ Refused w t ok ∨
      ∃ t', Pcapstat.grow w t ok = some (t', true) ∧ Regrown w t t' := by
  rw [Pcapstat.grow]
  by_cases hbig : t.capacity > sizeMax w / 2 / flowSize
  · rw [if_pos hbig]
    exact .inl ⟨rfl, .inr hbig⟩
  rw [if_neg hbig]
  have hfits : t.capacity * 2 * flowSize ≤ sizeMax w := by
    have h1 : t.capacity * flowSize ≤ sizeMax w / 2 :=
      (Nat.le_div_iff_mul_le (by decide)).mp (not_lt.mp hbig)
    rw [Nat.mul_right_comm]
    exact (Nat.le_div_iff_mul_le Nat.two_pos).mp h1
  cases ok with
  | false => exact .inl ⟨rfl, .inl rfl⟩
  | true =>
      have hcalloc : (!calloc w (t.capacity * 2) flowSize true) = false := by
        rw [calloc, decide_eq_true hfits]
        rfl
      simp only [hcalloc, Bool.false_eq_true, if_false]
      right
      obtain ⟨e, he4, hcap⟩ := h.pow
      have hcap' : t.capacity * 2 = 2 ^ (e + 1) := by rw [hcap, Nat.pow_succ]
      have hew : e + 1 ≤ w := le_of_fits (hcap' ▸ hfits)
      have hempty : ∀ f ∈ List.replicate (2 ^ (e + 1)) ({} : Flow), flowScheme.used f = false :=
        fun f hf => List.eq_of_mem_replicate hf ▸ rfl
      have hnone : flowScheme.entries (List.replicate (2 ^ (e + 1)) {}) = [] :=
        List.filter_eq_nil_iff.mpr fun f hf => by rw [hempty f hf]; exact Bool.false_ne_true
      have hload := h.load
      have hmin := h.min
      have hlen : (flowScheme.entries t.slots).length = t.count := h.count.symm
      obtain ⟨slots, hfold, hP, hslots, hperm⟩ := Scheme.rehash_spec t.slots (Scheme.Probed.of_empty hempty)
        (by rw [hnone, List.append_nil]; exact h.nodup)
        (by rw [hnone, hlen, List.length_replicate, ← hcap', List.length_nil]; omega)
      rw [hnone, List.append_nil] at hperm
      rw [← @growFold_eq w (e + 1) hew t.slots _ (fun f hf hu => h.hash f (List.mem_filter.mpr ⟨hf, hu⟩))
        List.length_replicate] at hfold
      refine ⟨{ t with slots := slots, capacity := t.capacity * 2 }, ?_, ?_, hperm, ?_⟩
      · rw [hcap', hfold]
        rfl
      · exact {
          pow := ⟨e + 1, by omega, hcap'⟩
          length := by rw [hslots, List.length_replicate, hcap']
          fits := hfits
          count := h.count.trans hperm.length_eq.symm
          load := by simp only; omega
          hash := fun f hf => h.hash f (hperm.mem_iff.mp hf)
          probed := hP }
      · simp only
        omega

/-! ### Finding or inserting -/

/-- The write of a caller through the pointer it was given. -/
def store (t : FlowTable) (j : ℕ) (f : Flow) : FlowTable := { t with slots := t.slots.set j f }

/-- What a call of `flow_table_find_or_insert` can do. -/
inductive Outcome (w : ℕ) (t : FlowTable) (key : FlowKey) (ok : Bool) :
    FlowTable × Option ℕ × Bool → Prop where
  /-- no memory: the table is as it was -/
  | null : NoRoom w t ok → Outcome w t key ok (t, none, false)
  /-- the key has an entry -/
  | old {t' : FlowTable} {j : ℕ} : Regrown w t t' → flowScheme.Found t'.slots key j →
      (t'.slot j).inUse = true → Outcome w t key ok (t', some j, false)
  /-- the key had no entry -/
  | new {t' : FlowTable} {j : ℕ} : Regrown w t t' → flowScheme.Found t'.slots key j →
      (t'.slot j).inUse = false →
      Outcome w t key ok ({ t'.store j (.fresh key) with count := t'.count + 1 }, some j, true)

theorem Regrown.findOrInsert {t' : FlowTable} (hr : Regrown w t t') (key : FlowKey) (ok : Bool) :
    ∃ t₁ j ins, Pcapstat.findOrInsert w t' key = some (t₁, some j, ins) ∧
      Outcome w t key ok (t₁, some j, ins) := by
  obtain ⟨j, hseek, hj⟩ := @Inv.seek w t' hr.inv key
    (fun i => !(t'.slot i).inUse || (t'.slot i).hash = keyHash key && keyEqual (t'.slot i).key key)
    (fun i hi => by
      rw [hi, Bool.not_true, Bool.false_or, Bool.and_eq_true, decide_eq_true_eq, keyEqual_iff,
        hr.inv.hash_of_slot hi]
      exact ⟨fun h => h.2, fun h => ⟨congrArg keyHash h, h⟩⟩)
    (fun i hi => by rw [hi, Bool.not_false, Bool.true_or])
  rw [Pcapstat.findOrInsert]
  simp only [hseek, Option.bind_eq_bind, Option.bind_some]
  cases hu : (t'.slot j).inUse with
  | true => exact ⟨_, _, _, rfl, .old hr hj hu⟩
  | false => exact ⟨_, _, _, rfl, .new hr hj hu⟩

/-- With room for one more, `flow_table_find_or_insert` does not ask for memory. -/
theorem Inv.findOrInsert_of_room (h : t.Inv w) (hroom : ¬ needsRoom w t = true) (key : FlowKey)
    (ok : Bool) : ∃ t₁ j ins, flowTableFindOrInsert w t key ok = some (t₁, some j, ins) ∧
      Outcome w t key ok (t₁, some j, ins) := by
  have hcap : t.capacity ≠ 0 := by
    have := h.min
    omega
  rw [flowTableFindOrInsert, if_neg hcap, if_neg hroom]
  exact (h.regrown_self hroom).findOrInsert key ok

/-- **`flow_table_find_or_insert` returns.** -/
theorem Inv.findOrInsert (h : t.Inv w) (key : FlowKey) (ok : Bool) :
    ∃ r, flowTableFindOrInsert w t key ok = some r ∧ Outcome w t key ok r := by
  by_cases hneeds : needsRoom w t = true
  · have hcap : t.capacity ≠ 0 := by
      have := h.min
      omega
    rw [flowTableFindOrInsert, if_neg hcap, if_pos hneeds]
    rcases h.grow ok with ⟨hgrow, href⟩ | ⟨t', hgrow, hr⟩
    · rw [hgrow]
      exact ⟨_, rfl, .null ⟨hneeds, href⟩⟩
    · obtain ⟨t₁, j, ins, hcall, ho⟩ := hr.findOrInsert key ok
      rw [hgrow]
      exact ⟨_, hcall, ho⟩
  · obtain ⟨t₁, j, ins, hcall, ho⟩ := h.findOrInsert_of_room hneeds key ok
    exact ⟨_, hcall, ho⟩

section outcome

variable {key : FlowKey} {ok ins : Bool} {t' : FlowTable} {j : ℕ}

theorem slot_store (hj : j < t.slots.length) (f : Flow) : (t.store j f).slot j = f := by
  rw [slot, store, List.getD_eq_getElem?_getD, List.getElem?_set_self hj, Option.getD_some]

/-- A call that returns null leaves the table as it was. -/
theorem Outcome.of_null (ho : Outcome w t key ok (t', none, ins)) :
    t' = t ∧ ins = false ∧ NoRoom w t ok := by
  cases ho with
  | null h => exact ⟨rfl, rfl, h⟩

/-- The entry that is returned, and `*inserted`. -/
theorem Outcome.entry (h : t.Inv w) (ho : Outcome w t key ok (t', some j, ins)) :
    t'.slot j = (t.lookup key).getD (.fresh key) ∧ ins = (t.lookup key).isNone := by
  cases ho with
  | old hr hj hu =>
      have hl := (hr.lookup h key).symm.trans (lookup_eq_slot hr.inv hj)
      rw [if_pos hu] at hl
      rw [hl]
      exact ⟨rfl, rfl⟩
  | new hr hj hu =>
      have hl := (hr.lookup h key).symm.trans (lookup_eq_slot hr.inv hj)
      rw [hu, if_neg Bool.false_ne_true] at hl
      rw [hl]
      exact ⟨slot_store hj.lt (.fresh key), rfl⟩

theorem Regrown.set (h : t.Inv w) (hr : Regrown w t t') {f : Flow}
    (hj : flowScheme.Found t'.slots f.key j) (hu : f.inUse = true) :
    ∃ rest, t.entries.Perm ((t.lookup f.key).toList ++ rest) ∧
      (flowScheme.entries (t'.slots.set j f)).Perm (f :: rest) := by
  have hl := (hr.lookup h f.key).symm.trans (lookup_eq_slot hr.inv hj)
  have hget := slot_eq hj.lt
  cases hslot : (t'.slot j).inUse with
  | true =>
      obtain ⟨hlt, hval⟩ := List.getElem?_eq_some_iff.mp hget
      obtain ⟨rest, hold, hnew⟩ := flowScheme.entries_set_used hlt (by rw [hval]; exact hslot)
      rw [hval] at hold
      refine ⟨rest, ?_, hnew f hu⟩
      rw [hl, if_pos hslot]
      exact hr.perm.symm.trans hold
  | false =>
      have hfree : flowScheme.keyAt t'.slots j = none := by
        rw [keyAt_getD]
        exact if_neg (by rw [show (t'.slots.getD j {}).inUse = false from hslot]; exact Bool.false_ne_true)
      refine ⟨t'.entries, ?_, Scheme.entries_set_free hj.lt hfree hu⟩
      rw [hl, hslot, if_neg Bool.false_ne_true]
      exact hr.perm.symm

/-- The invariant survives a write that keeps the key and the hash. -/
theorem Regrown.inv_set (h : t.Inv w) (hr : Regrown w t t') {f : Flow} (hu : f.inUse = true)
    (hj : flowScheme.Found t'.slots f.key j) (hhash : f.hash = keyHash f.key) {n : ℕ}
    (hn : n = (flowScheme.entries (t'.slots.set j f)).length) (hle : n ≤ t'.count + 1) :
    ({ t'.store j f with count := n } : FlowTable).Inv w := by
  have hroom := hr.room
  obtain ⟨rest, hold, hnew⟩ := hr.set h hj hu
  exact {
    pow := hr.inv.pow
    length := List.length_set.trans hr.inv.length
    fits := hr.inv.fits
    count := hn
    load := by simp only [FlowTable.store]; omega
    hash := by
      intro g hg
      rcases List.mem_cons.mp (hnew.mem_iff.mp hg) with rfl | hg
      · exact hhash
      · exact h.hash g (hold.mem_iff.mpr (List.mem_append_right _ hg))
    probed := hr.inv.probed.insert hu hj }

/-- The entry of `key` is the one that was written, and no other entry changes. -/
theorem Outcome.store (h : t.Inv w) (ho : Outcome w t key ok (t', some j, ins)) {f : Flow}
    (hu : f.inUse = true) (hkey : f.key = key) (hhash : f.hash = keyHash key) :
    (t'.store j f).Inv w ∧ (∀ k, (t'.store j f).lookup k = if k = key then some f else t.lookup k) ∧
      ∃ rest, t.entries.Perm ((t.lookup key).toList ++ rest) ∧ (t'.store j f).entries.Perm (f :: rest) := by
  subst hkey
  cases ho with
  | old hr hj hslot =>
      obtain ⟨rest, hold, hnew⟩ := hr.set h hj hu
      have hl := (hr.lookup h f.key).symm.trans (lookup_eq_slot hr.inv hj)
      rw [if_pos hslot] at hl
      refine ⟨?_, fun k => ?_, rest, hold, hnew⟩
      · refine hr.inv_set h hu hj hhash ?_ (Nat.le_succ _)
        rw [hnew.length_eq, hr.inv.count, hr.perm.length_eq, hold.length_eq, hl]
        rfl
      · exact (hj.lookup_set hr.inv.probed hu k).trans (by rw [← hr.lookup h k]; rfl)
  | @new t₁ _ hr hj hslot =>
      obtain ⟨rest, hold, hnew⟩ := hr.set h hj hu
      have hset : ({ t₁.store j (.fresh f.key) with count := t₁.count + 1 } : FlowTable).store j f =
          { t₁.store j f with count := t₁.count + 1 } := by
        simp only [FlowTable.store, List.set_set]
      have hl := (hr.lookup h f.key).symm.trans (lookup_eq_slot hr.inv hj)
      rw [hslot, if_neg Bool.false_ne_true] at hl
      rw [hset]
      refine ⟨?_, fun k => ?_, rest, hold, hnew⟩
      · refine hr.inv_set h hu hj hhash ?_ le_rfl
        rw [hnew.length_eq, hr.inv.count, hr.perm.length_eq, hold.length_eq, hl]
        rfl
      · exact (hj.lookup_set hr.inv.probed hu k).trans (by rw [← hr.lookup h k]; rfl)

end outcome

/-! ### Initial tables -/

theorem double_iterate (d n : ℕ) : (· * 2)^[d] n = n * 2 ^ d := by
  induction d with
  | zero => rw [Function.iterate_zero_apply, Nat.pow_zero, Nat.mul_one]
  | succ d ih => rw [Function.iterate_succ_apply', ih, Nat.pow_succ, Nat.mul_assoc]

/-- `flow_table_init` returns: with nothing, or with an empty table. -/
theorem init_spec (w hint : ℕ) (ok : Bool) :
    ∃ t allocated, flowTableInit w hint ok = some (t, allocated) ∧
      (allocated = false → t = ⟨[], 0, 0⟩) ∧
      (allocated = true → t.Inv w ∧ t.entries = []) := by
  have hbig : decide (minCapacity * 2 ^ w ≤ sizeMax w / 2 / flowSize) = false := by
    have hpos := Nat.two_pow_pos w
    rw [decide_eq_false_iff_not, minCapacity, sizeMax, flowSize]
    omega
  obtain ⟨d, -, hseek, -, -⟩ := @exists_seek
    (fun cap => !(cap < hint && cap ≤ sizeMax w / 2 / flowSize)) (· * 2) (w + 1) w minCapacity
    (Nat.lt_succ_self w) (by simp only [double_iterate, hbig, Bool.and_false, Bool.not_false])
  rw [double_iterate] at hseek
  have hcap : minCapacity * 2 ^ d = 2 ^ (4 + d) := by rw [minCapacity, Nat.pow_add]
  rw [flowTableInit, hseek, Option.bind_eq_bind, Option.bind_some]
  cases hcalloc : calloc w (minCapacity * 2 ^ d) flowSize ok with
  | false => exact ⟨_, false, rfl, fun _ => rfl, fun h => absurd h Bool.false_ne_true⟩
  | true =>
      have hempty : ∀ f ∈ List.replicate (minCapacity * 2 ^ d) ({} : Flow), flowScheme.used f = false :=
        fun f hf => List.eq_of_mem_replicate hf ▸ rfl
      have hnone : flowScheme.entries (List.replicate (minCapacity * 2 ^ d) {}) = [] :=
        List.filter_eq_nil_iff.mpr fun f hf => by rw [hempty f hf]; exact Bool.false_ne_true
      rw [calloc, Bool.and_eq_true, decide_eq_true_eq] at hcalloc
      refine ⟨_, true, rfl, fun h => absurd h.symm Bool.false_ne_true, fun _ => ⟨?_, hnone⟩⟩
      exact {
        pow := ⟨4 + d, Nat.le_add_right 4 d, hcap⟩
        length := List.length_replicate
        fits := hcalloc.2
        count := (congrArg List.length hnone).symm
        load := Nat.zero_le _
        hash := by
          intro f hf
          have hf' : f ∈ flowScheme.entries (List.replicate (minCapacity * 2 ^ d) {}) := hf
          rw [hnone] at hf'
          exact absurd hf' List.not_mem_nil
        probed := Scheme.Probed.of_empty hempty }

/-! ### Iteration -/

/-- `size_t pos = 0; while ((f = flow_table_next(t, &pos)))`: the pointers it yields. -/
def iterate (t : FlowTable) : (fuel pos : ℕ) → List ℕ
  | 0, _ => []
  | fuel + 1, pos =>
      match flowTableNext t pos with
      | (none, _) => []
      | (some i, pos') => i :: iterate t fuel pos'

/-- The places from `pos` on that are in use. -/
def usedFrom (t : FlowTable) (pos left : ℕ) : List ℕ :=
  (List.range' pos left).filter fun i => (t.slot i).inUse

theorem usedFrom_succ (t : FlowTable) (pos left : ℕ) : t.usedFrom pos (left + 1) =
    if (t.slot pos).inUse then pos :: t.usedFrom (pos + 1) left else t.usedFrom (pos + 1) left := by
  simp only [usedFrom, List.range'_succ, List.filter_cons]

theorem nextInUse_spec (t : FlowTable) : ∀ left pos : ℕ,
    nextInUse t left pos = (none, pos + left) ∧ t.usedFrom pos left = [] ∨
      ∃ i, pos ≤ i ∧ i < pos + left ∧ nextInUse t left pos = (some i, i + 1) ∧
        t.usedFrom pos left = i :: t.usedFrom (i + 1) (pos + left - (i + 1))
  | 0, pos => .inl ⟨rfl, rfl⟩
  | left + 1, pos => by
      cases hu : (t.slot pos).inUse with
      | true =>
          refine .inr ⟨pos, le_rfl, by omega, by rw [nextInUse, if_pos hu], ?_⟩
          rw [usedFrom_succ, if_pos hu]
          congr 2
          omega
      | false =>
          have hu' : ¬ (t.slot pos).inUse = true := by rw [hu]; exact Bool.false_ne_true
          have hskip : t.usedFrom pos (left + 1) = t.usedFrom (pos + 1) left := by
            rw [usedFrom_succ, if_neg hu']
          rw [nextInUse, if_neg hu', hskip]
          rcases nextInUse_spec t left (pos + 1) with ⟨h, hnil⟩ | ⟨i, hle, hlt, h, hcons⟩
          · exact .inl ⟨by rw [h]; congr 1; omega, hnil⟩
          · refine .inr ⟨i, by omega, by omega, h, ?_⟩
            rw [hcons]
            congr 2
            omega

theorem iterate_eq (t : FlowTable) : ∀ fuel pos : ℕ, t.capacity - pos < fuel →
    t.iterate fuel pos = t.usedFrom pos (t.capacity - pos)
  | 0, _, h => absurd h (Nat.not_lt_zero _)
  | fuel + 1, pos, h => by
      rw [iterate, flowTableNext]
      rcases nextInUse_spec t (t.capacity - pos) pos with ⟨hnext, hnil⟩ | ⟨i, hle, hlt, hnext, hcons⟩
      · rw [hnext, hnil]
      · rw [hnext, hcons]
        have hleft : pos + (t.capacity - pos) - (i + 1) = t.capacity - (i + 1) := by omega
        simp only [List.cons.injEq, true_and]
        rw [hleft]
        exact iterate_eq t fuel (i + 1) (by omega)

/-- **Iteration visits every slot in use exactly once.** -/
theorem iterate_spec (t : FlowTable) : (t.iterate (t.capacity + 1) 0).Nodup ∧
    ∀ i, i ∈ t.iterate (t.capacity + 1) 0 ↔ i < t.capacity ∧ (t.slot i).inUse = true := by
  rw [iterate_eq t _ 0 (by omega), usedFrom]
  refine ⟨List.Nodup.filter _ List.nodup_range', fun i => ?_⟩
  rw [List.mem_filter, List.mem_range'_1]
  simp

end FlowTable

/-! ### Runs -/

/-- A call on a table. -/
inductive TableOp where
  /-- `flow_table_find_or_insert`, after which the caller writes to the entry it got -/
  | findOrInsert (key : FlowKey) (ok : Bool) (write : Flow → Flow)
  | find (key : FlowKey)
  | next (pos : ℕ)

/-- What a call returned; a pointer is answered with the entry it points to. -/
inductive TableAnswer where
  | entry (f : Option Flow) (inserted : Bool)
  | found (f : Option Flow)
  | next (f : Option Flow) (pos : ℕ)
deriving DecidableEq, Repr

/-- Callers never write to the key, the cached hash or `in_use`. -/
def Flow.written (f : Flow) (write : Flow → Flow) : Flow :=
  { write f with key := f.key, hash := f.hash, inUse := f.inUse }

def TableOp.exec (w : ℕ) (t : FlowTable) : TableOp → Option (FlowTable × TableAnswer)
  | .findOrInsert key ok write => do
      let (t, f, inserted) ← flowTableFindOrInsert w t key ok
      match f with
      | none => some (t, .entry none inserted)
      | some j => some (t.store j ((t.slot j).written write), .entry (some (t.slot j)) inserted)
  | .find key => do
      let f ← flowTableFind w t key
      some (t, .found (f.map t.slot))
  | .next pos => some (t, .next ((flowTableNext t pos).1.map t.slot) (flowTableNext t pos).2)

def TableOp.execAll (w : ℕ) (t : FlowTable) : List TableOp → Option (FlowTable × List TableAnswer)
  | [] => some (t, [])
  | op :: ops => do
      let (t, a) ← op.exec w t
      let (t, as) ← execAll w t ops
      some (t, a :: as)

/-- What a call does on a map from keys to entries.  It returns null only if there is `noRoom`, given what
the allocator answers. -/
inductive SpecStep (noRoom : Bool → Prop) (M : FlowKey → Option Flow) :
    TableOp → TableAnswer → (FlowKey → Option Flow) → Prop where
  /-- no memory -/
  | null {key : FlowKey} {ok : Bool} {write : Flow → Flow} : noRoom ok →
      SpecStep noRoom M (.findOrInsert key ok write) (.entry none false) M
  | old {key : FlowKey} {ok : Bool} {write : Flow → Flow} {f : Flow} : M key = some f →
      SpecStep noRoom M (.findOrInsert key ok write) (.entry (some f) false)
        (Function.update M key (some (f.written write)))
  | new {key : FlowKey} {ok : Bool} {write : Flow → Flow} : M key = none →
      SpecStep noRoom M (.findOrInsert key ok write) (.entry (some (.fresh key)) true)
        (Function.update M key (some ((Flow.fresh key).written write)))
  | find {key : FlowKey} : SpecStep noRoom M (.find key) (.found (M key)) M
  | next {pos pos' : ℕ} {f : Option Flow} : (∀ g ∈ f, M g.key = some g) →
      SpecStep noRoom M (.next pos) (.next f pos') M

/-- A run, in which every call does to the map of its table what it does on a map. -/
inductive SpecRun (w : ℕ) : FlowTable → List TableOp → List TableAnswer → FlowTable → Prop where
  | nil {t : FlowTable} : SpecRun w t [] [] t
  | cons {t t' t'' : FlowTable} {op : TableOp} {a : TableAnswer} {ops : List TableOp}
      {as : List TableAnswer} : op.exec w t = some (t', a) →
      SpecStep (t.NoRoom w) t.lookup op a t'.lookup → SpecRun w t' ops as t'' →
      SpecRun w t (op :: ops) (a :: as) t''

section runs

variable {w : ℕ} {t : FlowTable}

theorem FlowTable.lookup_key (h : t.Inv w) {key : FlowKey} {f : Flow} (hf : t.lookup key = some f) :
    f.key = key ∧ f.inUse = true ∧ f.hash = keyHash key := by
  obtain ⟨hmem, hkey⟩ := (Scheme.lookup_eq_some h.nodup).mp hf
  have hkey : f.key = key := hkey
  exact ⟨hkey, (List.mem_filter.mp hmem).2, hkey ▸ h.hash f hmem⟩

theorem FlowTable.lookup_slot (h : t.Inv w) {i : ℕ} (hi : (t.slot i).inUse = true) :
    t.lookup (t.slot i).key = some (t.slot i) := by
  refine (Scheme.lookup_eq_some h.nodup).mpr ⟨Scheme.mem_entries.mpr ⟨i, ?_, hi⟩, rfl⟩
  have hk : flowScheme.keyAt t.slots i = some (t.slot i).key := by
    rw [keyAt_getD]
    exact if_pos hi
  exact slot_eq (Scheme.keyAt_lt hk)

/-- **Every call returns, keeps the invariant and does what it does on a map.** -/
theorem TableOp.exec_spec (h : t.Inv w) (op : TableOp) : ∃ t' a, op.exec w t = some (t', a) ∧
    t'.Inv w ∧ SpecStep (t.NoRoom w) t.lookup op a t'.lookup := by
  cases op with
  | findOrInsert key ok write =>
      obtain ⟨⟨t', f, ins⟩, hcall, ho⟩ := h.findOrInsert key ok
      rw [TableOp.exec, hcall, Option.bind_eq_bind, Option.bind_some]
      cases f with
      | none =>
          obtain ⟨rfl, rfl, hfull⟩ := ho.of_null
          exact ⟨_, _, rfl, h, .null hfull⟩
      | some j =>
          obtain ⟨hslot, rfl⟩ := ho.entry h
          cases hl : t.lookup key with
          | some f =>
              rw [hl, Option.getD_some] at hslot
              obtain ⟨hkey, hu, hhash⟩ := FlowTable.lookup_key h hl
              obtain ⟨hinv, hlookup, -⟩ := @FlowTable.Outcome.store w t key ok _ t' j h ho
                (f.written write) hu hkey hhash
              refine ⟨_, _, rfl, by rw [hslot]; exact hinv, ?_⟩
              rw [hslot, show (t'.store j (f.written write)).lookup =
                Function.update t.lookup key (some (f.written write)) from
                funext fun k => (hlookup k).trans (Function.update_apply _ _ _ _).symm]
              exact .old hl
          | none =>
              rw [hl, Option.getD_none] at hslot
              obtain ⟨hinv, hlookup, -⟩ := @FlowTable.Outcome.store w t key ok _ t' j h ho
                ((Flow.fresh key).written write) rfl rfl rfl
              refine ⟨_, _, rfl, by rw [hslot]; exact hinv, ?_⟩
              rw [hslot, show (t'.store j ((Flow.fresh key).written write)).lookup =
                Function.update t.lookup key (some ((Flow.fresh key).written write)) from
                funext fun k => (hlookup k).trans (Function.update_apply _ _ _ _).symm]
              exact .new hl
  | find key =>
      obtain ⟨r, hfind, hr⟩ := h.find key
      rw [TableOp.exec, hfind, Option.bind_eq_bind, Option.bind_some, hr]
      exact ⟨_, _, rfl, h, .find⟩
  | next pos =>
      refine ⟨_, _, rfl, h, .next fun g hg => ?_⟩
      rw [flowTableNext] at hg
      rcases t.nextInUse_spec (t.capacity - pos) pos with ⟨hnext, -⟩ | ⟨i, -, -, hnext, hcons⟩
      · rw [hnext] at hg
        exact absurd hg (Option.not_mem_none g)
      · rw [hnext] at hg
        have hmem : i ∈ t.usedFrom pos (t.capacity - pos) := hcons ▸ List.mem_cons_self
        have hi : (t.slot i).inUse = true := (List.mem_filter.mp hmem).2
        rw [← Option.some.inj hg]
        exact FlowTable.lookup_slot h hi

theorem TableOp.execAll_spec : ∀ (ops : List TableOp) {t : FlowTable}, t.Inv w →
    ∃ t' as, TableOp.execAll w t ops = some (t', as) ∧ t'.Inv w ∧ SpecRun w t ops as t'
  | [], t, h => ⟨t, [], rfl, h, .nil⟩
  | op :: ops, t, h => by
      obtain ⟨t₁, a, hexec, h₁, hstep⟩ := op.exec_spec h
      obtain ⟨t₂, as, hrun, h₂, hspec⟩ := execAll_spec ops h₁
      refine ⟨t₂, a :: as, ?_, h₂, .cons hexec hstep hspec⟩
      simp only [execAll, hexec, hrun, Option.bind_eq_bind, Option.bind_some]

/-- A table that calls have led to. -/
def FlowTable.Reached (w : ℕ) (t : FlowTable) : Prop :=
  ∃ hint ok t₀ ops answers, flowTableInit w hint ok = some (t₀, true) ∧
    TableOp.execAll w t₀ ops = some (t, answers)

theorem FlowTable.Reached.inv (h : t.Reached w) : t.Inv w := by
  obtain ⟨hint, ok, t₀, ops, answers, hinit, hrun⟩ := h
  obtain ⟨t₀', allocated, hinit', -, hgood⟩ := FlowTable.init_spec w hint ok
  rw [hinit, Option.some.injEq, Prod.mk.injEq] at hinit'
  obtain ⟨rfl, rfl⟩ := hinit'
  obtain ⟨t', answers', hrun', hinv, -⟩ := TableOp.execAll_spec ops (hgood rfl).1
  rw [hrun, Option.some.injEq, Prod.mk.injEq] at hrun'
  obtain ⟨rfl, rfl⟩ := hrun'
  exact hinv

/-! ### The invariant, slot by slot -/

theorem FlowTable.Inv.unique (h : t.Inv w) {i j : ℕ} (hi : (t.slot i).inUse = true)
    (hj : (t.slot j).inUse = true) (hkey : (t.slot i).key = (t.slot j).key) : i = j := by
  have hki : flowScheme.keyAt t.slots i = some (t.slot i).key := by rw [keyAt_getD]; exact if_pos hi
  have hkj : flowScheme.keyAt t.slots j = some (t.slot j).key := by rw [keyAt_getD]; exact if_pos hj
  exact h.probed.unique hki (hkey ▸ hkj)

theorem FlowTable.Inv.path (h : t.Inv w) {i : ℕ} (hi : (t.slot i).inUse = true) :
    ∃ d < t.capacity, ((t.slot i).hash.toNat + d) % t.capacity = i ∧
      ∀ e < d, (t.slot (((t.slot i).hash.toNat + e) % t.capacity)).inUse = true := by
  have hk : flowScheme.keyAt t.slots i = some (t.slot i).key := by rw [keyAt_getD]; exact if_pos hi
  obtain ⟨d, hd, hpath, hway⟩ := h.probed.reach hk
  simp only [Scheme.path, h.length] at hd hpath hway
  rw [h.hash_of_slot hi]
  refine ⟨d, hd, hpath, fun e he => ?_⟩
  have hsome := hway e he
  rw [keyAt_getD] at hsome
  by_contra hu
  rw [if_neg (by exact hu)] at hsome
  exact Bool.false_ne_true hsome

/-- **The flow table refines a finite map.** -/
theorem flowTable_refines (w hint : ℕ) (ok : Bool) :
    ∃ t₀ allocated, flowTableInit w hint ok = some (t₀, allocated) ∧ (allocated = true →
      ∀ ops : List TableOp, ∃ t answers, TableOp.execAll w t₀ ops = some (t, answers) ∧
        ((∃ e, 4 ≤ e ∧ t.capacity = 2 ^ e) ∧ t.slots.length = t.capacity ∧
          t.count = (t.slots.filter fun f => f.inUse).length ∧ t.count * 10 ≤ t.capacity * 7 ∧
          (∀ i j, (t.slot i).inUse = true → (t.slot j).inUse = true →
            (t.slot i).key = (t.slot j).key → i = j) ∧
          (∀ i, (t.slot i).inUse = true → (t.slot i).hash = keyHash (t.slot i).key) ∧
          ∀ i, (t.slot i).inUse = true →
            ∃ d < t.capacity, ((t.slot i).hash.toNat + d) % t.capacity = i ∧
              ∀ e < d, (t.slot (((t.slot i).hash.toNat + e) % t.capacity)).inUse = true) ∧
        ((∀ key, t₀.lookup key = none) ∧ SpecRun w t₀ ops answers t) ∧
        (∀ key, (∃ f, t.lookup key = some f) ↔ ∃ i < t.capacity, (t.slot i).inUse = true ∧
          (t.slot i).key = key) ∧
        ((t.iterate (t.capacity + 1) 0).Nodup ∧
          ∀ i, i ∈ t.iterate (t.capacity + 1) 0 ↔ i < t.capacity ∧ (t.slot i).inUse = true) ∧
        ∀ key ok', ∃ t' f inserted, flowTableFindOrInsert w t key ok' = some (t', f, inserted) ∧
          (f = none → t' = t ∧ inserted = false ∧ t.NoRoom w ok')) := by
  obtain ⟨t₀, allocated, hinit, -, hgood⟩ := FlowTable.init_spec w hint ok
  refine ⟨t₀, allocated, hinit, fun halloc ops => ?_⟩
  obtain ⟨h₀, hnone⟩ := hgood halloc
  obtain ⟨t, answers, hrun, h, hspec⟩ := TableOp.execAll_spec ops h₀
  have hlookup : ∀ key, t₀.lookup key = none := fun key =>
    Scheme.lookup_eq_none.mpr (by rw [show flowScheme.entries t₀.slots = [] from hnone]; exact List.not_mem_nil)
  refine ⟨t, answers, hrun, ⟨h.pow, h.length, h.count, h.load, fun i j hi hj hkey => h.unique hi hj hkey,
    fun i hi => h.hash_of_slot hi, fun i hi => h.path hi⟩, ⟨hlookup, hspec⟩, fun key => ⟨?_, ?_⟩,
    t.iterate_spec, fun key ok' => ?_⟩
  · rintro ⟨f, hf⟩
    obtain ⟨hmem, hkey⟩ := (Scheme.lookup_eq_some h.nodup).mp hf
    obtain ⟨i, hi, hu⟩ := Scheme.mem_entries.mp hmem
    have hlt : i < t.slots.length := (List.getElem?_eq_some_iff.mp hi).1
    have hf : f = t.slot i := Option.some.inj (hi.symm.trans (FlowTable.slot_eq hlt))
    exact ⟨i, h.length ▸ hlt, hf ▸ hu, hf ▸ hkey⟩
  · rintro ⟨i, -, hu, rfl⟩
    exact ⟨_, FlowTable.lookup_slot h hu⟩
  · obtain ⟨⟨t', f, ins⟩, hcall, ho⟩ := h.findOrInsert key ok'
    refine ⟨t', f, ins, hcall, ?_⟩
    rintro rfl
    exact ho.of_null

/-- A flow of UDP port `n`. -/
def portKey (n : UInt16) : FlowKey := { ipVersion := 4, proto := 17, portA := n, portB := 53 }

/-- Enters the flows of the ports in `ns`. -/
def enterPorts (ns : List UInt16) : List TableOp := ns.map fun n => .findOrInsert (portKey n) true id

/-- Eleven flows are entered, a twelfth one is refused memory, and one of the eleven is found. -/
def refusedPort : List TableOp :=
  enterPorts [1, 2, 3, 4, 5, 6, 7, 8, 9, 10, 11] ++ [.findOrInsert (portKey 12) false id, .find (portKey 3)]

theorem flowTable_refines_ports : ∃ t₀ t answers, flowTableInit 64 16 true = some (t₀, true) ∧
    TableOp.execAll 64 t₀ refusedPort = some (t, answers) ∧ SpecRun 64 t₀ refusedPort answers t ∧
    t.count = 11 ∧
      answers.take 1 = [.entry (some (.fresh (portKey 1))) true] ∧
      answers.drop 11 = [.entry none false, .found (some (.fresh (portKey 3)))] := by
  obtain ⟨t₀, allocated, hinit, hruns⟩ := flowTable_refines 64 16 true
  have hcheck : ((flowTableInit 64 16 true).bind fun r => (TableOp.execAll 64 r.1 refusedPort).map fun s =>
      (r.2, s.1.count, s.2.take 1, s.2.drop 11)) = some (true, 11, [.entry (some (.fresh (portKey 1))) true],
        [.entry none false, .found (some (.fresh (portKey 3)))]) := by
    decide +kernel
  rw [hinit, Option.bind_some, Option.map_eq_some_iff] at hcheck
  obtain ⟨⟨t, answers⟩, hrun, hends⟩ := hcheck
  simp only [Prod.mk.injEq] at hends
  obtain ⟨hallocated, hcount, hfirst, hlast⟩ := hends
  obtain ⟨t', answers', hrun', -, ⟨-, hspec⟩, -⟩ := hruns hallocated refusedPort
  rw [hrun, Option.some.injEq, Prod.mk.injEq] at hrun'
  obtain ⟨rfl, rfl⟩ := hrun'
  exact ⟨t₀, t, answers, hallocated ▸ hinit, hrun, hspec, hcount, hfirst, hlast⟩

end runs

end Pcapstat
