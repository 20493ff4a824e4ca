import Mathlib

/-! # Numerals

Texts are lists of characters.  `read b` is the value of a digit string to the base `b`.  What
`Nat.toDigits` prints reads back as the number (`read_toDigits`), is made of digits and has no zero
in front (`plain_toDigits`); it still reads back with zeros in front (`read_leftpad`). -/

namespace Numeral

/-! ### Reading -/

/-- The value of a digit, in either case. -/
def digitValue (c : Char) : Option ℕ :=
  if '0' ≤ c ∧ c ≤ '9' then some (c.toNat - '0'.toNat)
  else if 'a' ≤ c ∧ c ≤ 'z' then some (c.toNat - 'a'.toNat + 10)
  else if 'A' ≤ c ∧ c ≤ 'Z' then some (c.toNat - 'A'.toNat + 10)
  else none

/-- The number `n` with the digit `c` behind it. -/
def addDigit (b n : ℕ) (c : Char) : Option ℕ :=
  (digitValue c).bind fun d => if d < b then some (b * n + d) else none

/-- The number `n` with the digits `s` behind it. -/
def readFrom (b n : ℕ) (s : List Char) : Option ℕ := s.foldlM (addDigit b) n

/-- The value of a digit string that is not empty. -/
def read (b : ℕ) (s : List Char) : Option ℕ := if s = [] then none else readFrom b 0 s

section reading

variable {b n d : ℕ}

theorem digitValue_digitChar (h : d < 16) : digitValue (Nat.digitChar d) = some d := by
  revert h
  revert d
  decide

theorem addDigit_digitChar (hb : b ≤ 16) (h : d < b) : addDigit b n (Nat.digitChar d) = some (b * n + d) := by
  unfold addDigit
  rw [digitValue_digitChar (h.trans_le hb), Option.bind_some, if_pos h]

theorem readFrom_append (s t : List Char) :
    readFrom b n (s ++ t) = (readFrom b n s).bind fun k => readFrom b k t :=
  List.foldlM_append

theorem readFrom_digitChar (hb : b ≤ 16) (h : d < b) : readFrom b n [Nat.digitChar d] = some (b * n + d) := by
  unfold readFrom
  rw [List.foldlM_cons, addDigit_digitChar hb h]
  rfl

theorem readFrom_toDigits (h1 : 1 < b) (hb : b ≤ 16) : readFrom b 0 (Nat.toDigits b n) = some n := by
  induction n using Nat.strong_induction_on with
  | _ n ih =>
    rw [Nat.toDigits_eq_if h1]
    split
    · rename_i hlt
      rw [readFrom_digitChar hb hlt, Nat.mul_zero, Nat.zero_add]
    · rename_i hge
      have hdiv : n / b < n := Nat.div_lt_self (by omega) h1
      rw [readFrom_append, ih (n / b) hdiv, Option.bind_some, readFrom_digitChar hb (Nat.mod_lt n (by omega)),
        Nat.div_add_mod]

/-- **What is printed reads back.** -/
theorem read_toDigits (h1 : 1 < b) (hb : b ≤ 16) : read b (Nat.toDigits b n) = some n := by
  unfold read
  rw [if_neg Nat.toDigits_ne_nil, readFrom_toDigits h1 hb]

theorem readFrom_zeros (h1 : 1 < b) (hb : b ≤ 16) (k : ℕ) : readFrom b 0 (List.replicate k '0') = some 0 := by
  induction k with
  | zero => rfl
  | succ k ih =>
      have hzero : readFrom b 0 [Nat.digitChar 0] = some 0 := by
        rw [readFrom_digitChar hb (by omega)]
        rfl
      have hcons : List.replicate (k + 1) '0' = [Nat.digitChar 0] ++ List.replicate k '0' := rfl
      rw [hcons, readFrom_append, hzero, Option.bind_some, ih]

theorem read_leftpad (h1 : 1 < b) (hb : b ≤ 16) (w : ℕ) :
    read b ((Nat.toDigits b n).leftpad w '0') = some n := by
  unfold read List.leftpad
  rw [if_neg fun h => Nat.toDigits_ne_nil (List.append_eq_nil_iff.mp h).2, readFrom_append, readFrom_zeros h1 hb,
    Option.bind_some, readFrom_toDigits h1 hb]

end reading

/-! ### Plain numerals -/

/-- A numeral to the base `b` in lower case without a zero in front. -/
structure Plain (b : ℕ) (s : List Char) : Prop where
  ne_nil : s ≠ []
  digits : ∀ c ∈ s, ∃ d < b, c = Nat.digitChar d
  noZero : s.head? = some '0' → s = ['0']

section plain

variable {b n : ℕ}

theorem mem_toDigits {c : Char} (h1 : 1 < b) (h : c ∈ Nat.toDigits b n) : ∃ d < b, c = Nat.digitChar d := by
  induction n using Nat.strong_induction_on with
  | _ n ih =>
    rw [Nat.toDigits_eq_if h1] at h
    split at h
    · rename_i hlt
      exact ⟨n, hlt, List.mem_singleton.mp h⟩
    · rename_i hge
      rcases List.mem_append.mp h with h | h
      · exact ih (n / b) (Nat.div_lt_self (by omega) h1) h
      · exact ⟨n % b, Nat.mod_lt n (by omega), List.mem_singleton.mp h⟩

theorem not_mem_toDigits_of_ne {c : Char} (h1 : 1 < b) (hc : ∀ d < b, c ≠ Nat.digitChar d) :
    c ∉ Nat.toDigits b n := by
  intro h
  obtain ⟨d, hd, heq⟩ := mem_toDigits h1 h
  exact hc d hd heq

theorem not_mem_toDigits {c : Char} (h1 : 1 < b) (hb : b ≤ 16) (hc : digitValue c = none) :
    c ∉ Nat.toDigits b n := by
  apply not_mem_toDigits_of_ne h1
  rintro d hd rfl
  rw [digitValue_digitChar (hd.trans_le hb)] at hc
  cases hc

theorem toDigits_noZero (h1 : 1 < b) (hb : b ≤ 16) (h : (Nat.toDigits b n).head? = some '0') :
    Nat.toDigits b n = ['0'] := by
  induction n using Nat.strong_induction_on with
  | _ n ih =>
    rw [Nat.toDigits_eq_if h1] at h ⊢
    split at h
    · rename_i hlt
      rw [if_pos hlt]
      exact congrArg (fun c => [c]) (Option.some.inj h)
    · rename_i hge
      -- the digits in front would be the numeral of zero
      rw [List.head?_append_of_ne_nil _ Nat.toDigits_ne_nil] at h
      have hfront : Nat.toDigits b (n / b) = ['0'] := ih (n / b) (Nat.div_lt_self (by omega) h1) h
      have hvalue : readFrom b 0 ['0'] = some (n / b) := by
        rw [← hfront]
        exact readFrom_toDigits h1 hb
      have hzero : some 0 = some (n / b) := (readFrom_zeros h1 hb 1).symm.trans hvalue
      have hpos : 0 < n / b := Nat.div_pos (by omega) (by omega)
      exact absurd (Option.some.inj hzero) (by omega)

theorem plain_toDigits (h1 : 1 < b) (hb : b ≤ 16) : Plain b (Nat.toDigits b n) where
  ne_nil := Nat.toDigits_ne_nil
  digits _ := mem_toDigits h1
  noZero := toDigits_noZero h1 hb

end plain

/-! ### Zeros in front -/

section zeros

variable {b n m v : ℕ} {s : List Char} {c : Char}

/-- Up to the base ten, each digit is written in one way only. -/
theorem addDigit_eq_some (hb : b ≤ 10) (h : addDigit b m c = some v) :
    ∃ d < b, c = Nat.digitChar d ∧ v = b * m + d := by
  unfold addDigit at h
  obtain ⟨d, hd, h⟩ := Option.bind_eq_some_iff.mp h
  rw [Option.ite_none_right_eq_some, Option.some.injEq] at h
  refine ⟨d, h.1, ?_, h.2.symm⟩
  have hten : d < 10 := by omega
  unfold digitValue at hd
  split_ifs at hd with h09 haz hAZ
  · have hlo : '0'.toNat ≤ c.toNat := h09.1
    have hd' : c.toNat - '0'.toNat = d := Option.some.inj hd
    have hval : c.toNat = d + '0'.toNat := by omega
    rw [← Char.ofNat_toNat c, hval]
    clear hval hd' hlo hd h
    revert d
    decide
  · have hd' : c.toNat - 'a'.toNat + 10 = d := Option.some.inj hd
    omega
  · have hd' : c.toNat - 'A'.toNat + 10 = d := Option.some.inj hd
    omega

/-- What reads as a number is its numeral with zeros in front. -/
theorem exists_zeros (h1 : 1 < b) (hb : b ≤ 10) (hne : s ≠ []) (h : readFrom b 0 s = some n) :
    ∃ k, s = List.replicate k '0' ++ Nat.toDigits b n := by
  induction s using List.reverseRecOn generalizing n with
  | nil => exact absurd rfl hne
  | append_singleton s c ih =>
      rw [readFrom_append] at h
      obtain ⟨m, hm, h⟩ := Option.bind_eq_some_iff.mp h
      unfold readFrom at h
      rw [List.foldlM_cons, Option.bind_eq_bind] at h
      obtain ⟨v, hv, h⟩ := Option.bind_eq_some_iff.mp h
      obtain rfl : v = n := Option.some.inj h
      obtain ⟨d, hd, rfl, rfl⟩ := addDigit_eq_some hb hv
      by_cases hs : s = []
      · obtain rfl : 0 = m := by
          rw [hs] at hm
          exact Option.some.inj hm
        refine ⟨0, ?_⟩
        rw [hs, Nat.mul_zero, Nat.zero_add, Nat.toDigits_of_lt_base hd]
        rfl
      obtain ⟨k, hk⟩ := ih hs hm
      by_cases hm0 : m = 0
      · subst hm0
        refine ⟨k + 1, ?_⟩
        rw [hk, Nat.mul_zero, Nat.zero_add, Nat.toDigits_of_lt_base hd,
          Nat.toDigits_of_lt_base (Nat.zero_lt_of_lt h1), List.replicate_succ']
        rfl
      · refine ⟨k, ?_⟩
        have hge : ¬ b * m + d < b := by
          have hle : b * 1 ≤ b * m := Nat.mul_le_mul_left b (Nat.one_le_iff_ne_zero.mpr hm0)
          omega
        have hdiv : (b * m + d) / b = m := by
          rw [Nat.mul_add_div (by omega), Nat.div_eq_of_lt hd, Nat.add_zero]
        have hmod : (b * m + d) % b = d := by rw [Nat.mul_add_mod, Nat.mod_eq_of_lt hd]
        rw [Nat.toDigits_eq_if h1 (n := b * m + d), if_neg hge, hdiv, hmod, hk, List.append_assoc]

theorem read_zeros (h1 : 1 < b) (hb : b ≤ 16) (k : ℕ) :
    read b (List.replicate k '0' ++ Nat.toDigits b n) = some n := by
  have hpad := read_leftpad (n := n) h1 hb (k + (Nat.toDigits b n).length)
  unfold List.leftpad at hpad
  rwa [Nat.add_sub_cancel] at hpad

end zeros

/-! ### Order -/

section order

variable {b m m' n n' v v' w : ℕ} {s t x y : List Char}

/-- Texts whose fronts are equally long are compared by their fronts first. -/
theorem append_lt_iff (h : x.length = y.length) : x ++ s < y ++ t ↔ x < y ∨ x = y ∧ s < t := by
  induction x generalizing y with
  | nil =>
      obtain rfl := List.length_eq_zero_iff.mp h.symm
      exact ⟨fun hlt => .inr ⟨rfl, hlt⟩, fun hlt => (hlt.resolve_left (List.not_lt_nil [])).2⟩
  | cons c x ih =>
      obtain ⟨d, y, rfl⟩ := List.exists_cons_of_length_eq_add_one h.symm
      rw [List.cons_append, List.cons_append, List.cons_lt_cons_iff, List.cons_lt_cons_iff,
        ih (Nat.succ.inj h), List.cons.injEq]
      tauto

theorem digitChar_lt {d d' : ℕ} (hd : d < 10) (hd' : d' < 10) (h : Nat.digitChar d < Nat.digitChar d') : d < d' := by
  revert h
  revert d'
  revert d
  decide

/-- Of equally long digit strings the smaller one has the smaller value. -/
theorem readFrom_lt (hb : b ≤ 10) (hlen : s.length = t.length) (hs : readFrom b m s = some v)
    (ht : readFrom b m' t = some v') : (m < m' → v < v') ∧ (m = m' → s < t → v < v') := by
  induction s generalizing m m' t with
  | nil =>
      obtain rfl := List.length_eq_zero_iff.mp hlen.symm
      obtain rfl := Option.some.inj hs
      obtain rfl := Option.some.inj ht
      exact ⟨id, fun _ h => absurd h (List.not_lt_nil [])⟩
  | cons c s ih =>
      obtain ⟨c', t, rfl⟩ := List.exists_cons_of_length_eq_add_one hlen.symm
      unfold readFrom at hs ht
      rw [List.foldlM_cons, Option.bind_eq_bind] at hs ht
      obtain ⟨k, hk, hs⟩ := Option.bind_eq_some_iff.mp hs
      obtain ⟨k', hk', ht⟩ := Option.bind_eq_some_iff.mp ht
      obtain ⟨d, hd, rfl, rfl⟩ := addDigit_eq_some hb hk
      obtain ⟨d', hd', rfl, rfl⟩ := addDigit_eq_some hb hk'
      obtain ⟨hless, hsame⟩ := ih (Nat.succ.inj hlen) hs ht
      constructor
      · intro hlt
        apply hless
        have hstep : b * (m + 1) ≤ b * m' := Nat.mul_le_mul_left b hlt
        rw [Nat.mul_add, Nat.mul_one] at hstep
        omega
      · rintro rfl hlt
        rcases List.cons_lt_cons_iff.mp hlt with hlt | ⟨heq, hlt⟩
        · have hdigit := digitChar_lt (hd.trans_le hb) (hd'.trans_le hb) hlt
          exact hless (by omega)
        · have hvalue : some d = some d' := by
            rw [← digitValue_digitChar (by omega : d < 16), ← digitValue_digitChar (by omega : d' < 16), heq]
          rw [Option.some.inj hvalue] at hsame
          exact hsame rfl hlt

theorem length_leftpad (hpos : 0 < w) (h1 : 1 < b) (hn : n < b ^ w) :
    ((Nat.toDigits b n).leftpad w '0').length = w := by
  rw [List.length_leftpad]
  exact max_eq_left ((Nat.length_toDigits_le_iff h1 hpos).mpr hn)

theorem leftpad_inj (h1 : 1 < b) (hb : b ≤ 16)
    (h : (Nat.toDigits b n).leftpad w '0' = (Nat.toDigits b n').leftpad w '0') : n = n' := by
  have hread := read_leftpad (n := n) h1 hb w
  rw [h, read_leftpad h1 hb] at hread
  exact (Option.some.inj hread).symm

theorem leftpad_lt_iff (hpos : 0 < w) (h1 : 1 < b) (hb : b ≤ 10) (hn : n < b ^ w) (hn' : n' < b ^ w) :
    (Nat.toDigits b n).leftpad w '0' < (Nat.toDigits b n').leftpad w '0' ↔ n < n' := by
  have hvalue : ∀ k, readFrom b 0 ((Nat.toDigits b k).leftpad w '0') = some k := by
    intro k
    have hread := read_leftpad (n := k) h1 (by omega) w
    unfold read at hread
    exact (Option.ite_none_left_eq_some.mp hread).2
  have hlt : ∀ {k k'}, k < b ^ w → k' < b ^ w →
      (Nat.toDigits b k).leftpad w '0' < (Nat.toDigits b k').leftpad w '0' → k < k' := by
    intro k k' hk hk'
    exact (readFrom_lt hb ((length_leftpad hpos h1 hk).trans (length_leftpad hpos h1 hk').symm)
      (hvalue k) (hvalue k')).2 rfl
  refine ⟨hlt hn hn', ?_⟩
  intro h
  rcases lt_trichotomy ((Nat.toDigits b n).leftpad w '0') ((Nat.toDigits b n').leftpad w '0') with hl | he | hg
  · exact hl
  · exact absurd (leftpad_inj h1 (by omega) he) h.ne
  · exact absurd (hlt hn' hn hg) (Nat.lt_asymm h)

end order

end Numeral
