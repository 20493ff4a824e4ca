import Pcapstat.WalkLogic

/-! # Walks over known bytes

A span that was captured in full covers a list of bytes (`Covers`).  Stepping over a header drops the
bytes of the header, and clipping to a declared length keeps that many; what is read is in the list.  So
a walk over an encoded value can be followed on the encoding, without offsets. -/

namespace SpanWalk

/-! ### Bytes of memory -/

theorem Mem.bytes_add (m : Mem) (a n k : ℕ) : m.bytes a (n + k) = m.bytes a n ++ m.bytes (a + n) k := by
  unfold Mem.bytes
  rw [List.range_add, List.map_append, List.map_map]
  congr 1
  apply List.map_congr_left
  intro i _
  show m (a + (n + i)) = m (a + n + i)
  rw [Nat.add_assoc]

theorem Mem.getElem?_bytes (m : Mem) (a n i : ℕ) :
    (m.bytes a n)[i]? = if i < n then some (m (a + i)) else none := by
  unfold Mem.bytes
  rw [List.getElem?_map]
  split_ifs with h
  · rw [List.getElem?_range h]
    rfl
  · rw [List.getElem?_eq_none]
    · rfl
    · rw [List.length_range]
      omega

theorem Mem.bytes_ofList (bs : List UInt8) : (Mem.ofList bs).bytes 0 bs.length = bs := by
  apply List.ext_getElem?
  intro i
  rw [Mem.getElem?_bytes]
  split_ifs with h
  · rw [Nat.zero_add, Mem.ofList, List.getD_eq_getElem _ _ h, List.getElem?_eq_getElem h]
  · exact (List.getElem?_eq_none (Nat.le_of_not_lt h)).symm

theorem Mem.bytes_part {m : Mem} {a : ℕ} {xs ys zs : List UInt8}
    (h : m.bytes a (xs ++ (ys ++ zs)).length = xs ++ (ys ++ zs)) :
    m.bytes (a + xs.length) ys.length = ys := by
  rw [List.length_append, List.length_append, Mem.bytes_add, Mem.bytes_add] at h
  have hrest := (List.append_inj h (Mem.bytes_length m a _)).2
  exact (List.append_inj hrest (Mem.bytes_length m _ _)).1

/-! ### Covered spans -/

/-- The span was captured in full and covers `bs`. -/
structure Covers (m : Mem) (s : Span) (bs : List UInt8) : Prop where
  cap : s.cap = bs.length
  wire : s.wire = bs.length
  bytes : m.bytes s.p bs.length = bs

section covers

variable {m : Mem} {s : Span} {bs xs ys zs : List UInt8} {n i : ℕ} {b : UInt8}

theorem covers_ofList (bs : List UInt8) : Covers (Mem.ofList bs) ⟨0, bs.length, bs.length⟩ bs :=
  ⟨rfl, rfl, Mem.bytes_ofList bs⟩

theorem Covers.byte (h : Covers m s bs) (hi : bs[i]? = some b) : m (s.p + i) = b := by
  have hlt := (List.getElem?_eq_some_iff.mp hi).1
  rw [← h.bytes, Mem.getElem?_bytes, if_pos hlt] at hi
  exact Option.some.inj hi

theorem Covers.slice (h : Covers m s bs) (hle : i + n ≤ bs.length) :
    m.bytes (s.p + i) n = (bs.drop i).take n := by
  apply List.ext_getElem?
  intro k
  rw [Mem.getElem?_bytes, List.getElem?_take]
  split_ifs with hk
  · have hlt : i + k < bs.length := by omega
    rw [List.getElem?_drop, List.getElem?_eq_getElem hlt, Nat.add_assoc,
      h.byte (List.getElem?_eq_getElem hlt)]
  · rfl

theorem Covers.advance (h : Covers m s (xs ++ ys)) (hn : xs.length = n) :
    Covers m ⟨s.p + n, s.cap - n, s.wire - n⟩ ys := by
  have hcap := h.cap
  have hwire := h.wire
  rw [List.length_append] at hcap hwire
  refine ⟨?_, ?_, ?_⟩
  · show s.cap - n = ys.length
    omega
  · show s.wire - n = ys.length
    omega
  · have hpart := h.bytes
    rw [← List.append_nil ys] at hpart
    rw [← hn]
    exact Mem.bytes_part hpart

/-- The first bytes, when a header declares how many there are. -/
theorem Covers.clip (h : Covers m s (xs ++ ys)) (hn : xs.length = n) :
    Covers m ⟨s.p, min s.cap n, n⟩ xs := by
  have hcap := h.cap
  rw [List.length_append] at hcap
  refine ⟨?_, hn.symm, ?_⟩
  · show min s.cap n = xs.length
    omega
  · exact @Mem.bytes_part m s.p [] xs ys h.bytes

end covers

/-! ### Walks on covered spans -/

section walks

open Walk

variable {σ ε α : Type} {m : Mem} {s : Span} {o : σ} {bs : List UInt8}

/-- On such a span no check can blame the capture. -/
theorem Covers.wp_need {G : Event → Prop} {Q : Unit → Span → σ → Prop} {E : ε → Span → σ → Prop}
    (h : Covers m s bs) (n : ℕ) (t b : ε) : wp G m (need n t b : Walk σ ε Unit) Q E s o ↔
      (n ≤ bs.length → Q () s o) ∧ (bs.length < n → E b s o) := by
  rw [Walk.wp_need, h.cap, h.wire]
  constructor
  · rintro ⟨hok, -, hbad⟩
    exact ⟨hok, fun hlt => hbad hlt hlt⟩
  · rintro ⟨hok, hbad⟩
    exact ⟨hok, fun hlt hle => absurd hle (Nat.not_le_of_lt hlt), fun hlt _ => hbad hlt⟩

/-- A walk that stays inside its span does the same on any span with the same bytes. -/
theorem Covers.run_eq {m' : Mem} {s' : Span} {x : Walk σ ε α} (h : Covers m s bs) (h' : Covers m' s' bs)
    (hread : ∀ i, Event.read i ∈ (x.run m s o).log → i < s.p + s.cap) :
    (x.run m s o).res = (x.run m' s' o).res ∧ (x.run m s o).out = (x.run m' s' o).out := by
  have hmoved := x.reloc m m' s s' o (h.cap.trans h'.cap.symm) (h.wire.trans h'.wire.symm) ?_
  · exact ⟨hmoved.res, hmoved.out⟩
  · intro k hk
    have hlt : k < bs.length := by
      have := hread _ hk
      rw [h.cap] at this
      omega
    have hb : bs[k]? = some bs[k] := List.getElem?_eq_getElem hlt
    rw [h.byte hb, h'.byte hb]

end walks

end SpanWalk
