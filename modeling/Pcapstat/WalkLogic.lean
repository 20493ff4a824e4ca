import Pcapstat.Walk

/-! # Reasoning about walks

* `wp G m x Q E s o`: started on span `s` with out-parameter `o` in memory `m`, the walk
  `x` logs only events in `G` and ends either normally in `Q` or early in `E`.  There is one
  rule per primitive; together they are the simp set that turns a walk into its
  verification conditions.
* `Commutes f x`: `x` neither reads nor overwrites what `f` changes of the out-parameter.
* `Lenient x`: where `x` ends normally, more captured bytes behind the span make no difference.
* `CutSafe T L P x`: run on a cut capture and on a longer capture of the same bytes, `x`
  does the same thing, unless the cut capture makes it leave early for a reason in `T`;
  what it had found by then (in the sense of `L`) the longer run finds too. -/

namespace SpanWalk

/-- The `n` bytes from offset `a` on. -/
def Mem.bytes (m : Mem) (a n : ℕ) : List UInt8 := (List.range n).map fun k => m (a + k)

@[simp] theorem Mem.bytes_length (m : Mem) (a n : ℕ) : (m.bytes a n).length = n := by
  simp [Mem.bytes]

theorem Mem.bytes_succ (m : Mem) (a n : ℕ) : m.bytes a (n + 1) = m a :: m.bytes (a + 1) n := by
  simp only [Mem.bytes, List.range_succ_eq_map, List.map_cons, List.map_map, Nat.add_zero]
  congr 1
  apply List.map_congr_left
  intro k _
  simp only [Function.comp_apply, Nat.succ_eq_add_one]
  congr 1
  omega

namespace Walk

variable {σ τ ε δ α β : Type}

/-! ### Weakest preconditions -/

section wp

/-- The run logs only events in `G` and ends in `Q`, or early in `E`. -/
def wp (G : Event → Prop) (m : Mem) (x : Walk σ ε α) (Q : α → Span → σ → Prop)
    (E : ε → Span → σ → Prop) (s : Span) (o : σ) : Prop :=
  (∀ e ∈ (x.run m s o).log, G e) ∧
    match (x.run m s o).res with
    | .ok a => Q a (x.run m s o).s (x.run m s o).out
    | .error e => E e (x.run m s o).s (x.run m s o).out

variable {G : Event → Prop} {m : Mem} {Q : α → Span → σ → Prop} {E : ε → Span → σ → Prop}
  {s : Span} {o : σ}

theorem wp_mono {x : Walk σ ε α} {Q' : α → Span → σ → Prop} {E' : ε → Span → σ → Prop}
    (h : wp G m x Q E s o) (hQ : ∀ a s' o', Q a s' o' → Q' a s' o')
    (hE : ∀ e s' o', E e s' o' → E' e s' o') : wp G m x Q' E' s o := by
  refine ⟨h.1, ?_⟩
  have h2 := h.2
  cases hr : (x.run m s o).res with
  | ok a => rw [hr] at h2; exact hQ _ _ _ h2
  | error e => rw [hr] at h2; exact hE _ _ _ h2

theorem wp_log {G' : Event → Prop} {x : Walk σ ε α} (h : wp G m x Q E s o) (hG : ∀ e, G e → G' e) :
    wp G' m x Q E s o := ⟨fun e he => hG e (h.1 e he), h.2⟩

theorem wp_top {x : Walk σ ε α} (h : wp G m x Q E s o) : wp (fun _ => True) m x Q E s o :=
  wp_log h fun _ _ => trivial

theorem wp_and {x : Walk σ ε α} {Q' : α → Span → σ → Prop} {E' : ε → Span → σ → Prop}
    (h : wp G m x Q E s o) (h' : wp (fun _ => True) m x Q' E' s o) :
    wp G m x (fun a s' o' => Q a s' o' ∧ Q' a s' o') (fun e s' o' => E e s' o' ∧ E' e s' o') s o := by
  refine ⟨h.1, ?_⟩
  have h2 := h.2
  have h2' := h'.2
  cases hr : (x.run m s o).res with
  | ok a => rw [hr] at h2 h2'; exact ⟨h2, h2'⟩
  | error e => rw [hr] at h2 h2'; exact ⟨h2, h2'⟩

@[simp] theorem wp_pure (a : α) : wp G m (pure a : Walk σ ε α) Q E s o ↔ Q a s o := by
  simp [wp, Pure.pure, Walk.pure]

@[simp] theorem wp_fail (e : ε) : wp G m (fail e : Walk σ ε α) Q E s o ↔ E e s o := by
  simp [wp, fail]

@[simp] theorem wp_bind {x : Walk σ ε α} {f : α → Walk σ ε β} {Q : β → Span → σ → Prop} :
    wp G m (x >>= f) Q E s o ↔ wp G m x (fun a s' o' => wp G m (f a) Q E s' o') E s o := by
  cases h : (x.run m s o).res with
  | error e => simp only [wp, run_bind, andThen_error h, h]
  | ok a =>
      simp only [wp, run_bind, andThen_ok h, h, List.mem_append, or_imp, forall_and]
      exact and_assoc

@[simp] theorem wp_getOut {Q : σ → Span → σ → Prop} :
    wp G m (getOut : Walk σ ε σ) Q E s o ↔ Q o s o := by
  simp [wp, getOut]

@[simp] theorem wp_modifyOut {Q : Unit → Span → σ → Prop} (f : σ → σ) :
    wp G m (modifyOut f : Walk σ ε Unit) Q E s o ↔ Q () s (f o) := by
  simp [wp, modifyOut]

@[simp] theorem wp_load8 {Q : UInt8 → Span → σ → Prop} (i : ℕ) :
    wp G m (load8 i : Walk σ ε UInt8) Q E s o ↔ G (.read (s.p + i)) ∧ Q (m (s.p + i)) s o := by
  simp [wp, load8]

@[simp] theorem wp_wireLeft {Q : ℕ → Span → σ → Prop} :
    wp G m (wireLeft : Walk σ ε ℕ) Q E s o ↔ Q s.wire s o := by
  simp [wp, wireLeft]

@[simp] theorem wp_wireMinus {Q : ℕ → Span → σ → Prop} (n : ℕ) :
    wp G m (wireMinus n : Walk σ ε ℕ) Q E s o ↔ G (.sub s.wire n) ∧ Q (s.wire - n) s o := by
  simp [wp, wireMinus]

@[simp] theorem wp_need {Q : Unit → Span → σ → Prop} (n : ℕ) (t b : ε) :
    wp G m (need n t b : Walk σ ε Unit) Q E s o ↔
      (n ≤ s.cap → Q () s o) ∧ (s.cap < n → n ≤ s.wire → E t s o) ∧
        (s.cap < n → s.wire < n → E b s o) := by
  by_cases h₁ : n ≤ s.cap
  · simp [wp, need, h₁]
  · by_cases h₂ : n ≤ s.wire <;> simp [wp, need, h₁, h₂, Nat.lt_of_not_le]

@[simp] theorem wp_requireCap {Q : Unit → Span → σ → Prop} (n : ℕ) (e : ε) :
    wp G m (requireCap n e : Walk σ ε Unit) Q E s o ↔
      (n ≤ s.cap → Q () s o) ∧ (s.cap < n → E e s o) := by
  by_cases h : s.cap < n
  · simp [wp, requireCap, h]
  · simp [wp, requireCap, h, Nat.le_of_not_lt]

@[simp] theorem wp_exitIf {Q : Unit → Span → σ → Prop} (c : Prop) {d : Decidable c} (e : ε) :
    wp G m (@exitIf σ ε c d e) Q E s o ↔ (¬ c → Q () s o) ∧ (c → E e s o) := by
  by_cases h : c <;> simp [wp, exitIf, h]

@[simp] theorem wp_advance {Q : Unit → Span → σ → Prop} (n : ℕ) :
    wp G m (advance n : Walk σ ε Unit) Q E s o ↔
      G (.sub s.cap n) ∧ G (.sub s.wire n) ∧ G (.at ⟨s.p + n, s.cap - n, s.wire - n⟩) ∧
        Q () ⟨s.p + n, s.cap - n, s.wire - n⟩ o := by
  simp [wp, advance, and_assoc]

theorem ite_gt_eq_min (a b : ℕ) : (if a > b then b else a) = min a b := by
  split_ifs <;> omega

@[simp] theorem wp_clip {Q : Unit → Span → σ → Prop} (len : ℕ) :
    wp G m (clip len : Walk σ ε Unit) Q E s o ↔
      G (.at ⟨s.p, min s.cap len, len⟩) ∧ Q () ⟨s.p, min s.cap len, len⟩ o := by
  simp [wp, clip, ite_gt_eq_min]

@[simp] theorem wp_ite (c : Prop) {d : Decidable c} (x y : Walk σ ε α) :
    wp G m (@ite _ c d x y) Q E s o ↔
      (c → wp G m x Q E s o) ∧ (¬ c → wp G m y Q E s o) := by
  split_ifs with h <;> simp [h]

@[simp] theorem wp_attempt {x : Walk σ δ α} {Q : Except δ α → Span → σ → Prop} :
    wp G m (attempt x : Walk σ ε (Except δ α)) Q E s o ↔
      wp G m x (fun a => Q (.ok a)) (fun e => Q (.error e)) s o := by
  cases h : (x.run m s o).res <;> simp [wp, attempt, h]

@[simp] theorem wp_scratch {x : Walk τ δ α} {t : τ} {Q : Except δ α × τ → Span → σ → Prop} :
    wp G m (scratch x t : Walk σ ε (Except δ α × τ)) Q E s o ↔
      wp G m x (fun a s' t' => Q (.ok a, t') s' o) (fun e s' t' => Q (.error e, t') s' o) s t := by
  cases h : (x.run m s t).res <;> simp [wp, scratch, h]

@[simp] theorem wp_loadBytes {Q : List UInt8 → Span → σ → Prop} (i n : ℕ) :
    wp G m (loadBytes i n : Walk σ ε (List UInt8)) Q E s o ↔
      (∀ k < n, G (.read (s.p + (i + k)))) ∧ Q (m.bytes (s.p + i) n) s o := by
  induction n generalizing i Q with
  | zero => simp [loadBytes, Mem.bytes]
  | succ n ih =>
      simp only [loadBytes, wp_bind, wp_load8, ih, wp_pure, Mem.bytes_succ, Nat.add_assoc]
      rw [← and_assoc]
      refine and_congr_left fun _ => ⟨fun h k hk => ?_, fun h => ⟨by simpa using h 0 (by omega),
        fun k hk => ?_⟩⟩
      · cases k with
        | zero => exact h.1
        | succ k => simpa [Nat.add_comm, Nat.add_left_comm] using h.2 k (by omega)
      · simpa [Nat.add_comm, Nat.add_left_comm] using h (k + 1) (by omega)

/-- Without a condition on the log, `wp` speaks about the end of the run only. -/
theorem wp_top_iff {x : Walk σ ε α} : wp (fun _ => True) m x Q E s o ↔
    (∀ a, (x.run m s o).res = .ok a → Q a (x.run m s o).s (x.run m s o).out) ∧
    (∀ e, (x.run m s o).res = .error e → E e (x.run m s o).s (x.run m s o).out) := by
  cases h : (x.run m s o).res <;> simp [wp, h]

/-- A walk that never leaves early. -/
theorem exists_of_wp {x : Walk σ ε α} (h : wp G m x Q (fun _ _ _ => False) s o) :
    ∃ a, (x.run m s o).res = .ok a ∧ Q a (x.run m s o).s (x.run m s o).out := by
  obtain ⟨hok, herr⟩ := wp_top_iff.mp (wp_top h)
  cases hr : (x.run m s o).res with
  | ok a => exact ⟨a, rfl, hok a hr⟩
  | error e => exact absurd (herr e hr) not_false

end wp

/-! ### What a walk does not look at -/

section commutes

/-- `x` neither reads nor overwrites what `f` changes of the out-parameter. -/
def Commutes (f : σ → σ) (x : Walk σ ε α) : Prop :=
  ∀ m s o, x.run m s (f o) = ⟨(x.run m s o).res, (x.run m s o).s, f (x.run m s o).out, (x.run m s o).log⟩

variable {f : σ → σ}

theorem Commutes.pure (a : α) : Commutes f (pure a : Walk σ ε α) := fun _ _ _ => rfl

theorem Commutes.fail (e : ε) : Commutes f (fail e : Walk σ ε α) := fun _ _ _ => rfl

theorem Commutes.load8 (i : ℕ) : Commutes f (load8 i : Walk σ ε UInt8) := fun _ _ _ => rfl

theorem Commutes.wireLeft : Commutes f (wireLeft : Walk σ ε ℕ) := fun _ _ _ => rfl

theorem Commutes.wireMinus (n : ℕ) : Commutes f (wireMinus n : Walk σ ε ℕ) := fun _ _ _ => rfl

theorem Commutes.need (n : ℕ) (t b : ε) : Commutes f (need n t b : Walk σ ε Unit) := fun _ _ _ => rfl

theorem Commutes.requireCap (n : ℕ) (e : ε) : Commutes f (requireCap n e : Walk σ ε Unit) := fun _ _ _ => rfl

theorem Commutes.exitIf (c : Prop) {d : Decidable c} (e : ε) : Commutes f (@Walk.exitIf σ ε c d e) :=
  fun _ _ _ => rfl

theorem Commutes.advance (n : ℕ) : Commutes f (advance n : Walk σ ε Unit) := fun _ _ _ => rfl

theorem Commutes.clip (len : ℕ) : Commutes f (clip len : Walk σ ε Unit) := fun _ _ _ => rfl

theorem Commutes.modifyOut {g : σ → σ} (h : ∀ o, g (f o) = f (g o)) :
    Commutes f (modifyOut g : Walk σ ε Unit) := by
  intro m s o
  simp only [Walk.modifyOut, h]

theorem Commutes.ite {c : Prop} {d : Decidable c} {x y : Walk σ ε α} (hx : Commutes f x) (hy : Commutes f y) :
    Commutes f (@ite _ c d x y) := by
  split_ifs
  · exact hx
  · exact hy

theorem Commutes.bind {x : Walk σ ε α} {k : α → Walk σ ε β} (hx : Commutes f x)
    (hk : ∀ a, Commutes f (k a)) :
    Commutes f (x >>= k) := by
  intro m s o
  simp only [run_bind, hx m s o]
  cases h : (x.run m s o).res with
  | error e => rw [andThen_error h, andThen_error rfl]
  | ok a => simp only [andThen, h, hk a m (x.run m s o).s]

/-- What follows must not depend on what `f` changes either. -/
theorem Commutes.getOut_bind {k : σ → Walk σ ε β} (hsame : ∀ o, k (f o) = k o) (hk : ∀ o, Commutes f (k o)) :
    Commutes f (getOut >>= k) := by
  intro m s o
  have hnext := hk o m s o
  simp only [run_bind, getOut, andThen, hsame, hnext]

theorem Commutes.loadBytes : ∀ i n : ℕ, Commutes f (loadBytes i n : Walk σ ε (List UInt8))
  | _, 0 => .pure []
  | i, n + 1 => .bind (.load8 i) fun b => .bind (.loadBytes (i + 1) n) fun bs => .pure (b :: bs)

end commutes

end Walk

/-! ### More captured bytes -/

/-- The span with `k` more bytes behind it, all of them captured. -/
def Span.longer (s : Span) (k : ℕ) : Span := ⟨s.p, s.cap + k, s.wire + k⟩

/-- No subtraction wrapped. -/
def Unwrapped (log : List Event) : Prop := ∀ a b, Event.sub a b ∈ log → b ≤ a

namespace Walk

section lenient

/-- `x` does not look at how long its span is: where it ends normally, more bytes make no difference. -/
def Lenient (x : Walk σ ε α) : Prop :=
  ∀ m s o a k, Unwrapped (x.run m s o).log → (x.run m s o).res = .ok a →
    (x.run m (s.longer k) o).res = .ok a ∧ (x.run m (s.longer k) o).out = (x.run m s o).out ∧
      (x.run m (s.longer k) o).s = (x.run m s o).s.longer k

theorem Lenient.pure (a : α) : Lenient (pure a : Walk σ ε α) := fun _ _ _ _ _ _ hr => ⟨hr, rfl, rfl⟩

theorem Lenient.fail (e : ε) : Lenient (fail e : Walk σ ε α) := fun _ _ _ _ _ _ hr => nomatch hr

theorem Lenient.load8 (i : ℕ) : Lenient (load8 i : Walk σ ε UInt8) := fun _ _ _ _ _ _ hr => ⟨hr, rfl, rfl⟩

theorem Lenient.modifyOut (f : σ → σ) : Lenient (modifyOut f : Walk σ ε Unit) :=
  fun _ _ _ _ _ _ hr => ⟨hr, rfl, rfl⟩

theorem Lenient.need (n : ℕ) (t b : ε) : Lenient (need n t b : Walk σ ε Unit) := by
  intro m s o a k _ hr
  by_cases hn : n ≤ s.cap
  · have hn' : n ≤ (s.longer k).cap := hn.trans (Nat.le_add_right _ k)
    refine ⟨?_, rfl, rfl⟩
    simp only [Walk.need, if_pos hn']
  · simp only [Walk.need, if_neg hn] at hr
    split_ifs at hr

theorem Lenient.advance (n : ℕ) : Lenient (advance n : Walk σ ε Unit) := by
  intro m s o a k hsub _
  have hcap : n ≤ s.cap := hsub _ _ (by simp [Walk.advance])
  have hwire : n ≤ s.wire := hsub _ _ (by simp [Walk.advance])
  refine ⟨rfl, rfl, ?_⟩
  simp only [Walk.advance, Span.longer, Span.mk.injEq, true_and]
  omega

theorem Lenient.ite {c : Prop} {d : Decidable c} {x y : Walk σ ε α} (hx : Lenient x) (hy : Lenient y) :
    Lenient (@ite _ c d x y) := by
  split_ifs
  · exact hx
  · exact hy

theorem Lenient.bind {x : Walk σ ε α} {f : α → Walk σ ε β} (hx : Lenient x) (hf : ∀ a, Lenient (f a)) :
    Lenient (x >>= f) := by
  intro m s o b k hsub hr
  simp only [run_bind] at hsub hr ⊢
  cases h : (x.run m s o).res with
  | error e =>
      rw [andThen_error h] at hr
      exact nomatch hr
  | ok a =>
      rw [andThen_ok h] at hsub hr ⊢
      obtain ⟨hres, hout, hs⟩ := hx m s o a k (fun u v huv => hsub u v (List.mem_append_left _ huv)) h
      obtain ⟨hres', hout', hs'⟩ :=
        hf a m (x.run m s o).s (x.run m s o).out b k (fun u v huv => hsub u v (List.mem_append_right _ huv)) hr
      rw [andThen_ok hres, hout, hs]
      exact ⟨hres', hout', hs'⟩

end lenient

end Walk

/-! ### Cutting the capture short -/

/-- `s₁` is `s₂` with some of its captured bytes missing. -/
structure Span.Cut (s₁ s₂ : Span) : Prop where
  p : s₁.p = s₂.p
  wire : s₁.wire = s₂.wire
  cap : s₁.cap ≤ s₂.cap
  room : s₂.cap ≤ s₂.wire

/-- Two runs, the first on a cut capture, that ended alike. -/
structure Ran.Agree {σ ε α : Type} (r₁ r₂ : Ran σ ε α) : Prop where
  res : r₁.res = r₂.res
  out : r₁.out = r₂.out
  s : r₁.s.Cut r₂.s

/-- The first run was stopped by the cut; the second one found all that the first had. -/
def Ran.CutOff {σ ε α : Type} (T : ε → Prop) (L : σ → σ → Prop) (r₁ r₂ : Ran σ ε α) : Prop :=
  ∃ e, r₁.res = .error e ∧ T e ∧ L r₁.out r₂.out

namespace Walk

variable {σ τ ε δ α β : Type}

/-- From an out-parameter in `P`, `x` only moves it up along `L` and ends normally in `R`; a cut
of the capture changes nothing, or stops `x` for a reason in `T`. -/
structure CutSafe (T : ε → Prop) (L : σ → σ → Prop) (P : σ → Prop) (x : Walk σ ε α)
    (R : α → σ → Prop) : Prop where
  grow : ∀ m s o, P o → wp (fun _ => True) m x (fun a _ o' => L o o' ∧ R a o')
    (fun _ _ o' => L o o') s o
  cut : ∀ m s₁ s₂ o, P o → s₁.Cut s₂ → (x.run m s₁ o).Agree (x.run m s₂ o) ∨
    (x.run m s₁ o).CutOff T L (x.run m s₂ o)

section cut

variable {T : ε → Prop} {L : σ → σ → Prop} {P : σ → Prop} {R : α → σ → Prop}

theorem CutSafe.le {x : Walk σ ε α} (h : CutSafe T L P x R) (m : Mem) (s : Span) {o : σ}
    (ho : P o) : L o (x.run m s o).out := by
  have hw := wp_top_iff.mp (h.grow m s o ho)
  cases hr : (x.run m s o).res with
  | ok a => exact (hw.1 a hr).1
  | error e => exact hw.2 e hr

theorem CutSafe.post {x : Walk σ ε α} (h : CutSafe T L P x R) {m : Mem} {s : Span} {o : σ}
    (ho : P o) {a : α} (hr : (x.run m s o).res = .ok a) : R a (x.run m s o).out :=
  ((wp_top_iff.mp (h.grow m s o ho)).1 a hr).2

theorem CutSafe.conseq {T' : ε → Prop} {P' : σ → Prop} {R' : α → σ → Prop} {x : Walk σ ε α}
    (h : CutSafe T L P x R) (hT : ∀ e, T e → T' e) (hP : ∀ o, P' o → P o)
    (hR : ∀ a o, R a o → R' a o) : CutSafe T' L P' x R' := by
  refine ⟨fun m s o ho => ?_, fun m s₁ s₂ o ho hs => ?_⟩
  · exact wp_mono (h.grow m s o (hP o ho)) (fun a _ o' h => ⟨h.1, hR a o' h.2⟩) fun _ _ _ h => h
  · rcases h.cut m s₁ s₂ o (hP o ho) hs with h | ⟨e, he, hT', hL⟩
    · exact .inl h
    · exact .inr ⟨e, he, hT e hT', hL⟩

theorem CutSafe.ite {c : Prop} {d : Decidable c} {x y : Walk σ ε α} (hx : c → CutSafe T L P x R)
    (hy : ¬ c → CutSafe T L P y R) : CutSafe T L P (@ite _ c d x y) R := by
  split_ifs with h
  · exact hx h
  · exact hy h

/-- If the cut stops `x`, the rest of the longer run keeps what `x` had found. -/
theorem CutSafe.bind [IsTrans σ L] {S : β → σ → Prop} {x : Walk σ ε α} {f : α → Walk σ ε β}
    (hx : CutSafe T L P x R) (hf : ∀ a, CutSafe T L (R a) (f a) S) : CutSafe T L P (x >>= f) S := by
  refine ⟨fun m s o ho => ?_, fun m s₁ s₂ o ho hs => ?_⟩
  · refine wp_bind.mpr (wp_mono (hx.grow m s o ho) (fun a s' o' h => ?_) fun _ _ _ h => h)
    exact wp_mono ((hf a).grow m s' o' h.2) (fun _ _ _ h' => ⟨IsTrans.trans _ _ _ h.1 h'.1, h'.2⟩)
      fun _ _ _ h' => IsTrans.trans _ _ _ h.1 h'
  · simp only [run_bind]
    rcases hx.cut m s₁ s₂ o ho hs with h | ⟨e, he, hT, hL⟩
    · cases hr : (x.run m s₂ o).res with
      | error e =>
          rw [andThen_error hr, andThen_error (h.res.trans hr)]
          exact .inl ⟨rfl, h.out, h.s⟩
      | ok a =>
          rw [andThen_ok hr, andThen_ok (h.res.trans hr), h.out]
          rcases (hf a).cut m _ _ _ (hx.post ho hr) h.s with hf | ⟨e, he, hT, hL⟩
          · exact .inl ⟨hf.res, hf.out, hf.s⟩
          · exact .inr ⟨e, he, hT, hL⟩
    · rw [andThen_error he]
      refine .inr ⟨e, rfl, hT, ?_⟩
      cases hr : (x.run m s₂ o).res with
      | error e => rw [andThen_error hr]; exact hL
      | ok a =>
          rw [andThen_ok hr]
          exact IsTrans.trans _ _ _ hL ((hf a).le m _ (hx.post ho hr))

/-! #### Steps that a cut cannot stop -/

/-- `x` leaves the out-parameter alone and does not look at how much was captured. -/
theorem CutSafe.of_sync [Std.Refl L] {x : Walk σ ε α} (hout : ∀ m s o, (x.run m s o).out = o)
    (hsync : ∀ m s₁ s₂ o, s₁.Cut s₂ →
      (x.run m s₁ o).res = (x.run m s₂ o).res ∧ (x.run m s₁ o).s.Cut (x.run m s₂ o).s) :
    CutSafe T L P x fun _ => P := by
  refine ⟨fun m s o ho => ?_, fun m s₁ s₂ o _ hs => ?_⟩
  · refine wp_top_iff.mpr ⟨fun a _ => ?_, fun e _ => ?_⟩
    · rw [hout]
      exact ⟨Std.Refl.refl o, ho⟩
    · rw [hout]
      exact Std.Refl.refl o
  · obtain ⟨hr, hc⟩ := hsync m s₁ s₂ o hs
    exact .inl ⟨hr, by rw [hout, hout], hc⟩

theorem CutSafe.pure [Std.Refl L] {a : α} (h : ∀ o, P o → R a o) :
    CutSafe T L P (pure a : Walk σ ε α) R :=
  ⟨fun _ _ o ho => (wp_pure a).mpr ⟨Std.Refl.refl o, h o ho⟩, fun _ _ _ _ _ hs => .inl ⟨rfl, rfl, hs⟩⟩

theorem CutSafe.fail [Std.Refl L] (e : ε) : CutSafe T L P (fail e : Walk σ ε α) R :=
  ⟨fun _ _ o _ => (wp_fail e).mpr (Std.Refl.refl o), fun _ _ _ _ _ hs => .inl ⟨rfl, rfl, hs⟩⟩

/-- `x` only looks at memory: its value is `v`, of the memory and the current offset. -/
def Reads (x : Walk σ ε α) (v : Mem → ℕ → α) : Prop :=
  ∀ m s o, (x.run m s o).res = .ok (v m s.p) ∧ (x.run m s o).s = s ∧ (x.run m s o).out = o

theorem reads_load8 (i : ℕ) : Reads (load8 i : Walk σ ε UInt8) fun m p => m (p + i) :=
  fun _ _ _ => ⟨rfl, rfl, rfl⟩

theorem reads_loadBytes : ∀ (i n : ℕ),
    Reads (loadBytes i n : Walk σ ε (List UInt8)) fun m p => m.bytes (p + i) n
  | _, 0 => fun _ _ _ => ⟨rfl, rfl, rfl⟩
  | i, n + 1 => by
      intro m s o
      obtain ⟨hr, hs, ho⟩ := reads_loadBytes (i + 1) n m s o
      obtain ⟨hl, hl', hl''⟩ := reads_load8 (ε := ε) i m s o
      simp only [loadBytes, run_bind, andThen_ok hl, hl', hl'', andThen_ok hr, hs, ho,
        Mem.bytes_succ]
      exact ⟨rfl, rfl, rfl⟩

theorem CutSafe.reads [Std.Refl L] {x : Walk σ ε α} {v : Mem → ℕ → α} (hx : Reads x v) :
    CutSafe T L P x fun _ => P :=
  .of_sync (fun m s o => (hx m s o).2.2) fun m s₁ s₂ o hs => by
    obtain ⟨hr₁, hs₁, -⟩ := hx m s₁ o
    obtain ⟨hr₂, hs₂, -⟩ := hx m s₂ o
    exact ⟨by rw [hr₁, hr₂, hs.p], by rwa [hs₁, hs₂]⟩

theorem CutSafe.load8 [Std.Refl L] (i : ℕ) : CutSafe T L P (load8 i : Walk σ ε UInt8) fun _ => P :=
  .reads (reads_load8 i)

theorem CutSafe.loadBytes [Std.Refl L] (i n : ℕ) :
    CutSafe T L P (loadBytes i n : Walk σ ε (List UInt8)) fun _ => P :=
  .reads (reads_loadBytes i n)

theorem CutSafe.wireLeft [Std.Refl L] : CutSafe T L P (wireLeft : Walk σ ε ℕ) fun _ => P :=
  .of_sync (fun _ _ _ => rfl) fun _ _ _ _ hs => ⟨congrArg Except.ok hs.wire, hs⟩

theorem CutSafe.wireMinus [Std.Refl L] (n : ℕ) :
    CutSafe T L P (wireMinus n : Walk σ ε ℕ) fun _ => P :=
  .of_sync (fun _ _ _ => rfl) fun _ _ _ _ hs => ⟨by simp only [Walk.wireMinus, hs.wire], hs⟩

theorem CutSafe.exitIf [Std.Refl L] {c : Prop} {d : Decidable c} {e : ε} :
    CutSafe T L P (@Walk.exitIf σ ε c d e) fun _ => P :=
  .of_sync (fun _ _ _ => rfl) fun _ _ _ _ hs => ⟨rfl, hs⟩

theorem CutSafe.advance [Std.Refl L] (n : ℕ) :
    CutSafe T L P (advance n : Walk σ ε Unit) fun _ => P :=
  .of_sync (fun _ _ _ => rfl) fun _ _ _ _ hs => ⟨rfl, congrArg (· + n) hs.p,
    congrArg (· - n) hs.wire, Nat.sub_le_sub_right hs.cap n, Nat.sub_le_sub_right hs.room n⟩

theorem CutSafe.clip [Std.Refl L] (len : ℕ) :
    CutSafe T L P (clip len : Walk σ ε Unit) fun _ => P :=
  .of_sync (fun _ _ _ => rfl) fun _ s₁ s₂ _ hs => by
    have hcap := hs.cap
    refine ⟨rfl, hs.p, rfl, ?_, ?_⟩
    all_goals
      simp only [Walk.clip, ite_gt_eq_min]
      omega

theorem CutSafe.getOut [Std.Refl L] : CutSafe T L P (getOut : Walk σ ε σ) fun a o => o = a ∧ P o :=
  ⟨fun _ _ o ho => wp_getOut.mpr ⟨Std.Refl.refl o, rfl, ho⟩, fun _ _ _ _ _ hs => .inl ⟨rfl, rfl, hs⟩⟩

theorem CutSafe.modifyOut {R : Unit → σ → Prop} {g : σ → σ} (hg : ∀ o, P o → L o (g o) ∧ R () (g o)) :
    CutSafe T L P (modifyOut g : Walk σ ε Unit) R :=
  ⟨fun _ _ o ho => (wp_modifyOut g).mpr (hg o ho), fun _ _ _ _ _ hs => .inl ⟨rfl, rfl, hs⟩⟩

/-! #### Steps that a cut can stop -/

theorem CutSafe.need [Std.Refl L] {n : ℕ} {t b : ε} (ht : T t) :
    CutSafe T L P (need n t b : Walk σ ε Unit) fun _ => P := by
  refine ⟨fun m s o ho => ?_, fun m s₁ s₂ o _ hs => ?_⟩
  · exact (wp_need n t b).mpr ⟨fun _ => ⟨Std.Refl.refl o, ho⟩, fun _ _ => Std.Refl.refl o,
      fun _ _ => Std.Refl.refl o⟩
  · have hcap := hs.cap
    have hroom := hs.room
    have hwire := hs.wire
    by_cases h₁ : n ≤ s₁.cap
    · exact .inl ⟨by simp [Walk.need, h₁, h₁.trans hcap], rfl, hs⟩
    · by_cases h₂ : n ≤ s₁.wire
      · exact .inr ⟨t, by simp [Walk.need, h₁, h₂], ht, Std.Refl.refl o⟩
      · have h₃ : ¬ n ≤ s₂.cap := by omega
        exact .inl ⟨by simp [Walk.need, h₁, h₂, h₃, hwire ▸ h₂], rfl, hs⟩

theorem CutSafe.requireCap [Std.Refl L] {n : ℕ} {t : ε} (ht : T t) :
    CutSafe T L P (requireCap n t : Walk σ ε Unit) fun _ => P := by
  refine ⟨fun m s o ho => ?_, fun m s₁ s₂ o _ hs => ?_⟩
  · exact (wp_requireCap n t).mpr ⟨fun _ => ⟨Std.Refl.refl o, ho⟩, fun _ => Std.Refl.refl o⟩
  · have hcap := hs.cap
    by_cases h₁ : s₁.cap < n
    · exact .inr ⟨t, by simp [Walk.requireCap, h₁], ht, Std.Refl.refl o⟩
    · have h₂ : ¬ s₂.cap < n := by omega
      exact .inl ⟨by simp [Walk.requireCap, h₁, h₂], rfl, hs⟩

/-- The rest of the walk after a part with its own out-parameter.  If the cut stops that part, the
rest must stop for a reason in `T`. -/
theorem CutSafe.scratch_bind {Tx : δ → Prop} {Lx : τ → τ → Prop} {Px : τ → Prop}
    {Rx : α → τ → Prop} {S : β → σ → Prop} {x : Walk τ δ α} {t : τ}
    {f : Except δ α × τ → Walk σ ε β} (hx : CutSafe Tx Lx Px x Rx) (ht : Px t)
    (hf : ∀ r, CutSafe T L P (f r) S)
    (hstop : ∀ m s₁ s₂ o e t₁ r, P o → Tx e → Lx t₁ r.2 →
      ((f (.error e, t₁)).run m s₁ o).CutOff T L ((f r).run m s₂ o)) :
    CutSafe T L P (scratch x t >>= f) S := by
  refine ⟨fun m s o ho => ?_, fun m s₁ s₂ o ho hs => ?_⟩
  · refine wp_bind.mpr (wp_scratch.mpr (wp_mono (hx.grow m s t ht) ?_ ?_))
    all_goals exact fun _ _ _ _ => (hf _).grow m _ o ho
  · simp only [run_bind, scratch, andThen]
    rcases hx.cut m s₁ s₂ t ht hs with h | ⟨e, he, hT, hL⟩
    · rw [h.res, h.out]
      rcases (hf _).cut m _ _ o ho h.s with hf | hf
      · exact .inl ⟨hf.res, hf.out, hf.s⟩
      · exact .inr hf
    · rw [he]
      exact .inr (hstop m _ _ o e _ (_, _) ho hT hL)

end cut

end Walk
end SpanWalk
