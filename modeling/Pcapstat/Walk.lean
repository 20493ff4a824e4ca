import Mathlib

/-! # Walks over a captured buffer

A decoder of captured data stands on a *span* of a buffer: `p` is where the next header
starts, `cap` bytes from there on are in the buffer, and `wire` bytes from there on exist
according to the enclosing header (`wire` exceeds `cap` when the capture was cut short).
`Walk σ ε α` is the type of programs that move over such a span:

* they read single bytes relative to the span (`load8`), step over a header (`advance`),
  shrink the span to a declared length (`clip`) and check for room (`need`);
* they fill in an out-parameter of type `σ`, which survives an early exit;
* they end with a value of type `α` or leave early with a reason of type `ε`.

A run also returns a log (`Event`): every byte offset read, both operands of every size
subtraction, and every span the walk stands on.  The log is what the safety statements
are about; no program can look at it.

A walk cannot observe where in memory it stands: this is the field `reloc` of the
structure, proved once per primitive and for `bind`, so that every walk written with the
primitives depends only on the bytes it logs and may be moved to another buffer. -/

namespace SpanWalk

/-- Memory as seen from a base pointer. -/
abbrev Mem := ℕ → UInt8

/-- A buffer that holds `bs`; what lies beyond it is never looked at. -/
def Mem.ofList (bs : List UInt8) : Mem := fun i => bs.getD i 0

/-- The bytes that remain at the current layer. -/
structure Span where
  p : ℕ
  cap : ℕ
  wire : ℕ
deriving DecidableEq, Repr

/-- What a run is accountable for. -/
inductive Event where
  /-- a byte is read at this offset -/
  | read (i : ℕ)
  /-- `b` is subtracted from `a` -/
  | sub (a b : ℕ)
  /-- the walk stands on this span -/
  | at (s : Span)
deriving DecidableEq, Repr

/-- The end of a run. -/
structure Ran (σ ε α : Type) where
  res : Except ε α
  s : Span
  out : σ
  log : List Event

/-- Two runs that did the same relative to the spans they started from. -/
structure Ran.Moved {σ ε α : Type} (s₁ s₂ : Span) (r₁ r₂ : Ran σ ε α) : Prop where
  res : r₁.res = r₂.res
  out : r₁.out = r₂.out
  cap : r₁.s.cap = r₂.s.cap
  wire : r₁.s.wire = r₂.s.wire
  step : ∃ a, r₁.s.p = s₁.p + a ∧ r₂.s.p = s₂.p + a

/-- `run` depends on its memory only through the bytes it reads, relative to the span. -/
def Relocatable {σ ε α : Type} (run : Mem → Span → σ → Ran σ ε α) : Prop :=
  ∀ (m₁ m₂ : Mem) (s₁ s₂ : Span) (o : σ), s₁.cap = s₂.cap → s₁.wire = s₂.wire →
    (∀ k, Event.read (s₁.p + k) ∈ (run m₁ s₁ o).log → m₁ (s₁.p + k) = m₂ (s₂.p + k)) →
    Ran.Moved s₁ s₂ (run m₁ s₁ o) (run m₂ s₂ o)

/-- A program over a span, with out-parameter `σ` and exit reasons `ε`. -/
structure Walk (σ ε α : Type) where
  run : Mem → Span → σ → Ran σ ε α
  reloc : Relocatable run

namespace Walk

variable {σ τ ε δ α β : Type}

/-! ### Primitives -/

/-- End normally. -/
protected def pure (a : α) : Walk σ ε α where
  run _ s o := ⟨.ok a, s, o, []⟩
  reloc _ _ _ _ _ hc hw _ := ⟨rfl, rfl, hc, hw, 0, rfl, rfl⟩

/-- Leave early. -/
def fail (e : ε) : Walk σ ε α where
  run _ s o := ⟨.error e, s, o, []⟩
  reloc _ _ _ _ _ hc hw _ := ⟨rfl, rfl, hc, hw, 0, rfl, rfl⟩

/-- The out-parameter. -/
def getOut : Walk σ ε σ where
  run _ s o := ⟨.ok o, s, o, []⟩
  reloc _ _ _ _ _ hc hw _ := ⟨rfl, rfl, hc, hw, 0, rfl, rfl⟩

/-- Assign to the out-parameter. -/
def modifyOut (f : σ → σ) : Walk σ ε Unit where
  run _ s o := ⟨.ok (), s, f o, []⟩
  reloc _ _ _ _ _ hc hw _ := ⟨rfl, rfl, hc, hw, 0, rfl, rfl⟩

/-- Read the byte `i` places into the span. -/
def load8 (i : ℕ) : Walk σ ε UInt8 where
  run m s o := ⟨.ok (m (s.p + i)), s, o, [.read (s.p + i)]⟩
  reloc m₁ m₂ s₁ s₂ _ hc hw h :=
    ⟨congrArg Except.ok (h i (by simp)), rfl, hc, hw, 0, rfl, rfl⟩

/-- The declared length of the span. -/
def wireLeft : Walk σ ε ℕ where
  run _ s o := ⟨.ok s.wire, s, o, []⟩
  reloc _ _ _ _ _ hc hw _ := ⟨congrArg Except.ok hw, rfl, hc, hw, 0, rfl, rfl⟩

/-- The declared length less `n`. -/
def wireMinus (n : ℕ) : Walk σ ε ℕ where
  run _ s o := ⟨.ok (s.wire - n), s, o, [.sub s.wire n]⟩
  reloc _ _ _ _ _ hc hw _ := ⟨by simp only [hw], rfl, hc, hw, 0, rfl, rfl⟩

/-- Is there room for `n` bytes?  If not, leave: `truncated` if the capture is to blame,
`malformed` if the declared length is. -/
def need (n : ℕ) (truncated malformed : ε) : Walk σ ε Unit where
  run _ s o := ⟨if n ≤ s.cap then .ok () else if n ≤ s.wire then .error truncated
    else .error malformed, s, o, []⟩
  reloc _ _ _ _ _ hc hw _ := ⟨by simp only [hc, hw], rfl, hc, hw, 0, rfl, rfl⟩

/-- Leave unless `n` bytes were captured. -/
def requireCap (n : ℕ) (e : ε) : Walk σ ε Unit where
  run _ s o := ⟨if s.cap < n then .error e else .ok (), s, o, []⟩
  reloc _ _ _ _ _ hc hw _ := ⟨by simp only [hc], rfl, hc, hw, 0, rfl, rfl⟩

/-- Leave if `c`. -/
def exitIf (c : Prop) [d : Decidable c] (e : ε) : Walk σ ε Unit where
  run _ s o := ⟨if c then .error e else .ok (), s, o, []⟩
  reloc _ _ _ _ _ hc hw _ := ⟨rfl, rfl, hc, hw, 0, rfl, rfl⟩

/-- Step over `n` bytes. -/
def advance (n : ℕ) : Walk σ ε Unit where
  run _ s o := ⟨.ok (), ⟨s.p + n, s.cap - n, s.wire - n⟩, o,
    [.sub s.cap n, .sub s.wire n, .at ⟨s.p + n, s.cap - n, s.wire - n⟩]⟩
  reloc _ _ _ _ _ hc hw _ := ⟨rfl, rfl, by simp only [hc], by simp only [hw], n, rfl, rfl⟩

/-- Limit the span to a declared length. -/
def clip (len : ℕ) : Walk σ ε Unit where
  run _ s o := ⟨.ok (), ⟨s.p, if s.cap > len then len else s.cap, len⟩, o,
    [.at ⟨s.p, if s.cap > len then len else s.cap, len⟩]⟩
  reloc _ _ _ _ _ hc _ _ := ⟨rfl, rfl, by simp only [hc], rfl, 0, rfl, rfl⟩

/-! ### Composition -/

/-- The rest of a run after the run of `x` ended in `r`. -/
def andThen (r : Ran σ ε α) (f : α → Walk σ ε β) (m : Mem) : Ran σ ε β :=
  match r.res with
  | .error e => ⟨.error e, r.s, r.out, r.log⟩
  | .ok a =>
      let q := (f a).run m r.s r.out
      ⟨q.res, q.s, q.out, r.log ++ q.log⟩

theorem andThen_error {r : Ran σ ε α} {e : ε} (h : r.res = .error e) (f : α → Walk σ ε β)
    (m : Mem) : andThen r f m = ⟨.error e, r.s, r.out, r.log⟩ := by
  simp only [andThen, h]

theorem andThen_ok {r : Ran σ ε α} {a : α} (h : r.res = .ok a) (f : α → Walk σ ε β)
    (m : Mem) : andThen r f m = ⟨((f a).run m r.s r.out).res, ((f a).run m r.s r.out).s,
      ((f a).run m r.s r.out).out, r.log ++ ((f a).run m r.s r.out).log⟩ := by
  simp only [andThen, h]

theorem relocatable_bind (x : Walk σ ε α) (f : α → Walk σ ε β) :
    Relocatable (fun m s o => andThen (x.run m s o) f m) := by
  intro m₁ m₂ s₁ s₂ o hc hw hread
  have hx : ∀ k, Event.read (s₁.p + k) ∈ (x.run m₁ s₁ o).log →
      m₁ (s₁.p + k) = m₂ (s₂.p + k) := by
    intro k hk
    apply hread k
    cases h : (x.run m₁ s₁ o).res with
    | error e => simpa only [andThen_error h] using hk
    | ok a => simp only [andThen_ok h, List.mem_append, hk, true_or]
  obtain ⟨hres, hout, hcap, hwire, n, hp₁, hp₂⟩ := x.reloc m₁ m₂ s₁ s₂ o hc hw hx
  cases h : (x.run m₁ s₁ o).res with
  | error e =>
      simp only [andThen_error h, andThen_error (hres.symm.trans h)]
      exact ⟨rfl, hout, hcap, hwire, n, hp₁, hp₂⟩
  | ok a =>
      have hf : ∀ k, Event.read ((x.run m₁ s₁ o).s.p + k) ∈
          ((f a).run m₁ (x.run m₁ s₁ o).s (x.run m₁ s₁ o).out).log →
          m₁ ((x.run m₁ s₁ o).s.p + k) = m₂ ((x.run m₂ s₂ o).s.p + k) := by
        intro k hk
        rw [hp₁, hp₂, Nat.add_assoc, Nat.add_assoc]
        apply hread (n + k)
        rw [hp₁, Nat.add_assoc] at hk
        simp only [andThen_ok h, List.mem_append]
        exact .inr hk
      have hr := (f a).reloc m₁ m₂ _ _ (x.run m₁ s₁ o).out hcap hwire hf
      rw [hout] at hr
      simp only [andThen_ok h, andThen_ok (hres.symm.trans h), hout]
      obtain ⟨hres', hout', hcap', hwire', k, hq₁, hq₂⟩ := hr
      refine ⟨hres', hout', hcap', hwire', n + k, ?_, ?_⟩
      · rw [hq₁, hp₁, Nat.add_assoc]
      · rw [hq₂, hp₂, Nat.add_assoc]

protected def bind (x : Walk σ ε α) (f : α → Walk σ ε β) : Walk σ ε β where
  run m s o := andThen (x.run m s o) f m
  reloc := relocatable_bind x f

instance : Monad (Walk σ ε) where
  pure := Walk.pure
  bind := Walk.bind

theorem run_bind (x : Walk σ ε α) (f : α → Walk σ ε β) (m : Mem) (s : Span) (o : σ) :
    (x >>= f).run m s o = andThen (x.run m s o) f m := rfl

/-- Run `x` and hand its early exit over as a value. -/
def attempt (x : Walk σ δ α) : Walk σ ε (Except δ α) where
  run m s o := ⟨.ok (x.run m s o).res, (x.run m s o).s, (x.run m s o).out, (x.run m s o).log⟩
  reloc m₁ m₂ s₁ s₂ o hc hw h :=
    have hx := x.reloc m₁ m₂ s₁ s₂ o hc hw h
    ⟨congrArg Except.ok hx.res, hx.out, hx.cap, hx.wire, hx.step⟩

/-- Run `x` with an out-parameter of its own, initially `t`. -/
def scratch (x : Walk τ δ α) (t : τ) : Walk σ ε (Except δ α × τ) where
  run m s o := ⟨.ok ((x.run m s t).res, (x.run m s t).out), (x.run m s t).s, o,
    (x.run m s t).log⟩
  reloc m₁ m₂ s₁ s₂ _ hc hw h :=
    have hx := x.reloc m₁ m₂ s₁ s₂ t hc hw h
    ⟨by simp only [hx.res, hx.out], rfl, hx.cap, hx.wire, hx.step⟩

/-- Read `n` bytes from place `i` of the span on. -/
def loadBytes (i : ℕ) : ℕ → Walk σ ε (List UInt8)
  | 0 => pure []
  | n + 1 => do
      let b ← load8 i
      let bs ← loadBytes (i + 1) n
      pure (b :: bs)

end Walk
end SpanWalk
