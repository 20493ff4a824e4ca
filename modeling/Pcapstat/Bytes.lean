import Pcapstat.WalkLogic

/-! # Loads and byte arrays (`bytes.h`, `hash.h`)

Byte-order-explicit loads, the FNV-1a hash, 16-byte addresses and `memcmp`.  The loads are
functions of the bytes they assemble; `Walk.loadBe16` and `Walk.loadBe32` are the same loads
on the span of a walk. -/

namespace Pcapstat

/-! ### Loads -/

def loadBe16 (p0 p1 : UInt8) : UInt16 := (p0.toUInt16 <<< 8) ||| p1.toUInt16

def loadLe16 (p0 p1 : UInt8) : UInt16 := (p1.toUInt16 <<< 8) ||| p0.toUInt16

def loadBe32 (p0 p1 p2 p3 : UInt8) : UInt32 :=
  (p0.toUInt32 <<< 24) ||| (p1.toUInt32 <<< 16) ||| (p2.toUInt32 <<< 8) ||| p3.toUInt32

def loadLe32 (p0 p1 p2 p3 : UInt8) : UInt32 :=
  (p3.toUInt32 <<< 24) ||| (p2.toUInt32 <<< 16) ||| (p1.toUInt32 <<< 8) ||| p0.toUInt32

/-! ### Hash -/

def fnv64Offset : UInt64 := 0xcbf29ce484222325
def fnv64Prime : UInt64 := 0x100000001b3

/-- Fold the bytes `p` into the running hash `h`. -/
def fnv1a (h : UInt64) (p : List UInt8) : UInt64 :=
  p.foldl (fun h b => (h ^^^ b.toUInt64) * fnv64Prime) h

/-! ### Addresses -/

/-- `uint8_t addr[16]` -/
structure Addr where
  bytes : List UInt8
  length_eq : bytes.length = 16
deriving DecidableEq, Repr

namespace Addr

/-- All sixteen bytes zero. -/
def zero : Addr := ⟨List.replicate 16 0, rfl⟩

/-- `memcpy(a, bs, |bs|)`: the bytes of `a` after `bs` stay as they are. -/
def copyFrom (a : Addr) (bs : List UInt8) : Addr :=
  ⟨(bs ++ a.bytes.drop bs.length).take 16, by have := a.length_eq; simp; omega⟩

theorem ext_bytes {a b : Addr} (h : a.bytes = b.bytes) : a = b := by
  cases a; cases b; simpa using h

end Addr

/-- `memcmp(a, b, n)` for two arrays of one length; only the sign matters. -/
def memcmp : List UInt8 → List UInt8 → Ordering
  | a :: as, b :: bs => if a < b then .lt else if b < a then .gt else memcmp as bs
  | _, _ => .eq

/-! ### Loads on a span -/

open SpanWalk SpanWalk.Walk

variable {σ ε : Type}

/-- `load_be16(s->p + i)` -/
def be16At (i : ℕ) : Walk σ ε UInt16 := do
  let p0 ← load8 i
  let p1 ← load8 (i + 1)
  pure (loadBe16 p0 p1)

/-- `load_be32(s->p + i)` -/
def be32At (i : ℕ) : Walk σ ε UInt32 := do
  let p0 ← load8 i
  let p1 ← load8 (i + 1)
  let p2 ← load8 (i + 2)
  let p3 ← load8 (i + 3)
  pure (loadBe32 p0 p1 p2 p3)

/-- The big-endian 16-bit value at offset `a`. -/
def be16 (m : Mem) (a : ℕ) : UInt16 := loadBe16 (m a) (m (a + 1))

/-- The big-endian 32-bit value at offset `a`. -/
def be32 (m : Mem) (a : ℕ) : UInt32 := loadBe32 (m a) (m (a + 1)) (m (a + 2)) (m (a + 3))

section rules

variable {G : Event → Prop} {m : Mem} {E : ε → Span → σ → Prop} {s : Span} {o : σ}

@[simp] theorem wp_be16At {Q : UInt16 → Span → σ → Prop} (i : ℕ) :
    wp G m (be16At i : Walk σ ε UInt16) Q E s o ↔
      G (.read (s.p + i)) ∧ G (.read (s.p + i + 1)) ∧ Q (be16 m (s.p + i)) s o := by
  simp [be16At, be16, Nat.add_assoc]

@[simp] theorem wp_be32At {Q : UInt32 → Span → σ → Prop} (i : ℕ) :
    wp G m (be32At i : Walk σ ε UInt32) Q E s o ↔
      G (.read (s.p + i)) ∧ G (.read (s.p + i + 1)) ∧ G (.read (s.p + i + 2)) ∧
        G (.read (s.p + i + 3)) ∧ Q (be32 m (s.p + i)) s o := by
  simp [be32At, be32, Nat.add_assoc]

end rules

section cut

variable {β : Type} {T : ε → Prop} {L : σ → σ → Prop} {P : σ → Prop}

theorem reads_be16At (i : ℕ) : Reads (be16At i : Walk σ ε UInt16) fun m p => be16 m (p + i) :=
  fun _ _ _ => ⟨rfl, rfl, rfl⟩

theorem reads_be32At (i : ℕ) : Reads (be32At i : Walk σ ε UInt32) fun m p => be32 m (p + i) :=
  fun _ _ _ => ⟨rfl, rfl, rfl⟩

theorem cutSafe_be16At [Std.Refl L] (i : ℕ) :
    CutSafe T L P (be16At i : Walk σ ε UInt16) fun _ => P :=
  .reads (reads_be16At i)

theorem cutSafe_be32At [Std.Refl L] (i : ℕ) :
    CutSafe T L P (be32At i : Walk σ ε UInt32) fun _ => P :=
  .reads (reads_be32At i)

end cut

end Pcapstat
