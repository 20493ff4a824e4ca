import Mathlib

/-! # Comma-separated text

A line is a row of fields with commas between them and a newline behind.  If no field holds a comma or a
newline, no quoting is needed: the fields of a line (`fields_row`) and the lines of a text (`lines_flatten`)
can be told from the text. -/

namespace Csv

/-- The lines of a text, each with its newline; what comes behind the last newline is left out. -/
def lines (s : List Char) : List (List Char) := (s.splitOn '\n').dropLast.map (· ++ ['\n'])

/-- The fields of a line. -/
def fields (line : List Char) : List (List Char) := line.dropLast.splitOn ','

/-- The line of a row of fields. -/
def row (fs : List (List Char)) : List Char := [','].intercalate fs ++ ['\n']

/-- A text that needs no quoting. -/
def Clean (s : List Char) : Prop := ',' ∉ s ∧ '\n' ∉ s

/-- One line and nothing behind it. -/
def IsLine (s : List Char) : Prop := ∃ body, s = body ++ ['\n'] ∧ '\n' ∉ body

section clean

variable {s t : List Char} {c : Char}

theorem Clean.nil : Clean [] := ⟨List.not_mem_nil, List.not_mem_nil⟩

theorem Clean.append (hs : Clean s) (ht : Clean t) : Clean (s ++ t) := by
  constructor
  · exact fun h => (List.mem_append.mp h).elim hs.1 ht.1
  · exact fun h => (List.mem_append.mp h).elim hs.2 ht.2

theorem Clean.cons (hcomma : c ≠ ',') (hnewline : c ≠ '\n') (hs : Clean s) : Clean (c :: s) := by
  constructor
  · exact fun h => (List.mem_cons.mp h).elim hcomma.symm hs.1
  · exact fun h => (List.mem_cons.mp h).elim hnewline.symm hs.2

/-- A text is clean if its characters have a property that commas and newlines lack. -/
theorem Clean.of_forall {P : Char → Prop} (hP : ∀ c ∈ s, P c) (hcomma : ¬ P ',')
    (hnewline : ¬ P '\n') : Clean s :=
  ⟨fun h => hcomma (hP _ h), fun h => hnewline (hP _ h)⟩

end clean

section read

variable {fs : List (List Char)}

theorem not_mem_intercalate {c d : Char} (hc : c ≠ d) (h : ∀ f ∈ fs, c ∉ f) : c ∉ [d].intercalate fs := by
  induction fs with
  | nil => exact List.not_mem_nil
  | cons f fs ih =>
      by_cases hnil : fs = []
      · rw [hnil, List.intercalate_singleton]
        exact h f List.mem_cons_self
      · rw [List.intercalate_cons_of_ne_nil hnil]
        intro hmem
        rcases List.mem_append.mp hmem with hmem | hmem
        · rcases List.mem_append.mp hmem with hmem | hmem
          · exact h f List.mem_cons_self hmem
          · exact hc (List.mem_singleton.mp hmem)
        · exact ih (fun g hg => h g (List.mem_cons_of_mem _ hg)) hmem

theorem fields_row (h : ∀ f ∈ fs, Clean f) (hne : fs ≠ []) : fields (row fs) = fs := by
  unfold fields row
  rw [List.dropLast_concat]
  exact List.splitOn_intercalate ',' (fun f hf => (h f hf).1) hne

theorem isLine_row (h : ∀ f ∈ fs, Clean f) : IsLine (row fs) :=
  ⟨_, rfl, not_mem_intercalate (by decide) fun f hf => (h f hf).2⟩

/-- **The lines of a text are those it was put together of.** -/
theorem lines_flatten {ls : List (List Char)} (h : ∀ l ∈ ls, IsLine l) : lines ls.flatten = ls := by
  unfold lines
  induction ls with
  | nil => rfl
  | cons l ls ih =>
      obtain ⟨body, rfl, hbody⟩ := h l List.mem_cons_self
      have hrest := ih fun k hk => h k (List.mem_cons_of_mem _ hk)
      have htext : (body ++ ['\n']) ++ ls.flatten = body ++ '\n' :: ls.flatten := List.append_assoc _ _ _
      rw [List.flatten_cons, htext, List.splitOn_append_cons_self_of_not_mem hbody,
        List.dropLast_cons_of_ne_nil (List.splitOn_ne_nil _ _), List.map_cons, hrest]

end read

end Csv
