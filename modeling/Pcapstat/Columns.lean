import Mathlib

/-! # Text in columns

A row of cells with two blanks between them.  A cell is filled up with blanks to the width of its column, on
one side or the other.

* The words of a row are those of its cells (`words_row`), on whichever side they are filled up.
* A cell stands at the place of its column if the cells in front of it fit (`placed_row`). -/

namespace Columns

/-- What stands between the blanks. -/
def words (s : List Char) : List (List Char) := (s.splitOn ' ').filter (· ≠ [])

def row (cells : List (List Char)) : List Char := [' ', ' '].intercalate cells

/-- Where the cell behind cells of these widths starts. -/
def place (widths : List ℕ) : ℕ := (widths.map (· + 2)).sum

/-- `s` stands in the line from the place `p` on. -/
def Placed (line s : List Char) (p : ℕ) : Prop := ∃ front back, line = front ++ s ++ back ∧ front.length = p

section words

variable {s t : List Char} {cells : List (List Char)}

theorem words_nil : words [] = [] := rfl

theorem words_append_blank (s t : List Char) : words (s ++ ' ' :: t) = words s ++ words t := by
  unfold words
  rw [List.splitOn_append_cons_self, List.filter_append]

theorem words_blank (t : List Char) : words (' ' :: t) = words t := words_append_blank [] t

theorem words_word (hne : s ≠ []) (hblank : ' ' ∉ s) : words s = [s] := by
  unfold words
  rw [List.splitOn_eq_singleton hblank, List.filter_singleton]
  simp [hne]

theorem flatten_words (hblank : ' ' ∉ s) : (words s).flatten = s := by
  by_cases hne : s = []
  · rw [hne]
    rfl
  · rw [words_word hne hblank, List.flatten_singleton]

theorem words_blanks_append (n : ℕ) (s : List Char) : words (List.replicate n ' ' ++ s) = words s := by
  induction n with
  | zero => rfl
  | succ n ih => rw [List.replicate_succ, List.cons_append, words_blank, ih]

theorem words_append_blanks (s : List Char) (n : ℕ) : words (s ++ List.replicate n ' ') = words s := by
  cases n with
  | zero => rw [List.replicate_zero, List.append_nil]
  | succ n =>
      have hblanks := words_blanks_append n []
      rw [List.append_nil] at hblanks
      rw [List.replicate_succ, words_append_blank, hblanks, words_nil, List.append_nil]

theorem words_leftpad (n : ℕ) (s : List Char) : words (s.leftpad n ' ') = words s := words_blanks_append _ s

theorem words_rightpad (n : ℕ) (s : List Char) : words (s.rightpad n ' ') = words s := words_append_blanks s _

theorem row_cons_cons (c d : List Char) (cells : List (List Char)) :
    row (c :: d :: cells) = c ++ ' ' :: ' ' :: row (d :: cells) := by
  simp [row, List.intercalate_cons_cons]

theorem not_mem_row {c : Char} (hc : c ≠ ' ') (h : ∀ cell ∈ cells, c ∉ cell) : c ∉ row cells := by
  induction cells with
  | nil => exact List.not_mem_nil
  | cons d cells ih =>
      rw [List.forall_mem_cons] at h
      cases cells with
      | nil => simpa [row] using h.1
      | cons e cells =>
          rw [row_cons_cons]
          simp [h.1, hc, ih h.2]

theorem words_row (cells : List (List Char)) : words (row cells) = (cells.map words).flatten := by
  induction cells with
  | nil => rfl
  | cons c cells ih =>
      cases cells with
      | nil => simp [row]
      | cons d cells =>
          rw [row_cons_cons, words_append_blank, words_blank, ih]
          rfl

end words

section places

variable {s : List Char} {cells rest : List (List Char)} {widths : List ℕ} {w : ℕ}

theorem length_leftpad (h : s.length ≤ w) : (s.leftpad w ' ').length = w := by
  rw [List.length_leftpad]
  exact Nat.max_eq_left h

theorem length_rightpad (h : s.length ≤ w) : (s.rightpad w ' ').length = w := by
  rw [List.length_rightpad]
  exact Nat.max_eq_left h

theorem row_append (c : List Char) (rest : List (List Char)) (hlen : cells.map List.length = widths) :
    ∃ front, row (cells ++ c :: rest) = front ++ row (c :: rest) ∧ front.length = place widths := by
  induction cells generalizing widths with
  | nil =>
      obtain rfl := hlen
      exact ⟨[], rfl, rfl⟩
  | cons d cells ih =>
      obtain rfl := hlen
      obtain ⟨front, hrow, hfront⟩ := ih rfl
      refine ⟨d ++ [' ', ' '] ++ front, ?_, ?_⟩
      · cases cells with
        | nil =>
            obtain rfl := List.eq_nil_of_length_eq_zero hfront
            simp [row_cons_cons]
        | cons e cells =>
            rw [List.cons_append] at hrow
            simp [row_cons_cons, hrow]
      · simp [place, hfront]
        omega

theorem placed_row (hlen : cells.map List.length = widths) (s tail : List Char) (rest : List (List Char))
    (behind : List Char) : Placed (row (cells ++ (s ++ tail) :: rest) ++ behind) s (place widths) := by
  obtain ⟨front, hrow, hfront⟩ := row_append (s ++ tail) rest hlen
  have hhead : ∃ back, row ((s ++ tail) :: rest) = s ++ back := by
    cases rest with
    | nil => exact ⟨tail, by simp [row]⟩
    | cons d rest => exact ⟨tail ++ ' ' :: ' ' :: row (d :: rest), by simp [row_cons_cons]⟩
  obtain ⟨back, hback⟩ := hhead
  refine ⟨front, back ++ behind, ?_, hfront⟩
  rw [hrow, hback]
  simp

end places

end Columns
