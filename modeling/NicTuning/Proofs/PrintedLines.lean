import NicTuning.Text.Lines
import Mathlib.Data.List.Basic

/-!
# Printed lines

A text that is printed line by line is read as these lines, and what a text begins with, as far as
no line ends in it, its first line begins with.
-/
namespace NicTuning.Text

/-- A line has no line feed inside, and no carriage return that a line feed would take along. -/
def IsLine (s : String) : Prop := '\n' ∉ s.toList ∧ s.toList.getLast? ≠ some '\r'

instance : DecidablePred IsLine := fun s =>
  inferInstanceAs (Decidable ('\n' ∉ s.toList ∧ s.toList.getLast? ≠ some '\r'))

theorem dropReturn_append (cs : List Char) {rest : List Char} (h : rest ≠ []) :
    dropReturn (cs ++ rest) = cs ++ dropReturn rest := by
  have hlast : (cs ++ rest).getLast? = rest.getLast? := by
    rw [List.getLast?_append, List.getLast?_eq_some_getLast h, Option.some_or]
  unfold dropReturn
  rw [hlast]
  split
  · rw [List.dropLast_append_of_ne_nil h]
  · rfl

theorem lineChars_append {cs : List Char} (h : '\n' ∉ cs) (rest : List Char) :
    lineChars (cs ++ '\n' :: rest) = dropReturn cs :: lineChars rest := by
  obtain ⟨piece, pieces, hp⟩ := List.exists_cons_of_ne_nil (List.splitOn_ne_nil '\n' rest)
  unfold lineChars
  rw [List.splitOn_append_cons_self_of_not_mem h, hp]
  rfl

theorem lines_append {line : String} (h : IsLine line) (rest : String) :
    lines (line ++ "\n" ++ rest) = line :: lines rest := by
  have hreturn : dropReturn line.toList = line.toList := if_neg h.2
  have hchars : (line ++ "\n" ++ rest).toList = line.toList ++ '\n' :: rest.toList := by simp
  unfold lines
  rw [hchars, lineChars_append h.1, hreturn, List.map_cons, String.ofList_toList]

/-- What follows the first line does not depend on how that line ends. -/
theorem drop_lines_ofLines {line : String} (h : '\n' ∉ line.toList) (ls : List String) :
    (lines (ofLines (line :: ls))).drop 1 = lines (ofLines ls) := by
  have hchars : (ofLines (line :: ls)).toList = line.toList ++ '\n' :: (ofLines ls).toList := by
    simp [ofLines, String.join_cons]
  unfold lines
  rw [hchars, lineChars_append h]
  rfl

/-- A text made of lines is read as these lines. -/
theorem lines_ofLines {ls : List String} (h : ∀ line ∈ ls, IsLine line) :
    lines (ofLines ls) = ls := by
  induction ls with
  | nil => rfl
  | cons line ls ih =>
    have hcons : ofLines (line :: ls) = line ++ "\n" ++ ofLines ls := by
      simp [ofLines, String.join_cons]
    rw [hcons, lines_append (h line List.mem_cons_self),
      ih fun l hl => h l (List.mem_cons_of_mem line hl)]

/-- The first line goes on from what the text begins with. -/
theorem head?_lines {front : String} (h : IsLine front) (hne : front.toList ≠ []) (more : String) :
    ∃ rest, (lines (front ++ more)).head? = some (front ++ rest) := by
  unfold lines
  rw [String.toList_append]
  -- Either a line feed in the rest ends the first line, or the text is a single line.
  by_cases hmore : '\n' ∈ more.toList
  · obtain ⟨pre, post, hsplit, hpre⟩ := List.eq_append_cons_of_mem hmore
    have hnot : '\n' ∉ front.toList ++ pre := by
      rw [List.mem_append, not_or]
      exact ⟨h.1, hpre⟩
    rw [hsplit, ← List.append_assoc, lineChars_append hnot]
    cases pre with
    | nil =>
      have hreturn : dropReturn front.toList = front.toList := if_neg h.2
      exists ""
      simp [hreturn]
    | cons c pre =>
      exists String.ofList (dropReturn (c :: pre))
      rw [dropReturn_append _ (by simp)]
      simp
  · have hnot : '\n' ∉ front.toList ++ more.toList := by
      rw [List.mem_append, not_or]
      exact ⟨h.1, hmore⟩
    exists more
    unfold lineChars
    rw [List.splitOn_eq_singleton hnot]
    simp [hne]

end NicTuning.Text
