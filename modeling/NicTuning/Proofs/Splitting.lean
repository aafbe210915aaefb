import Mathlib.Data.List.TakeWhile
import Mathlib.Data.String.Basic

/-!
# Splitting texts

A text is split at the first place of a character, behind the longest beginning with a property, or
at every place of a comma. What stands between the places does not have the character, and puts the
text together again.
-/
namespace NicTuning.Text

variable {c : Char} {cs before rest taken : List Char} {p : Char → Bool}

/-! ## The first place -/

theorem bne_of_not_mem (h : c ∉ cs) : ∀ d ∈ cs, (d != c) = true := by
  intro d hd
  rw [bne_iff_ne]
  rintro rfl
  exact h hd

theorem takeWhile_bne (h : c ∉ before) (after : List Char) :
    (before ++ c :: after).takeWhile (· != c) = before := by
  rw [List.takeWhile_append_of_pos (bne_of_not_mem h)]
  simp

theorem dropWhile_bne (h : c ∉ before) (after : List Char) :
    (before ++ c :: after).dropWhile (· != c) = c :: after := by
  rw [List.dropWhile_append_of_pos (bne_of_not_mem h)]
  simp

theorem dropWhile_bne_of_not_mem (h : c ∉ cs) : cs.dropWhile (· != c) = [] :=
  List.dropWhile_eq_nil_iff.2 (bne_of_not_mem h)

/-- A text splits at the first place of a character that is in it. -/
theorem exists_of_mem {s : String} (h : c ∈ s.toList) :
    ∃ front rest : String, s = front ++ c.toString ++ rest ∧ c ∉ front.toList := by
  obtain ⟨front, rest, hs, hfront⟩ := List.eq_append_cons_of_mem h
  refine ⟨String.ofList front, String.ofList rest, ?_, by simpa using hfront⟩
  exact String.toList_injective (by simp [hs])

/-- The longest beginning with a property, and what is left behind it. -/
theorem takeWhile_dropWhile_eq_iff : cs.takeWhile p = taken ∧ cs.dropWhile p = rest ↔
    cs = taken ++ rest ∧ (∀ c ∈ taken, p c = true) ∧ ∀ c ∈ rest.head?, p c = false := by
  constructor
  · rintro ⟨rfl, rfl⟩
    refine ⟨List.takeWhile_append_dropWhile.symm, fun c hc => List.mem_takeWhile_imp hc, ?_⟩
    intro c hc
    simpa [Option.mem_def.1 hc] using List.head?_dropWhile_not p cs
  · rintro ⟨rfl, htaken, hrest⟩
    rw [List.takeWhile_append_of_pos htaken, List.dropWhile_append_of_pos htaken]
    cases rest with
    | nil => simp
    | cons c rest => simp [hrest c rfl]

/-! ## All places -/

/-- No piece between the places of a property has it. -/
theorem not_of_mem_splitOnP {piece : List Char} (h : piece ∈ cs.splitOnP p) :
    ∀ c ∈ piece, p c = false := by
  induction cs generalizing piece with
  | nil =>
    rw [List.splitOnP_nil, List.mem_singleton] at h
    simp [h]
  | cons c rest ih =>
    rw [List.splitOnP_cons_eq_if_modifyHead] at h
    split at h
    · rcases List.mem_cons.1 h with rfl | h
      · simp
      · exact ih h
    · rename_i hc
      obtain ⟨first, others, hs⟩ := List.exists_cons_of_ne_nil (List.splitOnP_ne_nil p rest)
      rw [hs, List.modifyHead_cons] at h
      rcases List.mem_cons.1 h with rfl | h
      · rw [List.forall_mem_cons]
        exact ⟨by simpa using hc, ih (hs ▸ List.mem_cons_self)⟩
      · exact ih (hs ▸ List.mem_cons_of_mem _ h)

theorem not_mem_of_mem_splitOn {piece : List Char} (h : piece ∈ cs.splitOn c) : c ∉ piece := by
  rw [List.splitOn_eq_splitOnP] at h
  intro hc
  simpa using not_of_mem_splitOnP h c hc

/-- The pieces of a text between commas put it together again with commas. -/
theorem intercalate_splitOn (s : String) :
    ",".intercalate ((s.toList.splitOn ',').map String.ofList) = s := by
  apply String.toList_injective
  rw [String.toList_intercalate, List.map_map]
  simp [Function.comp_def]

/-- Pieces without a comma are those of the text that they make up with commas between them. -/
theorem splitOn_intercalate {l : List String} (hne : l ≠ []) (h : ∀ s ∈ l, ',' ∉ s.toList) :
    ((",".intercalate l).toList.splitOn ',').map String.ofList = l := by
  have hpieces : ∀ piece ∈ l.map String.toList, ',' ∉ piece := by simpa using h
  have hcomma : ",".toList = [','] := rfl
  rw [String.toList_intercalate, hcomma, List.splitOn_intercalate ',' hpieces (by simpa using hne),
    List.map_map]
  simp [Function.comp_def]

/-- Any other character of such a text is in one of its pieces. -/
theorem mem_toList_intercalate {separator : String} (h : c ∉ separator.toList) (l : List String) :
    c ∈ (separator.intercalate l).toList ↔ ∃ s ∈ l, c ∈ s.toList := by
  induction l with
  | nil => simp
  | cons s rest ih =>
    cases rest with
    | nil => simp
    | cons next rest =>
      rw [String.intercalate_cons_cons, String.toList_append, String.toList_append, List.mem_append,
        List.mem_append, ih]
      simp [h]

end NicTuning.Text
