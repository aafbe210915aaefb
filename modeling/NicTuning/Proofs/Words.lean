import NicTuning.Proofs.Splitting
import NicTuning.Setting

/-!
# Words

A text that is made of parts with a space between them has these parts for words exactly if each of
them is a word. Flags and numbers are, and what a command printed is if no blank is inside of it.
-/
namespace NicTuning

namespace Text

/-- A word has a character and no blank. -/
def IsWord (s : String) : Prop := s.isEmpty = false ∧ s.toList.all (fun c => !isBlank c) = true

instance : DecidablePred IsWord := fun s =>
  inferInstanceAs (Decidable (s.isEmpty = false ∧ s.toList.all (fun c => !isBlank c) = true))

variable {s t w : String}

theorem isWord_iff : IsWord s ↔ s.toList ≠ [] ∧ ∀ c ∈ s.toList, isBlank c = false := by
  unfold IsWord
  simp [String.isEmpty_eq_false_iff]

theorem newline_not_mem_of_isWord (h : IsWord s) : '\n' ∉ s.toList := by
  intro hmem
  exact absurd ((isWord_iff.1 h).2 '\n' hmem) (by decide)

theorem isWord_of_mem_words (h : w ∈ words s) : IsWord w := by
  obtain ⟨cs, hm, rfl⟩ := List.mem_map.1 h
  obtain ⟨hp, hne⟩ := List.mem_filter.1 hm
  rw [isWord_iff, String.toList_ofList]
  exact ⟨by simpa using hne, not_of_mem_splitOnP hp⟩

theorem words_of_isWord (h : IsWord s) : words s = [s] := by
  obtain ⟨hne, hc⟩ := isWord_iff.1 h
  unfold words wordChars
  rw [List.splitOnP_eq_singleton hc]
  simp [hne]

theorem words_append_space (s t : String) : words (s ++ " " ++ t) = words s ++ words t := by
  have hspace : (s ++ " " ++ t).toList = s.toList ++ ' ' :: t.toList := by simp
  unfold words wordChars
  rw [hspace, List.splitOnP_append_cons _ _ (by decide), List.filter_append, List.map_append]

/-- The words of parts with a space between them are those of all parts. -/
theorem words_intercalate (parts : List String) :
    words (" ".intercalate parts) = parts.flatMap words := by
  induction parts with
  | nil => decide
  | cons part rest ih =>
    cases rest with
    | nil => simp
    | cons next rest =>
      rw [String.intercalate_cons_cons, words_append_space, ih]
      rfl

/-- The words of parts with a space between them are the parts themselves only if these are words. -/
theorem words_intercalate_iff {ws : List String} :
    words (" ".intercalate ws) = ws ↔ ∀ w ∈ ws, IsWord w := by
  constructor
  · intro h w hw
    rw [← h] at hw
    exact isWord_of_mem_words hw
  · intro h
    rw [words_intercalate]
    induction ws with
    | nil => rfl
    | cons w rest ih =>
      rw [List.flatMap_cons, words_of_isWord (h w List.mem_cons_self),
        ih fun v hv => h v (List.mem_cons_of_mem w hv)]
      rfl

/-! ## Numerals -/

/-- No visible character of ASCII is blank. -/
theorem isBlank_of_range {c : Char} (h : 33 ≤ c.toNat) (h' : c.toNat ≤ 126) :
    isBlank c = false := by
  unfold isBlank
  simp
  omega

theorem isBlank_of_isDigit {c : Char} (h : c.isDigit = true) : isBlank c = false := by
  simp only [Char.isDigit, Bool.and_eq_true, decide_eq_true_eq] at h
  have hlow : 48 ≤ c.toNat := h.1
  have hhigh : c.toNat ≤ 57 := h.2
  exact isBlank_of_range (by omega) (by omega)

theorem isBlank_of_isLower {c : Char} (h : c.isLower = true) : isBlank c = false := by
  change (decide (c.val ≥ 'a'.val) && decide (c.val ≤ 'z'.val)) = true at h
  rw [Bool.and_eq_true, decide_eq_true_eq, decide_eq_true_eq] at h
  have hlow : 97 ≤ c.toNat := h.1
  have hhigh : c.toNat ≤ 122 := h.2
  exact isBlank_of_range (by omega) (by omega)

theorem isWord_repr (n : Nat) : IsWord n.repr := by
  rw [isWord_iff, Nat.toList_repr]
  refine ⟨Nat.toDigits_ne_nil, fun c hc => ?_⟩
  exact isBlank_of_isDigit (Nat.isDigit_of_mem_toDigits (by decide) (by decide) hc)

theorem isWord_toString (i : Int) : IsWord (toString i) := by
  rw [Int.toString_eq_repr, Int.repr_eq_if]
  split
  · exact isWord_repr _
  · have hn := isWord_iff.1 (isWord_repr (-i).toNat)
    rw [isWord_iff, String.toList_append]
    refine ⟨by simp, fun c hc => ?_⟩
    rcases List.mem_append.mp hc with hc | hc
    · rw [List.mem_singleton.1 hc]
      decide
    · exact hn.2 c hc

end Text

namespace Numeral

theorem isBlank_of_digits? {cs : List Char} {n : Nat} (h : digits? cs = some n) :
    cs ≠ [] ∧ ∀ c ∈ cs, Text.isBlank c = false := by
  unfold digits? at h
  split at h
  · rename_i hd
    simp only [Bool.and_eq_true, Bool.not_eq_true', List.isEmpty_eq_false_iff] at hd
    exact ⟨hd.1, fun c hc => Text.isBlank_of_isDigit (List.all_eq_true.1 hd.2 c hc)⟩
  · cases h

theorem isBlank_of_natural? {cs : List Char} {n : Nat} (h : natural? cs = some n) :
    cs ≠ [] ∧ ∀ c ∈ cs, Text.isBlank c = false := by
  unfold natural? at h
  split at h
  · refine ⟨by simp, List.forall_mem_cons.2 ⟨by decide, (isBlank_of_digits? h).2⟩⟩
  · exact isBlank_of_digits? h

theorem isBlank_of_integer? {cs : List Char} {i : Int} (h : integer? cs = some i) :
    cs ≠ [] ∧ ∀ c ∈ cs, Text.isBlank c = false := by
  unfold integer? at h
  split at h
  · obtain ⟨_, hlift, -⟩ := Option.map_eq_some_iff.1 h
    obtain ⟨n, hd, -⟩ := Option.bind_eq_some_iff.1 hlift
    exact ⟨by simp, List.forall_mem_cons.2 ⟨by decide, (isBlank_of_digits? hd).2⟩⟩
  · obtain ⟨n, hd, -⟩ := Option.map_eq_some_iff.1 h
    exact isBlank_of_natural? hd

/-- A numeral is a word. -/
theorem isWord_of_int64? {s : String} {n : Int64} (h : int64? s = some n) : Text.IsWord s := by
  obtain ⟨i, hi, -⟩ := Option.bind_eq_some_iff.1 h
  exact Text.isWord_iff.2 (isBlank_of_integer? hi)

end Numeral

namespace Setting

open Text (IsWord)

theorem isWord_arg_flag (on : Bool) : IsWord (flag on).arg := by cases on <;> decide

theorem isWord_arg_number (n : Int64) : IsWord (number n).arg := Text.isWord_toString _

/-- What a command printed is a word as an argument if it is one when trimmed. -/
theorem isWord_arg_ofOutput_iff {output : String} :
    IsWord (ofOutput output).arg ↔ IsWord (Text.trim output) := by
  unfold ofOutput
  dsimp only
  cases h : Numeral.int64? (Text.trim output) with
  | none => exact Iff.rfl
  | some n =>
    constructor
    · exact fun _ => Numeral.isWord_of_int64? h
    · exact fun _ => isWord_arg_number n

end Setting

end NicTuning
