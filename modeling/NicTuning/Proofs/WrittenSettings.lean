import NicTuning.Proofs.KeyValues
import NicTuning.Proofs.Numerals

/-!
# Settings that are written and read again

A setting that was read from a tool is put back as an argument of another one, and the tools print
it again when it is asked for the next time. An output is a number exactly if it spells one of 64
bits between its blanks; every other output stays the word that it is.

Main statement: what was read of an output is read again of its argument, and so is every number,
and every flag however it was spelled.
-/
namespace NicTuning.Setting

open Text (trim)

variable {output : String}

theorem ofOutput_eq_number_iff {n : Int64} :
    ofOutput output = number n ↔ Numeral.SpellsSigned (trim output).toList n.toInt := by
  rw [← Numeral.int64?_eq_some_iff]
  cases h : Numeral.int64? (trim output) <;> simp [ofOutput, h]

theorem ofOutput_eq_word (h : Numeral.int64? (trim output) = none) :
    ofOutput output = word (trim output) := by
  simp [ofOutput, h]

/-- Blanks around an output make no difference. -/
theorem ofOutput_trim (output : String) : ofOutput (trim output) = ofOutput output := by
  unfold ofOutput
  rw [Text.trim_trim]

theorem ofOutput_arg_number (n : Int64) : ofOutput (number n).arg = number n := by
  have htrim : trim (number n).arg = (number n).arg := Text.trim_of_isWord (isWord_arg_number n)
  rw [ofOutput_eq_number_iff, htrim]
  exact Numeral.spellsSigned_toString n.toInt

theorem ofOutput_arg_flag (on : Bool) : ofOutput (flag on).arg = word (onOff on) := by
  cases on <;> decide

/-- An output is a number or the word that is left of it without its blanks. -/
theorem ofOutput_cases (output : String) :
    (∃ n, ofOutput output = number n) ∨
      ofOutput output = word (trim output) := by
  cases h : Numeral.int64? (trim output) with
  | some n => exact .inl ⟨n, by simp [ofOutput, h]⟩
  | none => exact .inr (ofOutput_eq_word h)

theorem text_ofOutput (output : String) : (ofOutput output).text = (ofOutput output).arg := by
  obtain ⟨n, h⟩ | h := ofOutput_cases output <;> rw [h] <;> rfl

theorem ofOutput_arg_ofOutput (output : String) :
    ofOutput (ofOutput output).arg = ofOutput output := by
  obtain ⟨n, h⟩ | h := ofOutput_cases output
  · rw [h, ofOutput_arg_number]
  · calc ofOutput (ofOutput output).arg = ofOutput (trim output) := by rw [h]; rfl
      _ = ofOutput output := ofOutput_trim output

/-- The words that spell a flag are read as words. -/
theorem ofOutput_word_of_asFlag? {s : String} (h : (word s).asFlag?.isSome) :
    ofOutput s = word s := by
  simp only [asFlag?] at h
  split at h
  · rename_i hon
    rcases hon with rfl | rfl <;> decide
  · split at h
    · rename_i hoff
      rcases hoff with rfl | rfl <;> decide
    · cases h

/-- What was read of an output is read of the argument that it is written as, and is shown as it.
Every number of 64 bits is read of its argument, what is read as a number spells it, and whatever
stands for a flag still does when it has been written and read. -/
theorem settings_survive_writing :
    (∀ output, ofOutput (ofOutput output).arg = ofOutput output ∧
      (ofOutput output).text = (ofOutput output).arg) ∧
    (∀ n : Int64, ofOutput (number n).arg = number n) ∧
    (∀ (output : String) (n : Int64), ofOutput output = number n ↔
      Numeral.SpellsSigned (trim output).toList n.toInt) ∧
    ∀ value : Setting, value.asFlag?.isSome → (ofOutput value.arg).asFlag? = value.asFlag? := by
  refine ⟨?_, ofOutput_arg_number, fun _ _ => ofOutput_eq_number_iff, ?_⟩
  · intro output
    exact ⟨ofOutput_arg_ofOutput output, text_ofOutput output⟩
  · intro value hflag
    cases value with
    | flag on =>
      rw [ofOutput_arg_flag]
      cases on <;> decide
    | number n => rw [ofOutput_arg_number]
    | word s =>
      change (ofOutput s).asFlag? = _
      rw [ofOutput_word_of_asFlag? hflag]

/-- The least number of 64 bits is read back, the one below it stays a word, and a flag that is not
spelled as a tool spells it is still one. -/
theorem settings_survive_writing_at_limit :
    ofOutput (number Int64.minValue).arg = number Int64.minValue ∧
    ofOutput (ofOutput " -9223372036854775809\n").arg = word "-9223372036854775809" ∧
    (word "true").asFlag?.isSome ∧ (ofOutput (word "true").arg).asFlag? = some true := by
  obtain ⟨houtput, hnumber, -, hflag⟩ := settings_survive_writing
  refine ⟨hnumber Int64.minValue, ?_, by decide, ?_⟩
  · rw [(houtput _).1]
    decide
  · exact (hflag (word "true") (by decide)).trans (by decide)

end NicTuning.Setting
