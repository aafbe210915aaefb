import NicTuning.Numeral
import Mathlib.Data.List.TakeWhile

/-!
# Printed numbers

The digits of a number are read as that number, so what is printed of a count is a numeral of it.
-/
namespace NicTuning.Numeral

theorem value_toDigits (n : Nat) : value (Nat.toDigits 10 n) = n := by
  have h := Nat.ofDigitChars_ten_toDigits (n := n)
  rw [Nat.ofDigitChars_eq_foldl] at h
  exact h

theorem isDigit_toDigits (n : Nat) : ∀ c ∈ Nat.toDigits 10 n, c.isDigit = true := by
  intro c hc
  exact Nat.isDigit_of_mem_toDigits (by decide) (by decide) hc

theorem digits?_toDigits (n : Nat) : digits? (Nat.toDigits 10 n) = some n := by
  have hne : (Nat.toDigits 10 n).isEmpty = false := by
    simp [Nat.toDigits_ne_nil]
  have hall : (Nat.toDigits 10 n).all Char.isDigit = true := by
    simp only [List.all_eq_true]
    exact isDigit_toDigits n
  unfold digits?
  simp [hne, hall, value_toDigits]

theorem natural?_toDigits (n : Nat) : natural? (Nat.toDigits 10 n) = some n := by
  unfold natural?
  split
  · rename_i cs h
    have hplus := isDigit_toDigits n '+' (by simp [h])
    simp at hplus
  · exact digits?_toDigits n

/-- Characters spell a number: decimal digits, after a plus sign or not. -/
def Spells (cs : List Char) (n : Nat) : Prop :=
  ∃ digits, (cs = digits ∨ cs = '+' :: digits) ∧ digits ≠ [] ∧ (∀ c ∈ digits, c.isDigit = true) ∧
    value digits = n

theorem digits?_eq_some_iff {cs : List Char} {n : Nat} :
    digits? cs = some n ↔ cs ≠ [] ∧ (∀ c ∈ cs, c.isDigit = true) ∧ value cs = n := by
  have hall : (!cs.isEmpty && cs.all Char.isDigit) = true ↔
      cs ≠ [] ∧ ∀ c ∈ cs, c.isDigit = true := by simp
  unfold digits?
  by_cases h : cs ≠ [] ∧ ∀ c ∈ cs, c.isDigit = true
  · rw [if_pos (hall.2 h), Option.some_inj]
    exact ⟨fun hn => ⟨h.1, h.2, hn⟩, fun hn => hn.2.2⟩
  · rw [if_neg (mt hall.1 h)]
    exact ⟨nofun, fun hn => absurd ⟨hn.1, hn.2.1⟩ h⟩

theorem natural?_eq_some_iff {cs : List Char} {n : Nat} : natural? cs = some n ↔ Spells cs n := by
  unfold natural? Spells
  split
  · rename_i cs
    rw [digits?_eq_some_iff]
    constructor
    · rintro ⟨hne, hdigits, hvalue⟩
      exact ⟨cs, .inr rfl, hne, hdigits, hvalue⟩
    · rintro ⟨digits, rfl | h, hne, hdigits, hvalue⟩
      · exact absurd (hdigits '+' (by simp)) (by decide)
      · cases h
        exact ⟨hne, hdigits, hvalue⟩
  · rename_i hplus
    rw [digits?_eq_some_iff]
    constructor
    · rintro ⟨hne, hdigits, hvalue⟩
      exact ⟨cs, .inl rfl, hne, hdigits, hvalue⟩
    · rintro ⟨digits, rfl | rfl, hne, hdigits, hvalue⟩
      · exact ⟨hne, hdigits, hvalue⟩
      · exact absurd rfl (hplus digits)

theorem uint32?_eq_some_iff {s : String} {n : UInt32} :
    uint32? s = some n ↔ Spells s.toList n.toNat := by
  unfold uint32?
  rw [Option.bind_eq_some_iff, ← natural?_eq_some_iff]
  constructor
  · rintro ⟨m, hm, h⟩
    split at h
    · cases h
      simpa using hm
    · cases h
  · intro h
    exact ⟨n.toNat, h, by simp [n.toNat_lt_size]⟩

/-- A printed number is read as itself. -/
theorem uint32?_toString (n : UInt32) : uint32? (toString n) = some n := by
  have hn : (toString n).toList = Nat.toDigits 10 n.toNat := by
    rw [show toString n = n.toNat.repr from rfl, Nat.toList_repr]
  unfold uint32?
  rw [hn, natural?_toDigits, Option.bind_some, dif_pos n.toNat_lt_size]
  simp

/-- No number but zero begins with a zero. -/
theorem head_toDigits {n : Nat} (h : (Nat.toDigits 10 n).head? = some '0') : n = 0 := by
  have hdigit : ∀ n < 10, n.digitChar = '0' → n = 0 := by decide
  induction n using Nat.strong_induction_on with
  | _ n ih =>
    rcases Nat.lt_or_ge n 10 with hlt | hge
    · apply hdigit n hlt
      simpa [Nat.toDigits_of_lt_base hlt] using h
    · have hshort : (Nat.toDigits 10 (n / 10)).head? = some '0' := by
        rw [Nat.toDigits_of_base_le (by decide) hge] at h
        obtain ⟨c, rest, hc⟩ := List.exists_cons_of_ne_nil
          (Nat.toDigits_ne_nil (b := 10) (n := n / 10))
        simpa [hc] using h
      have hzero := ih (n / 10) (by omega) hshort
      omega

/-! ## Signed numbers -/

/-- Characters spell a number below zero behind a minus sign, and any other as they do without one.
Zero is spelled both ways. -/
def SpellsSigned (cs : List Char) (i : Int) : Prop :=
  (∃ n : Nat, Spells cs n ∧ i = n) ∨
    ∃ digits, cs = '-' :: digits ∧ digits ≠ [] ∧ (∀ c ∈ digits, c.isDigit = true) ∧
      i = -(value digits : Int)

theorem not_spells_minus (cs : List Char) (n : Nat) : ¬Spells ('-' :: cs) n := by
  rintro ⟨digits, rfl | h, -, hdigits, -⟩
  · exact absurd (hdigits '-' (by simp)) (by decide)
  · cases h

theorem integer?_minus (digits : List Char) :
    integer? ('-' :: digits) = (digits? digits).map fun n : Nat => -(n : Int) := by
  rw [integer?]
  cases digits? digits <;> rfl

theorem integer?_eq_some_iff {cs : List Char} {i : Int} :
    integer? cs = some i ↔ SpellsSigned cs i := by
  unfold SpellsSigned
  by_cases hminus : ∃ digits, cs = '-' :: digits
  · obtain ⟨digits, rfl⟩ := hminus
    simp only [integer?_minus, Option.map_eq_some_iff, digits?_eq_some_iff]
    constructor
    · rintro ⟨n, ⟨hne, hdigits, rfl⟩, rfl⟩
      exact .inr ⟨digits, rfl, hne, hdigits, rfl⟩
    · rintro (⟨n, hn, -⟩ | ⟨_, h, hne, hdigits, rfl⟩)
      · exact absurd hn (not_spells_minus digits n)
      · cases h
        exact ⟨_, ⟨hne, hdigits, rfl⟩, rfl⟩
  · have hplain : integer? cs = (natural? cs).map Int.ofNat := by
      unfold integer?
      split
      · exact absurd ⟨_, rfl⟩ hminus
      · rfl
    simp only [hplain, Option.map_eq_some_iff, natural?_eq_some_iff]
    constructor
    · rintro ⟨n, hn, rfl⟩
      exact .inl ⟨n, hn, rfl⟩
    · rintro (⟨n, hn, rfl⟩ | ⟨digits, h, -⟩)
      · exact ⟨n, hn, rfl⟩
      · exact absurd ⟨digits, h⟩ hminus

/-- A text is a number of 64 bits exactly if it spells one that fits. -/
theorem int64?_eq_some_iff {s : String} {n : Int64} :
    int64? s = some n ↔ SpellsSigned s.toList n.toInt := by
  unfold int64?
  rw [Option.bind_eq_some_iff, ← integer?_eq_some_iff]
  constructor
  · rintro ⟨i, hi, h⟩
    split at h
    · rename_i hfits
      simp only [Int64.toInt_minValue, Int64.toInt_maxValue] at hfits
      cases h
      rwa [Int64.toInt_ofInt_of_le hfits.1 (by omega)]
    · cases h
  · intro h
    exact ⟨n.toInt, h, by rw [if_pos ⟨n.minValue_le_toInt, n.toInt_le⟩, Int64.ofInt_toInt]⟩

theorem spells_toDigits (n : Nat) : Spells (Nat.toDigits 10 n) n :=
  natural?_eq_some_iff.1 (natural?_toDigits n)

theorem spellsSigned_toString (i : Int) : SpellsSigned (toString i).toList i := by
  rw [Int.toString_eq_repr, Int.repr_eq_if]
  split
  · refine .inl ⟨i.toNat, ?_, by omega⟩
    rw [Nat.toList_repr]
    exact spells_toDigits i.toNat
  · refine .inr ⟨Nat.toDigits 10 (-i).toNat, by simp, Nat.toDigits_ne_nil, isDigit_toDigits _, ?_⟩
    rw [value_toDigits]
    omega

end NicTuning.Numeral
