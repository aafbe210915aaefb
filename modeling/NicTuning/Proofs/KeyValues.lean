import NicTuning.Proofs.PrintedLines
import NicTuning.Proofs.Words
import NicTuning.Report.KeyValue

/-!
# Keys and values on lines

A key and its value that are printed on a line, with a gap before each, are read from that line.
-/
namespace NicTuning

namespace Text

/-- A gap is made of spaces and tabs. -/
def IsGap (s : String) : Prop := ∀ c ∈ s.toList, c = ' ' ∨ c = '\t'

instance : DecidablePred IsGap := fun s =>
  decidable_of_iff (s.toList.all (fun c => c == ' ' || c == '\t') = true) (by simp [IsGap])

variable {s t : String}

theorem IsGap.isBlank (h : IsGap s) : ∀ c ∈ s.toList, Text.isBlank c = true := by
  intro c hc
  rcases h c hc with rfl | rfl <;> decide

/-- A gap before a text is trimmed away. -/
theorem trim_append_of_isGap (h : IsGap s) (t : String) : trim (s ++ t) = trim t := by
  unfold trim trimChars
  rw [String.toList_append, List.dropWhile_append_of_pos h.isBlank]

/-- Nothing is trimmed away between two characters that are not blank. -/
theorem trim_eq_self (hfirst : ∀ c ∈ s.toList.head?, isBlank c = false)
    (hlast : ∀ c ∈ s.toList.getLast?, isBlank c = false) : trim s = s := by
  have hdrop : ∀ {cs : List Char}, (∀ c ∈ cs.head?, isBlank c = false) →
      cs.dropWhile isBlank = cs := by
    intro cs hcs
    cases cs with
    | nil => rfl
    | cons c cs => exact List.dropWhile_cons_of_neg (by simp [hcs c rfl])
  unfold trim trimChars
  rw [hdrop hfirst, hdrop (by simpa using hlast), List.reverse_reverse, String.ofList_toList]

/-- A trimmed text does not begin with a blank. -/
theorem isBlank_of_head?_trim : ∀ c ∈ (trim s).toList.head?, isBlank c = false := by
  intro c hc
  have hprefix : trimChars s.toList <+: s.toList.dropWhile isBlank := by
    unfold trimChars
    rw [← List.reverse_suffix, List.reverse_reverse]
    exact List.dropWhile_suffix isBlank
  obtain ⟨rest, hrest⟩ := hprefix
  rw [toList_trim] at hc
  have hhead : (s.toList.dropWhile isBlank).head? = some c := by
    rw [← hrest, List.head?_append, Option.mem_def.1 hc, Option.some_or]
  simpa [hhead] using List.head?_dropWhile_not isBlank s.toList

/-- A trimmed text does not end with a blank. -/
theorem isBlank_of_getLast?_trim : ∀ c ∈ (trim s).toList.getLast?, isBlank c = false := by
  intro c hc
  rw [toList_trim, trimChars, List.getLast?_reverse] at hc
  simpa [Option.mem_def.1 hc] using
    List.head?_dropWhile_not isBlank (s.toList.dropWhile isBlank).reverse

theorem trim_trim (s : String) : trim (trim s) = trim s :=
  trim_eq_self isBlank_of_head?_trim isBlank_of_getLast?_trim

/-- What is trimmed away is blank. -/
theorem exists_trim (s : String) : ∃ front back : List Char,
    s.toList = front ++ (trim s).toList ++ back ∧ (∀ c ∈ front, isBlank c = true) ∧
      ∀ c ∈ back, isBlank c = true := by
  have hfront := (List.takeWhile_append_dropWhile (p := isBlank) (l := s.toList)).symm
  generalize hrest : s.toList.dropWhile isBlank = rest at hfront
  have hback := (List.takeWhile_append_dropWhile (p := isBlank) (l := rest.reverse)).symm
  refine ⟨s.toList.takeWhile isBlank, (rest.reverse.takeWhile isBlank).reverse, ?_,
    fun c hc => List.mem_takeWhile_imp hc,
    fun c hc => List.mem_takeWhile_imp (List.mem_reverse.1 hc)⟩
  rw [toList_trim, trimChars, hrest, List.append_assoc, ← List.reverse_append, ← hback,
    List.reverse_reverse]
  exact hfront

theorem trim_eq_empty_iff : trim s = "" ↔ ∀ c ∈ s.toList, isBlank c = true := by
  constructor
  · intro h
    obtain ⟨front, back, hs, hfront, hback⟩ := exists_trim s
    rw [hs, h]
    simp only [List.forall_mem_append]
    exact ⟨⟨hfront, by simp⟩, hback⟩
  · intro h
    rw [trim, trimChars, List.dropWhile_eq_nil_iff.2 h]
    rfl

theorem trim_of_isWord (h : IsWord s) : trim s = s := by
  obtain ⟨-, hblank⟩ := isWord_iff.1 h
  apply trim_eq_self
  · exact fun c hc => hblank c (List.mem_of_mem_head? hc)
  · exact fun c hc => hblank c (List.mem_of_mem_getLast? hc)

end Text

namespace Report.KeyValue

open Text (IsGap IsLine IsWord trim)

/-- A text that can stand on a line between gaps. -/
def IsPart (s : String) : Prop := trim s = s ∧ ∀ c ∈ s.toList, isLineEnd c = false

instance : DecidablePred IsPart := fun s =>
  decidable_of_iff (trim s = s ∧ s.toList.all (fun c => !isLineEnd c) = true) (by simp [IsPart])

/-- A key is a part of a line in which no colon ends it. -/
def IsKey (s : String) : Prop := IsPart s ∧ s ≠ "" ∧ ':' ∉ s.toList

instance : DecidablePred IsKey := fun s =>
  inferInstanceAs (Decidable (IsPart s ∧ s ≠ "" ∧ ':' ∉ s.toList))

theorem isBlank_of_isLineEnd {c : Char} (h : isLineEnd c = true) : Text.isBlank c = true := by
  unfold isLineEnd at h
  rcases Bool.or_eq_true_iff.1 h with h | h
  · rw [beq_iff_eq.1 h]
    decide
  · rw [beq_iff_eq.1 h]
    decide

theorem isPart_of_isWord {s : String} (h : IsWord s) : IsPart s := by
  constructor
  · exact Text.trim_of_isWord h
  · intro c hc
    have hblank := (Text.isWord_iff.1 h).2 c hc
    by_contra hend
    rw [isBlank_of_isLineEnd (by simpa using hend)] at hblank
    cases hblank

theorem isKey_of_isWord {s : String} (h : IsWord s) (hcolon : ':' ∉ s.toList) : IsKey s := by
  refine ⟨isPart_of_isWord h, ?_, hcolon⟩
  rintro rfl
  exact absurd h (by decide)

theorem isLineEnd_of_isGap {s : String} (h : IsGap s) : ∀ c ∈ s.toList, isLineEnd c = false := by
  intro c hc
  rcases h c hc with rfl | rfl <;> decide

/-- The line of a key and its value. -/
def line (front key gap value : String) : String := front ++ key ++ ":" ++ gap ++ value

variable {front key gap value : String}

theorem isLine_of_isLineEnd {s : String} (h : ∀ c ∈ s.toList, isLineEnd c = false) :
    IsLine s := by
  constructor
  · intro hmem
    exact absurd (h '\n' hmem) (by decide)
  · intro hlast
    exact absurd (h '\r' (List.mem_of_getLast? hlast)) (by decide)

theorem isLine_line (hfront : IsGap front) (hkey : IsKey key) (hgap : IsGap gap)
    (hvalue : IsPart value) : IsLine (line front key gap value) := by
  have hcolon : IsPart ":" := by decide
  apply isLine_of_isLineEnd
  unfold line
  simp only [String.toList_append, List.forall_mem_append]
  exact ⟨⟨⟨⟨isLineEnd_of_isGap hfront, hkey.1.2⟩, hcolon.2⟩, isLineEnd_of_isGap hgap⟩, hvalue.2⟩

/-- The first colon ends the key, and the value is what comes before the end of the line. -/
theorem readChars?_append_eq {before : List Char} (hne : before ≠ []) (hcolon : ':' ∉ before)
    (after : List Char) : readChars? (before ++ ':' :: after) =
      if atLineEnd (after.dropWhile (!isLineEnd ·)) then
        some (⟨String.ofList (Text.trimChars before),
          String.ofList (Text.trimChars (after.takeWhile (!isLineEnd ·)))⟩,
          after.dropWhile (!isLineEnd ·))
      else none := by
  unfold readChars?
  rw [Text.takeWhile_bne hcolon, Text.dropWhile_bne hcolon]
  -- A key that would be empty is refused before its value is looked at.
  cases before with
  | nil => exact absurd rfl hne
  | cons c cs => rfl

theorem atLineEnd_iff {rest : List Char} : atLineEnd rest = true ↔
    rest = [] ∨ (∃ more, rest = '\n' :: more) ∨ ∃ more, rest = '\r' :: '\n' :: more := by
  unfold atLineEnd
  split <;> simp_all

theorem isLineEnd_of_atLineEnd {rest : List Char} (h : atLineEnd rest = true) :
    ∀ c ∈ rest.head?, isLineEnd c = true := by
  obtain rfl | ⟨more, rfl⟩ | ⟨more, rfl⟩ := atLineEnd_iff.1 h <;> simp [isLineEnd]

/-- What the first colon splits is read as far as the line goes. -/
theorem readChars?_append_eq_some_iff {before behind rest : List Char} {e : KeyValue}
    (hne : before ≠ []) (hcolon : ':' ∉ before) :
    readChars? (before ++ ':' :: behind) = some (e, rest) ↔
      ∃ after, behind = after ++ rest ∧ (∀ c ∈ after, isLineEnd c = false) ∧
        atLineEnd rest = true ∧
        e = ⟨String.ofList (Text.trimChars before), String.ofList (Text.trimChars after)⟩ := by
  rw [readChars?_append_eq hne hcolon]
  constructor
  · intro h
    split at h
    · rename_i hend
      cases h
      refine ⟨behind.takeWhile (!isLineEnd ·), ?_, ?_, hend, rfl⟩
      · exact List.takeWhile_append_dropWhile.symm
      · intro c hc
        simpa using List.mem_takeWhile_imp hc
    · cases h
  · rintro ⟨after, rfl, hafter, hrest, rfl⟩
    obtain ⟨htake, hdrop⟩ := (Text.takeWhile_dropWhile_eq_iff (p := (!isLineEnd ·))).2
      ⟨rfl, by simpa using hafter, by simpa using isLineEnd_of_atLineEnd hrest⟩
    rw [htake, hdrop, if_pos hrest]

theorem readChars?_of_not_mem {cs : List Char} (h : ':' ∉ cs) : readChars? cs = none := by
  unfold readChars?
  rw [Text.dropWhile_bne_of_not_mem h]
  cases cs.takeWhile (· != ':') <;> rfl

/-- A text is read if a colon ends a key that is not empty, and its line ends as lines do. -/
theorem readChars?_eq_some_iff {cs rest : List Char} {e : KeyValue} :
    readChars? cs = some (e, rest) ↔
      ∃ before after, cs = before ++ ':' :: (after ++ rest) ∧ before ≠ [] ∧ ':' ∉ before ∧
        (∀ c ∈ after, isLineEnd c = false) ∧ atLineEnd rest = true ∧
        e = ⟨String.ofList (Text.trimChars before), String.ofList (Text.trimChars after)⟩ := by
  constructor
  · intro h
    by_cases hmem : ':' ∈ cs
    · obtain ⟨before, behind, rfl, hcolon⟩ := List.eq_append_cons_of_mem hmem
      by_cases hne : before = []
      · subst hne
        cases h
      · obtain ⟨after, rfl, hread⟩ := (readChars?_append_eq_some_iff hne hcolon).1 h
        exact ⟨before, after, rfl, hne, hcolon, hread⟩
    · rw [readChars?_of_not_mem hmem] at h
      cases h
  · rintro ⟨before, after, rfl, hne, hcolon, hread⟩
    exact (readChars?_append_eq_some_iff hne hcolon).2 ⟨after, rfl, hread⟩

/-- A line is a text of which nothing is left unread. -/
theorem ofLine?_eq_some_iff_readChars? {s : String} {e : KeyValue} :
    ofLine? s = some e ↔ readChars? s.toList = some (e, []) := by
  unfold ofLine?
  split <;> simp_all

/-- What the first colon splits is a line unless a line ends behind it. -/
theorem ofLine?_eq_some_iff_of_split {s : String} {before after : List Char} {e : KeyValue}
    (hs : s.toList = before ++ ':' :: after) (hne : before ≠ []) (hcolon : ':' ∉ before) :
    ofLine? s = some e ↔ (∀ c ∈ after, isLineEnd c = false) ∧
      e = ⟨String.ofList (Text.trimChars before), String.ofList (Text.trimChars after)⟩ := by
  rw [ofLine?_eq_some_iff_readChars?, hs, readChars?_append_eq_some_iff hne hcolon]
  simp [atLineEnd]

/-- A line is read if a colon ends a key that is not empty and no line ends behind it. -/
theorem ofLine?_eq_some_iff {s : String} {e : KeyValue} : ofLine? s = some e ↔
    ∃ before after : List Char, s.toList = before ++ ':' :: after ∧ before ≠ [] ∧ ':' ∉ before ∧
      (∀ c ∈ after, isLineEnd c = false) ∧
      e = ⟨String.ofList (Text.trimChars before), String.ofList (Text.trimChars after)⟩ := by
  rw [ofLine?_eq_some_iff_readChars?, readChars?_eq_some_iff]
  simp [atLineEnd]

/-- The key and the value are read from their line. -/
theorem ofLine?_line (hfront : IsGap front) (hkey : IsKey key) (hgap : IsGap gap)
    (hvalue : IsPart value) : ofLine? (line front key gap value) = some ⟨key, value⟩ := by
  obtain ⟨⟨htrim, -⟩, hne, hcolon⟩ := hkey
  have hchars : (line front key gap value).toList =
      (front ++ key).toList ++ ':' :: (gap ++ value).toList := by
    simp [line]
  have hsome : (front ++ key).toList ≠ [] := by
    simp [hne]
  have hbefore : ':' ∉ (front ++ key).toList := by
    rw [String.toList_append, List.mem_append, not_or]
    exact ⟨fun hmem => absurd (hfront ':' hmem) (by decide), hcolon⟩
  have hafter : ∀ c ∈ (gap ++ value).toList, isLineEnd c = false := by
    rw [String.toList_append, List.forall_mem_append]
    exact ⟨isLineEnd_of_isGap hgap, hvalue.2⟩
  have hkeyText : String.ofList (Text.trimChars (front ++ key).toList) = key :=
    (Text.trim_append_of_isGap hfront key).trans htrim
  have hvalueText : String.ofList (Text.trimChars (gap ++ value).toList) = value :=
    (Text.trim_append_of_isGap hgap value).trans hvalue.1
  rw [ofLine?_eq_some_iff_of_split hchars hsome hbefore, hkeyText, hvalueText]
  exact ⟨hafter, rfl⟩

/-- Lines that hold entries are read as these entries. -/
theorem filterMap_ofLine? {α : Type} {line : α → String} {entry : α → KeyValue} {l : List α}
    (h : ∀ x ∈ l, ofLine? (line x) = some (entry x)) :
    (l.map line).filterMap ofLine? = l.map entry := by
  rw [List.filterMap_map, ← List.filterMap_eq_map]
  exact List.filterMap_congr h

end Report.KeyValue

end NicTuning
