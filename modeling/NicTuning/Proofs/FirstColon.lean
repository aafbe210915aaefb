import NicTuning.Proofs.KeyValues

/-!
# Texts that split at their first colon

A key and its value are read in four steps: the characters before the first colon, the colon, a gap
behind it, and the rest of the line. Two notions of space meet here. Only spaces and tabs are passed
over as a gap, but every blank is trimmed away, so that the gap makes no difference. Two notions of
a line end meet as well: a carriage return stops the value, and then ends its line only before a line
feed.

Main statement: what is read of a text is how it splits at its first colon, and readers of which no
more is known than what each step takes and leaves read the same when they are put together.
-/
namespace NicTuning.Report.KeyValue

open Text (IsGap trim trimChars)

/-! ## Splitting -/

/-- A text splits at its first colon, with something before it, and a value behind it whose line
ends with the text, with a line feed, or with a carriage return and a line feed. -/
structure SplitsAt (text front behind rest : String) : Prop where
  text_eq : text = front ++ ":" ++ behind ++ rest
  front_ne : front ≠ ""
  noColon : ':' ∉ front.toList
  noLineFeed : '\n' ∉ behind.toList
  noReturn : '\r' ∉ behind.toList
  ends : rest = "" ∨ ∃ more, rest = "\n" ++ more ∨ rest = "\r\n" ++ more

theorem forall_not_isLineEnd_iff {s : String} :
    (∀ c ∈ s.toList, isLineEnd c = false) ↔ '\n' ∉ s.toList ∧ '\r' ∉ s.toList := by
  simp only [isLineEnd, Bool.or_eq_false_iff, beq_eq_false_iff_ne]
  constructor
  · intro h
    exact ⟨fun hc => (h _ hc).1 rfl, fun hc => (h _ hc).2 rfl⟩
  · rintro ⟨hfeed, hreturn⟩ c hc
    exact ⟨fun h => hfeed (h ▸ hc), fun h => hreturn (h ▸ hc)⟩

theorem atLineEnd_toList_iff {rest : String} : atLineEnd rest.toList = true ↔
    rest = "" ∨ ∃ more, rest = "\n" ++ more ∨ rest = "\r\n" ++ more := by
  rw [atLineEnd_iff]
  constructor
  · rintro (h | ⟨more, h⟩ | ⟨more, h⟩)
    · exact .inl (by simpa using h)
    · exact .inr ⟨String.ofList more, .inl (String.toList_injective (by simp [h]))⟩
    · exact .inr ⟨String.ofList more, .inr (String.toList_injective (by simp [h]))⟩
  · rintro (rfl | ⟨more, rfl | rfl⟩) <;> simp

theorem read?_eq_some_iff_readChars? {text rest : String} {e : KeyValue} :
    read? text = some (e, rest) ↔ readChars? text.toList = some (e, rest.toList) := by
  unfold read?
  rw [Option.map_eq_some_iff]
  constructor
  · rintro ⟨⟨e, cs⟩, h, heq⟩
    cases heq
    simpa using h
  · intro h
    exact ⟨_, h, by simp⟩

/-- What is read of a text are the trimmed parts that it splits into at its first colon. -/
theorem read?_eq_some_iff {text rest : String} {e : KeyValue} :
    read? text = some (e, rest) ↔
      ∃ front behind, SplitsAt text front behind rest ∧ e = ⟨trim front, trim behind⟩ := by
  rw [read?_eq_some_iff_readChars?, readChars?_eq_some_iff]
  constructor
  · rintro ⟨before, after, htext, hne, hcolon, hafter, hrest, rfl⟩
    have hends : ∀ c ∈ (String.ofList after).toList, isLineEnd c = false := by simpa using hafter
    obtain ⟨hfeed, hreturn⟩ := forall_not_isLineEnd_iff.1 hends
    refine ⟨String.ofList before, String.ofList after, ?_, by simp [trim]⟩
    exact
      { text_eq := String.toList_injective (by simp [htext])
        front_ne := by simpa using hne
        noColon := by simpa using hcolon
        noLineFeed := hfeed
        noReturn := hreturn
        ends := atLineEnd_toList_iff.1 hrest }
  · rintro ⟨front, behind, h, rfl⟩
    refine ⟨front.toList, behind.toList, by simp [h.text_eq], by simpa using h.front_ne, h.noColon,
      forall_not_isLineEnd_iff.2 ⟨h.noLineFeed, h.noReturn⟩, atLineEnd_toList_iff.2 h.ends, rfl⟩

/-- A line is a text of which nothing is left unread. -/
theorem ofLine?_eq_some_iff_read? {text : String} {e : KeyValue} :
    ofLine? text = some e ↔ read? text = some (e, "") := by
  rw [ofLine?_eq_some_iff_readChars?, read?_eq_some_iff_readChars?]
  rfl

/-! ## Reading step by step -/

/-- A reader takes something from the beginning of the characters, or fails. -/
abbrev Reader (α : Type) := StateT (List Char) Option α

/-- The readers for the steps in which a key and its value are read. -/
structure Steps where
  /-- One or more characters before the next one of a kind. -/
  till : Char → Reader String
  /-- A single character. -/
  char : Char → Reader Unit
  /-- Spaces and tabs, if there are any. -/
  gap : Reader String
  /-- What is left of the line. -/
  line : Reader String

namespace Steps

/-- A key, a colon, a gap and a value, of which the key and the value are trimmed. -/
def entry (steps : Steps) : Reader KeyValue := do
  let key ← steps.till ':'
  steps.char ':'
  let _ ← steps.gap
  let value ← steps.line
  return ⟨trim key, trim value⟩

/-- What each of the steps takes and leaves. -/
structure Lawful (steps : Steps) : Prop where
  till_iff : ∀ stop cs taken rest, (steps.till stop).run cs = some (taken, rest) ↔
    cs = taken.toList ++ rest ∧ taken ≠ "" ∧ stop ∉ taken.toList ∧ ∀ c ∈ rest.head?, c = stop
  char_iff : ∀ c cs rest, (steps.char c).run cs = some ((), rest) ↔ cs = c :: rest
  gap_iff : ∀ cs taken rest, steps.gap.run cs = some (taken, rest) ↔
    cs = taken.toList ++ rest ∧ IsGap taken ∧ ∀ c ∈ rest.head?, c ≠ ' ' ∧ c ≠ '\t'
  line_iff : ∀ cs taken rest, steps.line.run cs = some (taken, rest) ↔
    cs = taken.toList ++ rest ∧ '\n' ∉ taken.toList ∧ '\r' ∉ taken.toList ∧
      (rest = [] ∨ (∃ more, rest = '\n' :: more) ∨ ∃ more, rest = '\r' :: '\n' :: more)

variable {steps : Steps} {cs rest : List Char} {e : KeyValue}

theorem Lawful.entry_run_eq_some_iff (h : steps.Lawful) :
    steps.entry.run cs = some (e, rest) ↔
      ∃ key gap value : String, cs = key.toList ++ ':' :: (gap.toList ++ (value.toList ++ rest)) ∧
        key ≠ "" ∧ ':' ∉ key.toList ∧ IsGap gap ∧
        (∀ c ∈ (value.toList ++ rest).head?, c ≠ ' ' ∧ c ≠ '\t') ∧
        (∀ c ∈ value.toList, isLineEnd c = false) ∧ atLineEnd rest = true ∧
        e = ⟨trim key, trim value⟩ := by
  unfold entry
  simp only [StateT.run_bind, StateT.run_pure, Option.bind_eq_bind, Option.bind_eq_some_iff,
    Prod.exists, h.till_iff, h.char_iff, h.gap_iff, h.line_iff, Option.pure_def, Option.some.injEq,
    Prod.mk.injEq, forall_not_isLineEnd_iff, atLineEnd_iff]
  constructor
  · rintro ⟨key, _, ⟨rfl, hne, hcolon, -⟩, -, _, rfl, gap, _, ⟨rfl, hgap, hhead⟩, value, _,
      ⟨rfl, hfeed, hreturn, hrest⟩, rfl, rfl⟩
    exact ⟨key, gap, value, rfl, hne, hcolon, hgap, hhead, ⟨hfeed, hreturn⟩, hrest, rfl⟩
  · rintro ⟨key, gap, value, rfl, hne, hcolon, hgap, hhead, ⟨hfeed, hreturn⟩, hrest, rfl⟩
    exact ⟨key, _, ⟨rfl, hne, hcolon, by simp⟩, (), _, rfl, gap, _, ⟨rfl, hgap, hhead⟩, value, _,
      ⟨rfl, hfeed, hreturn, hrest⟩, rfl, rfl⟩

def isGapChar (c : Char) : Bool := c == ' ' || c == '\t'

/-- Characters go on behind the longest gap at their beginning. -/
theorem takeWhile_isGapChar_iff {taken : String} :
    cs.takeWhile isGapChar = taken.toList ∧ cs.dropWhile isGapChar = rest ↔
      cs = taken.toList ++ rest ∧ IsGap taken ∧ ∀ c ∈ rest.head?, c ≠ ' ' ∧ c ≠ '\t' := by
  rw [Text.takeWhile_dropWhile_eq_iff]
  simp [isGapChar, IsGap]

theorem exists_gap (after : List Char) : ∃ gap value : String,
    after = gap.toList ++ value.toList ∧ IsGap gap ∧
      ∀ c ∈ value.toList.head?, c ≠ ' ' ∧ c ≠ '\t' := by
  refine ⟨String.ofList (after.takeWhile isGapChar), String.ofList (after.dropWhile isGapChar), ?_⟩
  exact takeWhile_isGapChar_iff.1 (by simp)

theorem not_gap_of_atLineEnd (h : atLineEnd rest = true) :
    ∀ c ∈ rest.head?, c ≠ ' ' ∧ c ≠ '\t' := by
  obtain rfl | ⟨more, rfl⟩ | ⟨more, rfl⟩ := atLineEnd_iff.1 h <;> simp

/-- The steps together read what is read in one go: the gap that they pass over is the blank
beginning of a value, and trimmed away there. -/
theorem Lawful.entry_run (h : steps.Lawful) (cs : List Char) :
    steps.entry.run cs = readChars? cs := by
  apply Option.ext
  rintro ⟨e, rest⟩
  rw [h.entry_run_eq_some_iff, readChars?_eq_some_iff]
  constructor
  · rintro ⟨key, gap, value, rfl, hne, hcolon, hgap, -, hvalue, hrest, rfl⟩
    refine ⟨key.toList, (gap ++ value).toList, by simp, by simpa using hne, hcolon, ?_, hrest, ?_⟩
    · rw [String.toList_append, List.forall_mem_append]
      exact ⟨isLineEnd_of_isGap hgap, hvalue⟩
    · rw [← Text.trim_append_of_isGap hgap value]
      rfl
  · rintro ⟨before, after, rfl, hne, hcolon, hafter, hrest, rfl⟩
    obtain ⟨gap, value, rfl, hgap, hhead⟩ := exists_gap after
    rw [List.forall_mem_append] at hafter
    refine ⟨String.ofList before, gap, value, by simp, by simpa using hne, by simpa using hcolon,
      hgap, ?_, hafter.2, hrest, ?_⟩
    · -- Nothing that ends a line could have been passed over as a part of the gap.
      rw [List.head?_append]
      cases hvalue : value.toList with
      | nil => exact not_gap_of_atLineEnd hrest
      | cons c cs => simpa [hvalue] using hhead
    · rw [← Text.trim_append_of_isGap hgap value]
      simp [trim]

/-- Each of the steps in one go. -/
def plain : Steps where
  till stop cs :=
    if cs.takeWhile (· != stop) = [] then none
    else some (String.ofList (cs.takeWhile (· != stop)), cs.dropWhile (· != stop))
  char c cs := if cs.head? = some c then some ((), cs.tail) else none
  gap cs := some (String.ofList (cs.takeWhile isGapChar), cs.dropWhile isGapChar)
  line cs :=
    if atLineEnd (cs.dropWhile (!isLineEnd ·)) then
      some (String.ofList (cs.takeWhile (!isLineEnd ·)), cs.dropWhile (!isLineEnd ·))
    else none

theorem plain_lawful : plain.Lawful where
  till_iff stop cs taken rest := by
    change (if _ then _ else _) = _ ↔ _
    rw [Option.ite_none_left_eq_some, Option.some_inj, Prod.mk.injEq, String.ofList_eq]
    constructor
    · rintro ⟨hne, hspan⟩
      obtain ⟨hcs, htaken, hrest⟩ := Text.takeWhile_dropWhile_eq_iff.1 hspan
      rw [hspan.1] at hne
      exact ⟨hcs, by simpa using hne, fun hstop => by simpa using htaken stop hstop,
        by simpa using hrest⟩
    · rintro ⟨hcs, hne, hstop, hrest⟩
      have hspan := Text.takeWhile_dropWhile_eq_iff.2
        ⟨hcs, Text.bne_of_not_mem hstop, by simpa using hrest⟩
      exact ⟨by simpa [hspan.1] using hne, hspan⟩
  char_iff c cs rest := by
    cases cs with
    | nil => simp [plain, StateT.run]
    | cons first cs => simp [plain, StateT.run]
  gap_iff cs taken rest := by
    change some (_, _) = _ ↔ _
    rw [Option.some_inj, Prod.mk.injEq, String.ofList_eq, takeWhile_isGapChar_iff]
  line_iff cs taken rest := by
    change (if _ then _ else _) = _ ↔ _
    rw [Option.ite_none_right_eq_some, Option.some_inj, Prod.mk.injEq, String.ofList_eq,
      ← atLineEnd_iff, ← and_assoc (a := '\n' ∉ _), ← forall_not_isLineEnd_iff]
    constructor
    · rintro ⟨hend, hspan⟩
      obtain ⟨hcs, htaken, -⟩ := Text.takeWhile_dropWhile_eq_iff.1 hspan
      exact ⟨hcs, by simpa using htaken, hspan.2 ▸ hend⟩
    · rintro ⟨hcs, htaken, hend⟩
      have hspan := (Text.takeWhile_dropWhile_eq_iff (p := (!isLineEnd ·))).2
        ⟨hcs, by simpa using htaken, by simpa using isLineEnd_of_atLineEnd hend⟩
      exact ⟨hspan.2.symm ▸ hend, hspan⟩

end Steps

/-- A text is a key with its value exactly if it splits at its first colon, with no line end in the
value, and a key with its value is read from the beginning of a text exactly if it splits there up to
the end of a line, which is where it is left. They are the trimmed parts. Readers that are put
together of steps take the same and leave the same. -/
theorem texts_split_at_first_colon :
    (∀ text key value : String, ofLine? text = some ⟨key, value⟩ ↔
      ∃ front behind, SplitsAt text front behind "" ∧ key = trim front ∧ value = trim behind) ∧
    (∀ text key value rest : String, read? text = some (⟨key, value⟩, rest) ↔
      ∃ front behind, SplitsAt text front behind rest ∧ key = trim front ∧ value = trim behind) ∧
    ∀ steps : Steps, steps.Lawful → ∀ cs, steps.entry.run cs = readChars? cs := by
  refine ⟨?_, ?_, fun steps h cs => h.entry_run cs⟩
  · intro text key value
    rw [ofLine?_eq_some_iff_read?, read?_eq_some_iff]
    simp
  · intro text key value rest
    rw [read?_eq_some_iff]
    simp

/-- The line ends in front of the carriage return, and the gap is lost with the blank behind it. -/
theorem texts_split_at_first_colon_step_by_step :
    Steps.plain.Lawful ∧ Steps.plain.entry.run "Mode:\t \u00a0a:b \r\nTX:".toList =
      some (⟨"Mode", "a:b"⟩, "\r\nTX:".toList) := by
  obtain ⟨-, -, hsteps⟩ := texts_split_at_first_colon
  refine ⟨Steps.plain_lawful, ?_⟩
  rw [hsteps Steps.plain Steps.plain_lawful]
  decide +kernel

end NicTuning.Report.KeyValue
