import Mathlib.Data.List.Induction
import NicTuning.Proofs.Dictionaries
import NicTuning.Proofs.KeyValues
import NicTuning.Proofs.Numerals
import NicTuning.Report.Channels

/-!
# Reports of channels

Below its title a report is read line by line. A line is told by what it says and by the headings
before it, so what is known of the lines read so far determines what a further one does: `Reads` is
kept by each line that fits, and a line that does not fit ends the reading.

Main statement: a report is read if each of its lines fits, each type then has the count of the last
of its lines in a section, and the fault is otherwise about the first line that does not fit.
Dictionaries printed in the layout of a report are read back.
-/
namespace NicTuning.Report.Channels

open Text (IsGap IsLine IsWord)

deriving instance DecidableEq for Section

/-! ## Lines -/

/-- The line that opens a section. -/
def Section.heading : Section → String
  | maximums => "Pre-set maximums:"
  | current => "Current hardware settings:"

/-- The counts of a section. -/
def inSection (c : Channels) : Section → Counts
  | .maximums => c.maximums
  | .current => c.current

/-- What a value says: that there is no count, or which it is. -/
inductive Tells : String → Option UInt32 → Prop
  | lacking : Tells "n/a" .none
  | number {value : String} {n : UInt32} (h : Numeral.Spells value.toList n.toNat) :
    Tells value (some n)

def IsHeading (line : String) : Prop := ∃ s : Section, Text.trim line = s.heading

/-- The line has a key with a value that tells its count. -/
def Enters (line key : String) (count : Option UInt32) : Prop :=
  ∃ value, KeyValue.ofLine? line = some ⟨key, value⟩ ∧ Tells value count

/-- The line can come after some lines: it is blank, or a heading, or it enters a count and there is
a heading before it. -/
def Follows (before : List String) (line : String) : Prop :=
  Text.trim line = "" ∨ IsHeading line ∨
    (∃ key count, Enters line key count) ∧ ∃ earlier ∈ before, IsHeading earlier

/-- The last heading among some lines opens the section. -/
def Under (lines : List String) (s : Section) : Prop :=
  ∃ before heading after, lines = before ++ heading :: after ∧ Text.trim heading = s.heading ∧
    ∀ line ∈ after, ¬IsHeading line

/-- The line at a place gives a type its count in a section. -/
def EntersAt (lines : List String) (s : Section) (type : String) (count : Option UInt32)
    (place : Nat) : Prop :=
  ∃ line key, lines[place]? = some line ∧ Under (lines.take place) s ∧ Enters line key count ∧
    Text.lower key = type

/-- The count of a type on the last of its lines in a section. -/
def IsLast (lines : List String) (s : Section) (type : String) (count : Option UInt32) : Prop :=
  ∃ place, EntersAt lines s type count place ∧
    ∀ place' count', EntersAt lines s type count' place' → place' ≤ place

/-- What is wrong with a line that does not fit. -/
inductive Complaint (before : List String) (line : String) : String → Prop
  | entry (h : KeyValue.ofLine? line = .none) :
    Complaint before line ("bad channel line '" ++ line ++ "'")
  | count {key value : String} (h : KeyValue.ofLine? line = some ⟨key, value⟩)
    (hvalue : ∀ count, ¬Tells value count) :
    Complaint before line ("bad channel count '" ++ value ++ "' for " ++ key)
  | outside {key : String} {count : Option UInt32} (h : Enters line key count)
    (hbefore : ∀ earlier ∈ before, ¬IsHeading earlier) :
    Complaint before line ("channel line '" ++ line ++ "' outside of a section")

/-- The first line that does not fit. -/
def FirstUnfit (lines : List String) (place : Nat) (line : String) : Prop :=
  lines[place]? = some line ∧ ¬Follows (lines.take place) line ∧
    ∀ place' < place, ∀ line', lines[place']? = some line' → Follows (lines.take place') line'

theorem heading?_eq_some_iff {line : String} {s : Section} :
    heading? line = some s ↔ line = s.heading := by
  unfold heading?
  split_ifs with hmaximums hcurrent
  · subst hmaximums
    cases s <;> simp [Section.heading]
  · subst hcurrent
    cases s <;> simp [Section.heading]
  · cases s <;> simp [Section.heading, hmaximums, hcurrent]

theorem count?_eq_some_iff {value : String} {count : Option UInt32} :
    count? value = some count ↔ Tells value count := by
  unfold count?
  split
  · rename_i h
    subst h
    constructor
    · intro hcount
      cases hcount
      exact .lacking
    · intro hcount
      cases hcount with
      | lacking => rfl
      | number hn =>
        have hnone : Numeral.uint32? "n/a" = .none := by decide
        rw [← Numeral.uint32?_eq_some_iff, hnone] at hn
        cases hn
  · rename_i hne
    rw [Option.map_eq_some_iff]
    constructor
    · rintro ⟨n, hn, rfl⟩
      exact .number (Numeral.uint32?_eq_some_iff.1 hn)
    · intro hcount
      cases hcount with
      | lacking => exact absurd rfl hne
      | number hn => exact ⟨_, Numeral.uint32?_eq_some_iff.2 hn, rfl⟩

theorem not_tells_empty (count : Option UInt32) : ¬Tells "" count := by
  have hnone : count? "" = .none := by decide
  rw [← count?_eq_some_iff, hnone]
  exact nofun

/-- A heading has no value, so it enters nothing. -/
theorem not_enters_of_isHeading {line : String} (h : IsHeading line) (key : String)
    (count : Option UInt32) : ¬Enters line key count := by
  rintro ⟨value, hread, htells⟩
  obtain ⟨s, hs⟩ := h
  obtain ⟨front, back, htrim, hfront, hback⟩ := Text.exists_trim line
  obtain ⟨name, hname, hsome, hcolon⟩ : ∃ name : List Char,
      s.heading.toList = name ++ [':'] ∧ name ≠ [] ∧ ':' ∉ name := by
    cases s
    · exact ⟨"Pre-set maximums".toList, by decide, by decide, by decide⟩
    · exact ⟨"Current hardware settings".toList, by decide, by decide, by decide⟩
  have hsplit : line.toList = (front ++ name) ++ ':' :: back := by
    rw [htrim, hs, hname]
    simp
  have hnot : ':' ∉ front ++ name := by
    rw [List.mem_append, not_or]
    exact ⟨fun hm => absurd (hfront ':' hm) (by decide), hcolon⟩
  have hne : front ++ name ≠ [] := by simp [hsome]
  have hvalue : value = "" := by
    have hblank : Text.trimChars back = [] := by
      rw [Text.trimChars, List.dropWhile_eq_nil_iff.2 hback]
      rfl
    obtain ⟨-, hentry⟩ := (KeyValue.ofLine?_eq_some_iff_of_split hsplit hne hnot).1 hread
    rw [hblank] at hentry
    exact congrArg KeyValue.value hentry
  exact not_tells_empty count (hvalue ▸ htells)

theorem not_enters_of_blank {line : String} (h : Text.trim line = "") (key : String)
    (count : Option UInt32) : ¬Enters line key count := by
  rintro ⟨value, hread, -⟩
  obtain ⟨before, after, hline, -⟩ := KeyValue.ofLine?_eq_some_iff.1 hread
  exact absurd (Text.trim_eq_empty_iff.1 h ':' (by simp [hline])) (by decide)

theorem not_isHeading_of_blank {line : String} (h : Text.trim line = "") : ¬IsHeading line := by
  rintro ⟨s, hs⟩
  rw [h] at hs
  cases s <;> exact absurd hs (by decide)

theorem Enters.unique {line key key' : String} {count count' : Option UInt32}
    (h : Enters line key count) (h' : Enters line key' count') : key = key' ∧ count = count' := by
  obtain ⟨value, hread, htells⟩ := h
  obtain ⟨value', hread', htells'⟩ := h'
  rw [hread] at hread'
  cases hread'
  rw [← count?_eq_some_iff] at htells htells'
  rw [htells] at htells'
  exact ⟨rfl, Option.some.inj htells'⟩

theorem Complaint.unique {before : List String} {line text text' : String}
    (h : Complaint before line text) (h' : Complaint before line text') : text = text' := by
  cases h with
  | entry h =>
    cases h' with
    | entry => rfl
    | count h' => simp [h] at h'
    | outside h' =>
      obtain ⟨_, h', -⟩ := h'
      simp [h] at h'
  | count h hvalue =>
    cases h' with
    | entry h' => simp [h] at h'
    | count h' =>
      rw [h] at h'
      cases h'
      rfl
    | outside h' =>
      obtain ⟨_, h', htells⟩ := h'
      rw [h] at h'
      cases h'
      exact absurd htells (hvalue _)
  | outside h =>
    cases h' with
    | outside => rfl
    | entry h' =>
      obtain ⟨_, h, -⟩ := h
      simp [h'] at h
    | count h' hvalue =>
      obtain ⟨_, h, htells⟩ := h
      rw [h'] at h
      cases h
      exact absurd htells (hvalue _)

/-! ## Reading -/

/-- What is known when some lines have been read, and the section at hand: the lines fit, and the
counts are those of the last lines. -/
structure Reads (lines : List String) (known : Channels) (open? : Option Section) : Prop where
  fits : ∀ place line, lines[place]? = some line → Follows (lines.take place) line
  opened : ∀ s, open? = some s ↔ Under lines s
  counts : ∀ s type count, (known.inSection s).get? type = some count ↔ IsLast lines s type count

theorem getElem?_concat {lines : List String} {line line' : String} {place : Nat} :
    (lines ++ [line])[place]? = some line' ↔
      lines[place]? = some line' ∨ place = lines.length ∧ line = line' := by
  rcases Nat.lt_trichotomy place lines.length with hlt | rfl | hgt
  · rw [List.getElem?_append_left hlt]
    simp [Nat.ne_of_lt hlt]
  · simp
  · have hshort : (lines ++ [line]).length ≤ place := by
      rw [List.length_append, List.length_singleton]
      omega
    simp [List.getElem?_eq_none hshort, List.getElem?_eq_none hgt.le, Nat.ne_of_gt hgt]

theorem take_concat (line : String) {lines : List String} {place : Nat}
    (h : place ≤ lines.length) : (lines ++ [line]).take place = lines.take place :=
  List.take_append_of_le_length h

theorem le_of_getElem? {lines : List String} {line : String} {place : Nat}
    (h : lines[place]? = some line) : place ≤ lines.length :=
  (List.getElem?_eq_some_iff.1 h).1.le

theorem under_concat_of_heading {lines : List String} {line : String} {s : Section}
    (h : Text.trim line = s.heading) (s' : Section) : Under (lines ++ [line]) s' ↔ s = s' := by
  constructor
  · rintro ⟨before, heading, after, hlines, hheading, hafter⟩
    rcases List.eq_nil_or_concat after with rfl | ⟨after, last, rfl⟩
    · obtain ⟨-, hlast⟩ := List.append_inj' hlines rfl
      cases hlast
      rw [h] at hheading
      cases s <;> cases s' <;> first | rfl | exact absurd hheading (by decide)
    · rw [List.concat_eq_append, ← List.cons_append, ← List.append_assoc] at hlines
      obtain ⟨-, hlast⟩ := List.append_inj' hlines rfl
      cases hlast
      exact absurd ⟨s, h⟩ (hafter line (by simp))
  · rintro rfl
    exact ⟨lines, line, [], rfl, h, by simp⟩

theorem under_concat_of_not_isHeading {lines : List String} {line : String}
    (h : ¬IsHeading line) (s : Section) : Under (lines ++ [line]) s ↔ Under lines s := by
  constructor
  · rintro ⟨before, heading, after, hlines, hheading, hafter⟩
    rcases List.eq_nil_or_concat after with rfl | ⟨after, last, rfl⟩
    · obtain ⟨-, hlast⟩ := List.append_inj' hlines rfl
      cases hlast
      exact absurd ⟨s, hheading⟩ h
    · rw [List.concat_eq_append, ← List.cons_append, ← List.append_assoc] at hlines
      obtain ⟨hlines, -⟩ := List.append_inj' hlines rfl
      exact ⟨before, heading, after, hlines, hheading, fun l hl => hafter l (by simp [hl])⟩
  · rintro ⟨before, heading, after, rfl, hheading, hafter⟩
    refine ⟨before, heading, after ++ [line], by simp, hheading, fun l hl => ?_⟩
    rcases List.mem_append.1 hl with hl | hl
    · exact hafter l hl
    · rwa [List.mem_singleton.1 hl]

theorem entersAt_concat {lines : List String} {line : String} {s : Section} {type : String}
    {count : Option UInt32} {place : Nat} : EntersAt (lines ++ [line]) s type count place ↔
      EntersAt lines s type count place ∨ place = lines.length ∧ Under lines s ∧
        ∃ key, Enters line key count ∧ Text.lower key = type := by
  constructor
  · rintro ⟨line', key, hline, hunder, henters, hkey⟩
    rcases getElem?_concat.1 hline with hline | ⟨rfl, rfl⟩
    · rw [take_concat _ (le_of_getElem? hline)] at hunder
      exact .inl ⟨line', key, hline, hunder, henters, hkey⟩
    · rw [take_concat _ le_rfl, List.take_length] at hunder
      exact .inr ⟨rfl, hunder, key, henters, hkey⟩
  · rintro (⟨line', key, hline, hunder, henters, hkey⟩ | ⟨rfl, hunder, key, henters, hkey⟩)
    · rw [← take_concat line (le_of_getElem? hline)] at hunder
      exact ⟨line', key, getElem?_concat.2 (.inl hline), hunder, henters, hkey⟩
    · refine ⟨line, key, getElem?_concat.2 (.inr ⟨rfl, rfl⟩), ?_, henters, hkey⟩
      rwa [take_concat _ le_rfl, List.take_length]

theorem EntersAt.lt {lines : List String} {s : Section} {type : String} {count : Option UInt32}
    {place : Nat} (h : EntersAt lines s type count place) : place < lines.length := by
  obtain ⟨line, -, hline, -⟩ := h
  exact (List.getElem?_eq_some_iff.1 hline).1

theorem isLast_concat_of_not_enters {lines : List String} {line : String}
    (h : ∀ key count, ¬Enters line key count) (s : Section) (type : String)
    (count : Option UInt32) : IsLast (lines ++ [line]) s type count ↔ IsLast lines s type count := by
  have hsame : ∀ count place, EntersAt (lines ++ [line]) s type count place ↔
      EntersAt lines s type count place := by
    intro count place
    rw [entersAt_concat, or_iff_left]
    rintro ⟨-, -, key, henters, -⟩
    exact h key count henters
  simp only [IsLast, hsame]

section Entering

variable {lines : List String} {line key : String} {count : Option UInt32} {s : Section}

/-- The count that the last line enters is the last of its type. -/
theorem isLast_concat_self (hs : Under lines s) (h : Enters line key count)
    (count' : Option UInt32) :
    IsLast (lines ++ [line]) s (Text.lower key) count' ↔ count' = count := by
  have hlast : EntersAt (lines ++ [line]) s (Text.lower key) count lines.length :=
    entersAt_concat.2 (.inr ⟨rfl, hs, key, h, rfl⟩)
  constructor
  · rintro ⟨place, henters, hafter⟩
    rcases entersAt_concat.1 henters with hbefore | ⟨-, -, key', h', -⟩
    · exact absurd (hafter _ _ hlast) (Nat.not_le.2 hbefore.lt)
    · exact (h'.unique h).2
  · rintro rfl
    refine ⟨lines.length, hlast, fun place count' henters => ?_⟩
    rcases entersAt_concat.1 henters with hbefore | ⟨rfl, -⟩
    · exact hbefore.lt.le
    · exact le_rfl

/-- The counts of other types stay. -/
theorem isLast_concat_of_ne (hs : ∀ s', Under lines s' ↔ s = s') (h : Enters line key count)
    {s' : Section} {type : String} (hne : ¬(s = s' ∧ Text.lower key = type))
    (count' : Option UInt32) :
    IsLast (lines ++ [line]) s' type count' ↔ IsLast lines s' type count' := by
  have hsame : ∀ count' place, EntersAt (lines ++ [line]) s' type count' place ↔
      EntersAt lines s' type count' place := by
    intro count' place
    rw [entersAt_concat, or_iff_left]
    rintro ⟨-, hunder, key', h', hkey⟩
    exact hne ⟨(hs s').1 hunder, (h.unique h').1 ▸ hkey⟩
  simp only [IsLast, hsame]

theorem get?_insert (known : Channels) (s s' : Section) (type type' : String)
    (count : Option UInt32) : ((known.insert type count s).inSection s').get? type' =
      if s = s' ∧ type = type' then some count else (known.inSection s').get? type' := by
  cases s <;> cases s' <;> simp [insert, inSection, Dict.get?_insert, eq_comm]

end Entering

theorem exists_under_iff {lines : List String} :
    (∃ s, Under lines s) ↔ ∃ earlier ∈ lines, IsHeading earlier := by
  constructor
  · rintro ⟨s, before, heading, after, rfl, hheading, -⟩
    exact ⟨heading, by simp, s, hheading⟩
  · induction lines using List.reverseRecOn with
    | nil => simp
    | append_singleton lines line ih =>
      rintro ⟨earlier, hm, hearlier⟩
      by_cases hline : IsHeading line
      · obtain ⟨s, hs⟩ := hline
        exact ⟨s, (under_concat_of_heading hs s).2 rfl⟩
      · rcases List.mem_append.1 hm with hm | hm
        · obtain ⟨s, hs⟩ := ih ⟨earlier, hm, hearlier⟩
          exact ⟨s, (under_concat_of_not_isHeading hline s).2 hs⟩
        · exact absurd (List.mem_singleton.1 hm ▸ hearlier) hline

namespace Reads

variable {lines : List String} {line : String} {known : Channels} {open? : Option Section}

theorem nil : Reads [] none .none where
  fits place line h := by simp at h
  opened s := by simp [Under]
  counts s type count := by
    have hnone : (none.inSection s).get? type = .none := by cases s <;> rfl
    simp [hnone, IsLast, EntersAt]

theorem fits_concat (h : Reads lines known open?) (hline : Follows lines line) (place : Nat)
    (line' : String) (hm : (lines ++ [line])[place]? = some line') :
    Follows ((lines ++ [line]).take place) line' := by
  rcases getElem?_concat.1 hm with hm | ⟨rfl, rfl⟩
  · rw [take_concat _ (le_of_getElem? hm)]
    exact h.fits place line' hm
  · rw [take_concat _ le_rfl, List.take_length]
    exact hline

/-- Nothing changes with a blank line. -/
theorem blank (h : Reads lines known open?) (hline : Text.trim line = "") :
    Reads (lines ++ [line]) known open? where
  fits := h.fits_concat (.inl hline)
  opened s := by
    rw [under_concat_of_not_isHeading (not_isHeading_of_blank hline), h.opened]
  counts s type count := by
    rw [isLast_concat_of_not_enters (not_enters_of_blank hline), h.counts]

/-- A heading opens its section. -/
theorem heading (h : Reads lines known open?) {s : Section} (hline : Text.trim line = s.heading) :
    Reads (lines ++ [line]) known (some s) where
  fits := h.fits_concat (.inr (.inl ⟨s, hline⟩))
  opened s' := by rw [under_concat_of_heading hline, Option.some_inj]
  counts s' type count := by
    rw [isLast_concat_of_not_enters (not_enters_of_isHeading ⟨s, hline⟩), h.counts]

/-- A count is entered into the section at hand. -/
theorem count {s : Section} (h : Reads lines known (some s)) {key : String}
    {count : Option UInt32} (hline : Enters line key count) :
    Reads (lines ++ [line]) (known.insert (Text.lower key) count s) (some s) where
  fits := by
    have hopened : ∃ earlier ∈ lines, IsHeading earlier :=
      exists_under_iff.1 ⟨s, (h.opened s).1 rfl⟩
    exact h.fits_concat (.inr (.inr ⟨⟨key, count, hline⟩, hopened⟩))
  opened s' := by
    rw [under_concat_of_not_isHeading fun hh => not_enters_of_isHeading hh key count hline,
      h.opened]
  counts s' type count' := by
    have hunder : ∀ s', Under lines s' ↔ s = s' := by
      intro s'
      rw [← h.opened, Option.some_inj]
    rw [get?_insert]
    split
    · rename_i hsame
      obtain ⟨rfl, rfl⟩ := hsame
      rw [isLast_concat_self ((hunder s).2 rfl) hline, Option.some_inj, eq_comm]
    · rename_i hne
      rw [isLast_concat_of_ne hunder hline hne, h.counts]

end Reads

/-- What a line does: nothing if it is blank, it opens a section, it enters a count, or it ends the
reading. -/
theorem readLines_cons (known : Channels) (open? : Option Section) (line : String)
    (rest : List String) :
    (Text.trim line = "" ∧ readLines known open? (line :: rest) = readLines known open? rest) ∨
    (∃ s : Section, Text.trim line = s.heading ∧
      readLines known open? (line :: rest) = readLines known (some s) rest) ∨
    (∃ s key count, open? = some s ∧ Enters line key count ∧
      readLines known open? (line :: rest) =
        readLines (known.insert (Text.lower key) count s) open? rest) ∨
    (Text.trim line ≠ "" ∧ ¬IsHeading line ∧ ∃ text,
      readLines known open? (line :: rest) = .error (.parse text) ∧
      ∀ before, (open? = .none → ∀ earlier ∈ before, ¬IsHeading earlier) →
        Complaint before line text) := by
  rw [readLines]
  by_cases hblank : Text.trim line = ""
  · exact .inl ⟨hblank, if_pos (by simp [hblank])⟩
  · rw [if_neg (by simpa using hblank)]
    cases hheading : heading? (Text.trim line) with
    | some s => exact .inr (.inl ⟨s, heading?_eq_some_iff.1 hheading, rfl⟩)
    | none =>
      have hnot : ¬IsHeading line := by
        rintro ⟨s, hs⟩
        rw [heading?_eq_some_iff.2 hs] at hheading
        cases hheading
      cases hread : KeyValue.ofLine? line with
      | none => exact .inr (.inr (.inr ⟨hblank, hnot, _, rfl, fun _ _ => .entry hread⟩))
      | some entry =>
        obtain ⟨key, value⟩ := entry
        dsimp only
        cases hcount : count? value with
        | none =>
          refine .inr (.inr (.inr ⟨hblank, hnot, _, rfl, fun _ _ => .count hread ?_⟩))
          intro count htells
          rw [count?_eq_some_iff.2 htells] at hcount
          cases hcount
        | some count =>
          have henters : Enters line key count := ⟨value, hread, count?_eq_some_iff.1 hcount⟩
          cases open? with
          | none =>
            exact .inr (.inr (.inr ⟨hblank, hnot, _, rfl, fun _ hbefore =>
              .outside henters (hbefore rfl)⟩))
          | some s => exact .inr (.inr (.inl ⟨s, key, count, rfl, henters, rfl⟩))

/-- A line that enters something in vain is not one that fits. -/
theorem Complaint.not_enters {before : List String} {line text : String}
    (h : Complaint before line text) :
    ¬((∃ key count, Enters line key count) ∧ ∃ earlier ∈ before, IsHeading earlier) := by
  rintro ⟨⟨key, count, value, hread, htells⟩, earlier, hm, hearlier⟩
  cases h with
  | entry h => simp [h] at hread
  | count h hvalue =>
    rw [h] at hread
    cases hread
    exact hvalue count htells
  | outside _ hbefore => exact hbefore earlier hm hearlier

theorem FirstUnfit.unique {lines : List String} {place place' : Nat} {line line' : String}
    (h : FirstUnfit lines place line) (h' : FirstUnfit lines place' line') :
    place = place' ∧ line = line' := by
  obtain ⟨hline, hunfit, hbefore⟩ := h
  obtain ⟨hline', hunfit', hbefore'⟩ := h'
  rcases Nat.lt_trichotomy place place' with hlt | rfl | hgt
  · exact absurd (hbefore' place hlt line hline) hunfit
  · rw [hline] at hline'
    exact ⟨rfl, Option.some.inj hline'⟩
  · exact absurd (hbefore place' hgt line' hline') hunfit'

/-- Either all lines are read, or the first that does not fit is complained of. -/
theorem readLines_spec {before : List String} {known : Channels} {open? : Option Section}
    (h : Reads before known open?) (rest : List String) :
    (∃ c open?', readLines known open? rest = .ok c ∧ Reads (before ++ rest) c open?') ∨
    ∃ place line text, FirstUnfit (before ++ rest) place line ∧
      Complaint ((before ++ rest).take place) line text ∧
      readLines known open? rest = .error (.parse text) := by
  induction rest generalizing before known open? with
  | nil => exact .inl ⟨known, open?, rfl, by simpa using h⟩
  | cons line rest ih =>
    have hsplit : before ++ line :: rest = (before ++ [line]) ++ rest := by simp
    rcases readLines_cons known open? line rest with ⟨hline, hread⟩ | ⟨s, hline, hread⟩ |
      ⟨s, key, count, rfl, hline, hread⟩ | ⟨hblank, hheading, text, hread, hcomplaint⟩
    · rw [hsplit, hread]
      exact ih (h.blank hline)
    · rw [hsplit, hread]
      exact ih (h.heading hline)
    · rw [hsplit, hread]
      exact ih (h.count hline)
    · have hbefore : open? = .none → ∀ earlier ∈ before, ¬IsHeading earlier := by
        rintro rfl earlier hm hearlier
        obtain ⟨s, hs⟩ := exists_under_iff.2 ⟨earlier, hm, hearlier⟩
        exact absurd ((h.opened s).2 hs) (by simp)
      have htext := hcomplaint before hbefore
      have htake : (before ++ line :: rest).take before.length = before := by simp
      refine .inr ⟨before.length, line, text, ⟨by simp, ?_, ?_⟩, by rwa [htake], hread⟩
      · rw [htake]
        rintro (hb | hh | he)
        · exact hblank hb
        · exact hheading hh
        · exact htext.not_enters he
      · intro place' hlt line' hline'
        rw [List.getElem?_append_left hlt] at hline'
        rw [List.take_append_of_le_length hlt.le]
        exact h.fits place' line' hline'

/-! ## Printed dictionaries -/

def countText : Option UInt32 → String
  | .none => "n/a"
  | some n => toString n

theorem isWord_countText (count : Option UInt32) : IsWord (countText count) := by
  cases count with
  | none => decide
  | some n => exact Text.isWord_repr n.toNat

theorem tells_countText (count : Option UInt32) : Tells (countText count) count := by
  cases count with
  | none => exact .lacking
  | some n => exact .number (Numeral.uint32?_eq_some_iff.1 (Numeral.uint32?_toString n))

theorem readLines_of_heading {line : String} {s : Section} (h : Text.trim line = s.heading)
    (known : Channels) (open? : Option Section) (rest : List String) :
    readLines known open? (line :: rest) = readLines known (some s) rest := by
  have hne : ¬(Text.trim line).isEmpty = true := by
    rw [h]
    cases s <;> decide
  rw [readLines, if_neg hne, heading?_eq_some_iff.2 h]

theorem readLines_of_enters {line key : String} {count : Option UInt32}
    (h : Enters line key count) (known : Channels) (s : Section) (rest : List String) :
    readLines known (some s) (line :: rest) =
      readLines (known.insert (Text.lower key) count s) (some s) rest := by
  rcases readLines_cons known (some s) line rest with ⟨hline, -⟩ | ⟨s', hline, -⟩ |
    ⟨s', key', count', hs, h', hread⟩ | ⟨-, -, text, -, hcomplaint⟩
  · exact absurd h (not_enters_of_blank hline key count)
  · exact absurd h (not_enters_of_isHeading ⟨s', hline⟩ key count)
  · cases hs
    obtain ⟨rfl, rfl⟩ := h.unique h'
    exact hread
  · have hheading : IsHeading s.heading := ⟨s, by cases s <;> decide⟩
    exact absurd ⟨⟨key, count, h⟩, s.heading, by simp, hheading⟩
      (hcomplaint [s.heading] nofun).not_enters

/-- The rows of a section are entered one after the other. -/
theorem readLines_rows {ι : Type} {label gap type : ι → String} (count : ι → Option UInt32)
    {l : List ι} (h : ∀ i ∈ l, KeyValue.IsKey (label i) ∧ IsGap (gap i) ∧
      Text.lower (label i) = type i) (known : Channels) (s : Section) (rest : List String) :
    readLines known (some s)
        (l.map (fun i => KeyValue.line "" (label i) (gap i) (countText (count i))) ++ rest) =
      readLines (l.foldl (fun c i => c.insert (type i) (count i) s) known) (some s) rest := by
  induction l generalizing known with
  | nil => rfl
  | cons i l ih =>
    obtain ⟨hkey, hgap, hlower⟩ := h i (by simp)
    have hpart := KeyValue.isPart_of_isWord (isWord_countText (count i))
    have henters : Enters (KeyValue.line "" (label i) (gap i) (countText (count i))) (label i)
        (count i) :=
      ⟨countText (count i), KeyValue.ofLine?_line (by decide) hkey hgap hpart,
        tells_countText (count i)⟩
    rw [List.map_cons, List.cons_append, readLines_of_enters henters, hlower,
      ih fun j hj => h j (by simp [hj])]
    rfl

theorem inSection_foldl_insert (l : List (String × Option UInt32)) (s s' : Section)
    (known : Channels) : (l.foldl (fun c e => c.insert e.1 e.2 s) known).inSection s' =
      if s = s' then l.foldl (fun d e => d.insert e.1 e.2) (known.inSection s')
      else known.inSection s' := by
  induction l generalizing known with
  | nil => simp
  | cons e l ih =>
    rw [List.foldl_cons, ih]
    cases s <;> cases s' <;> rfl

theorem ext_inSection {c c' : Channels} (h : ∀ s, c.inSection s = c'.inSection s) : c = c' := by
  obtain ⟨maximums, current⟩ := c
  obtain ⟨maximums', current'⟩ := c'
  obtain rfl : maximums = maximums' := h .maximums
  obtain rfl : current = current' := h .current
  rfl

/-- The counts of two sections in the layout of a report: a title, and in each section a row for
each type in any order, with a label that gives the type in lower case, such as the type itself. -/
structure Layout where
  title : String
  channels : Channels
  rows : Section → List (String × Option UInt32)
  label : String → String
  gap : String → String
  isLine_title : '\n' ∉ title.toList
  perm : ∀ s, (rows s).Perm (channels.inSection s).entries
  isKey_label : ∀ s, ∀ type ∈ (channels.inSection s).keys, KeyValue.IsKey (label type)
  lower_label : ∀ s, ∀ type ∈ (channels.inSection s).keys, Text.lower (label type) = type
  isGap : ∀ type, IsGap (gap type)

namespace Layout

def row (p : Layout) (e : String × Option UInt32) : String :=
  KeyValue.line "" (p.label e.1) (p.gap e.1) (countText e.2)

/-- The lines of a section. -/
def lines (p : Layout) (s : Section) : List String := s.heading :: (p.rows s).map p.row

def text (p : Layout) : String := Text.ofLines (p.title :: (p.lines .maximums ++ p.lines .current))

variable (p : Layout)

theorem mem_keys_of_mem_rows {s : Section} {e : String × Option UInt32} (h : e ∈ p.rows s) :
    e.1 ∈ (p.channels.inSection s).keys := List.mem_map_of_mem ((p.perm s).mem_iff.1 h)

theorem readLines_lines (known : Channels) (open? : Option Section) (s : Section)
    (rest : List String) : readLines known open? (p.lines s ++ rest) =
      readLines ((p.rows s).foldl (fun c e => c.insert e.1 e.2 s) known) (some s) rest := by
  have hheading : Text.trim s.heading = s.heading := by cases s <;> decide
  have hrows : ∀ e ∈ p.rows s, KeyValue.IsKey (p.label e.1) ∧ IsGap (p.gap e.1) ∧
      Text.lower (p.label e.1) = e.1 := by
    intro e he
    have hkey := p.mem_keys_of_mem_rows he
    exact ⟨p.isKey_label s e.1 hkey, p.isGap e.1, p.lower_label s e.1 hkey⟩
  unfold lines
  rw [List.cons_append, readLines_of_heading hheading]
  exact readLines_rows Prod.snd hrows known s rest

theorem isLine_lines (s : Section) : ∀ line ∈ p.lines s, IsLine line := by
  unfold lines
  rw [List.forall_mem_cons, List.forall_mem_map]
  constructor
  · cases s <;> decide
  · intro e he
    exact KeyValue.isLine_line (by decide) (p.isKey_label s e.1 (p.mem_keys_of_mem_rows he))
      (p.isGap e.1) (KeyValue.isPart_of_isWord (isWord_countText e.2))

theorem lines_text : (Text.lines p.text).drop 1 = p.lines .maximums ++ p.lines .current := by
  have hlines : ∀ line ∈ p.lines .maximums ++ p.lines .current, IsLine line :=
    List.forall_mem_append.2 ⟨p.isLine_lines .maximums, p.isLine_lines .current⟩
  unfold text
  rw [Text.drop_lines_ofLines p.isLine_title, Text.lines_ofLines hlines]

/-- What is printed in the layout is read back. -/
theorem read_text : read p.text = .ok p.channels := by
  have hread : readLines none .none (p.lines .maximums ++ p.lines .current) =
      .ok ((p.rows .current).foldl (fun c e => c.insert e.1 e.2 .current)
        ((p.rows .maximums).foldl (fun c e => c.insert e.1 e.2 .maximums) none)) := by
    have hcurrent := p.readLines_lines
      ((p.rows .maximums).foldl (fun c e => c.insert e.1 e.2 .maximums) none) (some .maximums)
      .current []
    rw [List.append_nil] at hcurrent
    rw [p.readLines_lines, hcurrent]
    rfl
  unfold read
  rw [p.lines_text, hread]
  apply congrArg Except.ok
  apply ext_inSection
  intro s
  rw [inSection_foldl_insert, inSection_foldl_insert]
  cases s with
  | maximums => exact Dict.ofList_of_perm (p.perm .maximums)
  | current => exact Dict.ofList_of_perm (p.perm .current)

end Layout

/-- A report is read exactly if each line below its title fits. Each type then has, in each section,
the count of the last line that enters one for it, and no other type has a count. If a line does not
fit, the fault is about the first such line. So what is printed in the layout of a report is read
back. -/
theorem read_accounts_for_lines :
    (∀ output, let lines := (Text.lines output).drop 1
      ((∃ c, read output = .ok c) ↔
        ∀ place line, lines[place]? = some line → Follows (lines.take place) line) ∧
      (∀ c, read output = .ok c → ∀ s type count,
        (c.inSection s).get? type = some count ↔ IsLast lines s type count) ∧
      ∀ fault, read output = .error fault ↔ ∃ place line text, FirstUnfit lines place line ∧
        Complaint (lines.take place) line text ∧ fault = .parse text) ∧
    ∀ p : Layout, read p.text = .ok p.channels := by
  refine ⟨fun output => ?_, Layout.read_text⟩
  dsimp only
  have hread := readLines_spec .nil ((Text.lines output).drop 1)
  rw [List.nil_append, show readLines none .none ((Text.lines output).drop 1) = read output from
    rfl] at hread
  generalize (Text.lines output).drop 1 = lines at hread
  rcases hread with ⟨c, open?, hok, hreads⟩ | ⟨place, line, text, hunfit, htext, herror⟩
  · rw [hok]
    refine ⟨iff_of_true ⟨c, rfl⟩ hreads.fits, ?_, ?_⟩
    · rintro _ ⟨⟩
      exact hreads.counts
    · refine fun fault => iff_of_false nofun ?_
      rintro ⟨place, line, -, ⟨hline, hunfit, -⟩, -⟩
      exact hunfit (hreads.fits place line hline)
  · rw [herror]
    refine ⟨iff_of_false ?_ ?_, nofun, fun fault => ?_⟩
    · rintro ⟨c, hc⟩
      cases hc
    · exact fun hfits => hunfit.2.1 (hfits place line hunfit.1)
    · constructor
      · rintro ⟨⟩
        exact ⟨place, line, text, hunfit, htext, rfl⟩
      · rintro ⟨place', line', text', hunfit', htext', rfl⟩
        obtain ⟨rfl, rfl⟩ := hunfit.unique hunfit'
        rw [htext.unique htext']

/-- The counts of a device without queues for one direction only. -/
def sampleRows (combined : UInt32) : List (String × Option UInt32) :=
  [("rx", .none), ("tx", .none), ("other", some 1), ("combined", some combined)]

def sampleLayout : Layout where
  title := "Channel parameters for ens7f0:"
  channels := ⟨.ofList (sampleRows 32), .ofList (sampleRows 16)⟩
  rows
    | .maximums => sampleRows 32
    | .current => sampleRows 16
  label type :=
    if type = "rx" then "RX" else if type = "tx" then "TX" else if type = "other" then "Other"
    else "Combined"
  gap type := if type = "combined" then "\t" else "\t\t"
  isLine_title := by decide
  perm s := by cases s <;> decide +kernel
  isKey_label s := by cases s <;> decide +kernel
  lower_label s := by cases s <;> decide +kernel
  isGap type := by split <;> decide

/-- The layout is that of the tool, where the types are in capitals and in an order of their own. -/
theorem read_accounts_for_documented_layout :
    sampleLayout.text = "Channel parameters for ens7f0:\nPre-set maximums:\n" ++
      "RX:\t\tn/a\nTX:\t\tn/a\nOther:\t\t1\nCombined:\t32\n" ++
      "Current hardware settings:\n" ++
      "RX:\t\tn/a\nTX:\t\tn/a\nOther:\t\t1\nCombined:\t16\n" ∧
    read sampleLayout.text = .ok ⟨.ofList (sampleRows 32), .ofList (sampleRows 16)⟩ :=
  ⟨by decide +kernel, read_accounts_for_lines.2 sampleLayout⟩

end NicTuning.Report.Channels
