import Mathlib.Data.List.Infix
import NicTuning.Proofs.KeyValues
import NicTuning.Proofs.Numerals
import NicTuning.Report.Machine

/-!
# Rows of the interrupt table

A row is searched for a word from left to right, and the search goes on behind an occurrence without
its boundaries. What is passed over that way can only be an occurrence that overlaps the one before,
so nothing is lost for a word that does not run into itself.

Main statement: the rows that are found mention the device, and for words that do not run into
themselves these are all such rows, of which the numbers are given in order. A word that runs into
itself is missed on some line.
-/
namespace NicTuning.Report.Interrupts

/-! ## Words on a line -/

/-- What may come before a bus address: a blank or a colon. -/
def leadsBus (c : Char) : Bool := Text.isBlank c || c == ':'

/-- The word is not empty and stands somewhere on the line between its boundaries: the beginning of
the line or a character that may lead, and the end of the line or a character that may follow. -/
def Mentions (lead : Char → Bool) (word line : String) : Prop :=
  word ≠ "" ∧ ∃ before after, line.toList = before ++ word.toList ++ after ∧
    (∀ c ∈ before.getLast?, lead c = true) ∧ ∀ c ∈ after.head?, endsWord c = true

/-- The row mentions the name of the device or its bus address. -/
def Concerns (name : String) (bus : Option String) (line : String) : Prop :=
  Mentions Text.isBlank name line ∨ ∃ address ∈ bus, Mentions leadsBus address line

/-- The number that the row begins with, before its first colon. -/
def HasNumber (line : String) (n : UInt32) : Prop :=
  ∃ front rest, line = front ++ ":" ++ rest ∧ ':' ∉ front.toList ∧
    Numeral.Spells (Text.trim front).toList n.toNat

/-- The numbers of the rows that concern a device, in order. -/
inductive Lists (name : String) (bus : Option String) : List String → List UInt32 → Prop
  | nil : Lists name bus [] []
  | row {line : String} {n : UInt32} {rest : List String} {ns : List UInt32}
    (concerns : Concerns name bus line) (number : HasNumber line n)
    (more : Lists name bus rest ns) : Lists name bus (line :: rest) (n :: ns)
  | other {line : String} {rest : List String} {ns : List UInt32}
    (irrelevant : ¬(Concerns name bus line ∧ ∃ n, HasNumber line n))
    (more : Lists name bus rest ns) : Lists name bus (line :: rest) ns

/-- Behind a character that may lead, the rest of the word is its own beginning. -/
def RunsIntoItself (lead : Char → Bool) (word : String) : Prop :=
  ∃ front c rest, word.toList = front ++ c :: rest ∧ lead c = true ∧ rest ≠ [] ∧
    rest <+: word.toList

/-- Neither the name nor the bus address runs into itself. -/
def Clear (name : String) (bus : Option String) : Prop :=
  ¬RunsIntoItself Text.isBlank name ∧ ∀ address ∈ bus, ¬RunsIntoItself leadsBus address

/-- The suffixes of a word are all there is to look at. -/
theorem runsIntoItself_iff {lead : Char → Bool} {word : String} : RunsIntoItself lead word ↔
    ∃ behind ∈ word.toList.tails, behind.head?.any lead = true ∧ behind.tail ≠ [] ∧
      behind.tail <+: word.toList := by
  simp only [RunsIntoItself, List.mem_tails]
  constructor
  · rintro ⟨front, c, rest, hword, hc, hrest, hself⟩
    exact ⟨c :: rest, ⟨front, hword.symm⟩, by simpa using hc, hrest, hself⟩
  · rintro ⟨behind, ⟨front, hword⟩, hlead, hrest, hself⟩
    cases behind with
    | nil => exact absurd rfl hrest
    | cons c rest => exact ⟨front, c, rest, hword.symm, by simpa using hlead, hrest, hself⟩

instance (lead : Char → Bool) (word : String) : Decidable (RunsIntoItself lead word) :=
  decidable_of_iff _ runsIntoItself_iff.symm

theorem number?_eq_some_iff {line : String} {n : UInt32} :
    number? line = some n ↔ HasNumber line n := by
  have hnumber : ∀ {before : List Char}, Numeral.uint32? (String.ofList (Text.trimChars before)) =
      some n ↔ Numeral.Spells (Text.trim (String.ofList before)).toList n.toNat := by
    intro before
    rw [Numeral.uint32?_eq_some_iff, Text.trim, String.toList_ofList, String.toList_ofList,
      String.toList_ofList]
  unfold number? HasNumber
  dsimp only
  constructor
  · intro h
    split at h
    · rename_i hmem
      obtain ⟨before, after, hline, hcolon⟩ :=
        List.eq_append_cons_of_mem (List.contains_iff_mem.1 hmem)
      rw [hline, Text.takeWhile_bne hcolon] at h
      refine ⟨String.ofList before, String.ofList after, ?_, by simpa using hcolon, hnumber.1 h⟩
      apply String.toList_injective
      simp [hline]
    · cases h
  · rintro ⟨front, rest, rfl, hcolon, hspells⟩
    have hline : (front ++ ":" ++ rest).toList = front.toList ++ ':' :: rest.toList := by simp
    rw [hline, if_pos (by simp), Text.takeWhile_bne hcolon]
    exact hnumber.2 (by rwa [String.ofList_toList])

variable {lead : Char → Bool} {word : List Char}

/-- What is found is an occurrence between its boundaries, behind the characters to be skipped. -/
theorem exists_of_mentionsFrom (seen : List Char) {cs : List Char} {skip : Nat}
    (h : mentionsFrom lead word seen.getLast? skip cs = true) :
    ∃ before after, cs = before ++ word ++ after ∧ skip ≤ before.length ∧
      (∀ c ∈ (seen ++ before).getLast?, lead c = true) ∧ ∀ c ∈ after.head?, endsWord c = true := by
  induction cs generalizing seen skip with
  | nil => cases h
  | cons c cs ih =>
    have hlast : some c = (seen ++ [c]).getLast? := by simp
    have later : ∀ {skip}, mentionsFrom lead word (some c) skip cs = true →
        ∃ before after, c :: cs = before ++ word ++ after ∧ skip + 1 ≤ before.length ∧
          (∀ c ∈ (seen ++ before).getLast?, lead c = true) ∧
          ∀ c ∈ after.head?, endsWord c = true := by
      intro skip hm
      rw [hlast] at hm
      obtain ⟨before, after, rfl, hskip, hbefore, hafter⟩ := ih _ hm
      exact ⟨c :: before, after, rfl, by simpa using hskip, by simpa using hbefore, hafter⟩
    unfold mentionsFrom at h
    cases skip with
    | succ skip => exact later h
    | zero =>
      dsimp only at h
      split at h
      · rename_i hprefix
        rcases Bool.or_eq_true_iff.1 h with h | h
        · obtain ⟨after, hafter⟩ := List.isPrefixOf_iff_prefix.1 hprefix
          obtain ⟨hbefore, hends⟩ := Bool.and_eq_true_iff.1 h
          rw [← hafter, List.drop_left] at hends
          rw [Option.all_eq_true] at hbefore hends
          exact ⟨[], after, hafter.symm, Nat.zero_le _, by simpa using hbefore, hends⟩
        · obtain ⟨before, after, hcs, -, hbounds⟩ := later h
          exact ⟨before, after, hcs, Nat.zero_le _, hbounds⟩
      · obtain ⟨before, after, hcs, -, hbounds⟩ := later h
        exact ⟨before, after, hcs, Nat.zero_le _, hbounds⟩

/-- Two occurrences of a word overlap only if its end, behind what precedes the second, is its
beginning. -/
theorem prefix_of_overlap {before after : List Char} (hfirst : word <+: before ++ word ++ after)
    (hshort : before.length < word.length) :
    ∃ rest, word = before ++ rest ∧ rest ≠ [] ∧ rest <+: word := by
  obtain ⟨rest, hrest⟩ : before <+: word :=
    List.prefix_of_prefix_length_le (by rw [List.append_assoc]; exact List.prefix_append _ _)
      hfirst hshort.le
  have hlength : before.length + rest.length = word.length := by
    rw [← hrest, List.length_append]
  refine ⟨rest, hrest.symm, ?_, ?_⟩
  · rintro rfl
    simp at hlength
    omega
  · have hbehind : before ++ rest <+: before ++ (word ++ after) := by
      rw [hrest, ← List.append_assoc]
      exact hfirst
    exact List.prefix_of_prefix_length_le ((List.prefix_append_right_inj before).1 hbehind)
      (List.prefix_append word after) (by omega)

/-- An occurrence between its boundaries is found, unless the word can overlap itself behind a
character that may lead. -/
theorem mentionsFrom_of_exists (seen : List Char)
    (hclear : ∀ front c rest, word = front ++ c :: rest → lead c = true → rest ≠ [] →
      ¬rest <+: word) {cs before after : List Char} {skip : Nat} (hne : word ≠ [])
    (hcs : cs = before ++ word ++ after) (hskip : skip ≤ before.length)
    (hbefore : ∀ c ∈ (seen ++ before).getLast?, lead c = true)
    (hafter : ∀ c ∈ after.head?, endsWord c = true) :
    mentionsFrom lead word seen.getLast? skip cs = true := by
  induction cs generalizing before seen skip with
  | nil => simp [hne] at hcs
  | cons c cs ih =>
    -- The search goes on to the occurrence if it does not begin here.
    have later : ∀ {skip}, skip + 1 ≤ before.length →
        mentionsFrom lead word (some c) skip cs = true := by
      intro skip hskip
      rcases before with - | ⟨first, before⟩
      · simp at hskip
      · cases hcs
        have hm : mentionsFrom lead word (seen ++ [c]).getLast? skip (before ++ word ++ after) =
            true := ih _ rfl (by simpa using hskip) (by simpa using hbefore)
        simpa using hm
    unfold mentionsFrom
    cases skip with
    | succ skip => exact later hskip
    | zero =>
      dsimp only
      by_cases hempty : before = []
      · subst hempty
        have hprefix : word.isPrefixOf (c :: cs) = true := by
          rw [List.isPrefixOf_iff_prefix, hcs]
          exact List.prefix_append _ _
        have hdrop : (c :: cs).drop word.length = after := by
          rw [hcs, List.nil_append, List.drop_left]
        rw [if_pos hprefix, hdrop, (Option.all_eq_true lead _).2 (by simpa using hbefore),
          (Option.all_eq_true endsWord _).2 hafter]
        rfl
      · have hpos : 0 + 1 ≤ before.length := List.length_pos_of_ne_nil hempty
        split
        · rename_i hprefix
          rw [later, Bool.or_true]
          rw [List.isPrefixOf_iff_prefix, hcs] at hprefix
          by_contra hshort
          obtain ⟨rest, hword, hrest, hself⟩ := prefix_of_overlap hprefix (by omega)
          have hlast := List.dropLast_append_getLast hempty
          rw [← hlast, List.append_assoc] at hword
          refine hclear _ _ rest hword (hbefore _ ?_) hrest hself
          rw [List.getLast?_append, List.getLast?_eq_some_getLast hempty]
          rfl
        · exact later hpos

/-- A word that runs into itself is missed where it comes behind itself and cannot come first. -/
theorem not_mentionsFrom_of_run {front rest : List Char} {c x : Char}
    (hword : word = front ++ c :: rest) (hrest : rest ≠ []) (hself : rest <+: word)
    (hx : lead x = false) (hhead : word.head? ≠ some x) :
    mentionsFrom lead word none 0 (x :: (front ++ [c] ++ word)) = false := by
  have hlength : word.length = front.length + 1 + rest.length := by
    rw [hword, List.length_append, List.length_cons]
    omega
  have hpos : 0 < rest.length := List.length_pos_of_ne_nil hrest
  obtain ⟨d, ds, hds⟩ : ∃ d ds, front ++ [c] ++ word = d :: ds :=
    List.exists_cons_of_ne_nil (by simp)
  have hfirst : ¬word.isPrefixOf (x :: d :: ds) = true := by
    rw [List.isPrefixOf_iff_prefix]
    rintro ⟨more, hmore⟩
    cases hw : word with
    | nil =>
      rw [hw, List.length_nil] at hlength
      omega
    | cons w ws =>
      rw [hw, List.cons_append, List.cons.injEq] at hmore
      exact hhead (by rw [hw, hmore.1]; rfl)
  have hsecond : word.isPrefixOf (d :: ds) = true := by
    obtain ⟨more, hmore⟩ := hself
    refine List.isPrefixOf_iff_prefix.2 ⟨more, ?_⟩
    calc word ++ more = front ++ [c] ++ (rest ++ more) := by rw [hword]; simp
      _ = d :: ds := by rw [hmore, hds]
  have hrefused : (some x).all lead = false := hx
  -- What is left behind the first occurrence is too short for another one.
  have hshort : mentionsFrom lead word (some d) (word.length - 1) ds = false := by
    rw [Bool.eq_false_iff]
    intro hm
    obtain ⟨before, after, hafter, hskip, -⟩ := exists_of_mentionsFrom [d] hm
    have hlengths := congrArg List.length hds
    rw [hafter] at hlengths
    simp only [List.length_append, List.length_cons, List.length_nil] at hlengths
    omega
  rw [hds, mentionsFrom, if_neg hfirst, mentionsFrom, if_pos hsecond, hrefused, hshort]
  rfl

/-! ## Words as texts -/

section Words

variable {lead : Char → Bool} {word line : String}

theorem Mentions.of_mentions (h : mentions lead word line = true) : Mentions lead word line := by
  obtain ⟨hne, hm⟩ := Bool.and_eq_true_iff.1 h
  obtain ⟨before, after, hline, -, hbefore, hafter⟩ := exists_of_mentionsFrom [] hm
  exact ⟨by simpa using hne, before, after, hline, hbefore, hafter⟩

theorem mentions_of_not_run (hclear : ¬RunsIntoItself lead word) (h : Mentions lead word line) :
    mentions lead word line = true := by
  obtain ⟨hne, before, after, hline, hbefore, hafter⟩ := h
  refine Bool.and_eq_true_iff.2 ⟨by simpa using hne, ?_⟩
  exact mentionsFrom_of_exists []
    (fun front c rest hword hc hrest hself => hclear ⟨front, c, rest, hword, hc, hrest, hself⟩)
    (by simpa using hne) hline (Nat.zero_le _) hbefore hafter

/-- Only a word that runs into itself is missed on some line. -/
theorem forall_mentions_iff {x y : Char} (hx : lead x = false) (hy : lead y = false)
    (hxy : x ≠ y) : (∀ line, mentions lead word line = true ↔ Mentions lead word line) ↔
      ¬RunsIntoItself lead word := by
  constructor
  · rintro h ⟨front, c, rest, hword, hc, hrest, hself⟩
    obtain ⟨z, hz, hhead⟩ : ∃ z, lead z = false ∧ word.toList.head? ≠ some z := by
      by_cases hhead : word.toList.head? = some x
      · exact ⟨y, hy, by simpa [hhead] using hxy⟩
      · exact ⟨x, hx, hhead⟩
    have hmissed := not_mentionsFrom_of_run hword hrest hself hz hhead
    have hfound : mentions lead word (String.ofList (z :: (front ++ [c] ++ word.toList))) = true := by
      refine (h _).2 ⟨?_, z :: front ++ [c], [], by simp, ?_, by simp⟩
      · rintro rfl
        simp at hword
      · rw [List.getLast?_concat]
        rintro _ ⟨⟩
        exact hc
    unfold mentions at hfound
    rw [String.toList_ofList, hmissed, Bool.and_false] at hfound
    cases hfound
  · exact fun hclear line => ⟨.of_mentions, mentions_of_not_run hclear⟩

/-- A word without the characters that may lead does not run into itself. -/
theorem not_runsIntoItself (h : word.toList.any lead = false) : ¬RunsIntoItself lead word := by
  rintro ⟨front, c, rest, hword, hc, -⟩
  have hmem : c ∈ word.toList := by
    rw [hword]
    simp
  exact List.any_eq_false.1 h c hmem hc

end Words

/-! ## Rows of a device -/

section Rows

variable {name : String} {bus : Option String}

theorem concerns_of_belongs {line : String} (h : belongs name bus line = true) :
    Concerns name bus line := by
  rcases Bool.or_eq_true_iff.1 h with h | h
  · exact .inl (.of_mentions h)
  · obtain ⟨address, haddress, hm⟩ := (Option.any_eq_true _ _).1 h
    exact .inr ⟨address, haddress, .of_mentions hm⟩

theorem belongs_of_clear (hclear : Clear name bus) {line : String} (h : Concerns name bus line) :
    belongs name bus line = true := by
  rcases h with h | ⟨address, haddress, h⟩
  · exact Bool.or_eq_true_iff.2 (.inl (mentions_of_not_run hclear.1 h))
  · refine Bool.or_eq_true_iff.2 (.inr ((Option.any_eq_true _ _).2 ⟨address, haddress, ?_⟩))
    exact mentions_of_not_run (hclear.2 address haddress) h

/-- Of the numbers to be listed the found rows give some, in order, and none is lost for clear
words. -/
theorem exists_lists (rows : List String) : ∃ ns, Lists name bus rows ns ∧
    ((rows.filter (belongs name bus)).filterMap number?).Sublist ns ∧
    (Clear name bus → (rows.filter (belongs name bus)).filterMap number? = ns) := by
  induction rows with
  | nil => exact ⟨[], .nil, .slnil, fun _ => rfl⟩
  | cons line rows ih =>
    obtain ⟨ns, hlists, hsub, heq⟩ := ih
    by_cases hrow : Concerns name bus line ∧ ∃ n, HasNumber line n
    · obtain ⟨hconcerns, n, hn⟩ := hrow
      refine ⟨n :: ns, .row hconcerns hn hlists, ?_, fun hclear => ?_⟩
      · by_cases hfound : belongs name bus line = true
        · rw [List.filter_cons_of_pos hfound,
            List.filterMap_cons_some (number?_eq_some_iff.2 hn)]
          exact hsub.cons_cons n
        · rw [List.filter_cons_of_neg hfound]
          exact hsub.cons n
      · rw [List.filter_cons_of_pos (belongs_of_clear hclear hconcerns),
          List.filterMap_cons_some (number?_eq_some_iff.2 hn), heq hclear]
    · have hskip : ((line :: rows).filter (belongs name bus)).filterMap number? =
          (rows.filter (belongs name bus)).filterMap number? := by
        by_cases hfound : belongs name bus line = true
        · have hnone : number? line = none := Option.eq_none_iff_forall_ne_some.2 fun n hn =>
            hrow ⟨concerns_of_belongs hfound, n, number?_eq_some_iff.1 hn⟩
          rw [List.filter_cons_of_pos hfound, List.filterMap_cons_none hnone]
        · rw [List.filter_cons_of_neg hfound]
      exact ⟨ns, .other hrow hlists, hskip ▸ hsub, fun hclear => hskip ▸ heq hclear⟩

end Rows

/-- The listed interrupts are those of rows that mention the device, in the order of the table. All
such rows are found if neither the name nor the bus address runs into itself, and a word is
recognised on every line that mentions it exactly if it does not run into itself. -/
theorem ofDevice_lists_rows (name : String) (bus : Option String) :
    (∀ table, ∃ ns, Lists name bus (Text.lines table) ns ∧
      (ofDevice table name bus).Sublist ns ∧
      (Clear name bus → ofDevice table name bus = ns)) ∧
    ((∀ line, mentions Text.isBlank name line = true ↔ Mentions Text.isBlank name line) ↔
      ¬RunsIntoItself Text.isBlank name) ∧
    ∀ address ∈ bus, ((∀ line, mentions leadsBus address line = true ↔
      Mentions leadsBus address line) ↔ ¬RunsIntoItself leadsBus address) := by
  refine ⟨fun table => exists_lists _, ?_, fun address _ => ?_⟩
  · exact forall_mentions_iff (x := 'x') (y := 'y') (by decide) (by decide) (by decide)
  · exact forall_mentions_iff (x := 'x') (y := 'y') (by decide) (by decide) (by decide)

/-- Words as they are in use are clear: the bus address of a card is found, and a longer address
that begins with it is not. -/
theorem ofDevice_lists_rows_of_card : Clear "eth9" (some "0000:3b:00.1") ∧
    ∃ ns, Lists "eth9" (some "0000:3b:00.1") (Text.lines
        ("10: 3 MSI eth9-TxRx-0\n" ++
         "13: 0 MSI mlx5@pci:0000:3b:00.1\n" ++
         "14: 0 MSI mlx5@pci:0000:3b:00.10\n" ++
         "NMI: 0 eth9\n")) ns ∧ ns = [10, 13] := by
  have hclear : Clear "eth9" (some "0000:3b:00.1") := by
    refine ⟨not_runsIntoItself (by decide +kernel), ?_⟩
    rintro _ ⟨⟩
    decide +kernel
  obtain ⟨ns, hlists, -, hall⟩ := (ofDevice_lists_rows _ _).1 _
  refine ⟨hclear, ns, hlists, (hall hclear).symm.trans ?_⟩
  decide +kernel

/-- The address `0:0` stands at the end of a row behind a colon and is missed there, because the row
has it two characters earlier as well, in a place where it may not begin. -/
theorem interrupt_missed_at_overlap :
    ¬Lists "x" (some "0:0") (Text.lines "45: 10:0:0\n")
      (ofDevice "45: 10:0:0\n" "x" (some "0:0")) := by
  have hlines : Text.lines "45: 10:0:0\n" = ["45: 10:0:0"] := by decide +kernel
  have hfound : ofDevice "45: 10:0:0\n" "x" (some "0:0") = [] :=
    List.isEmpty_iff.1 (by decide +kernel)
  rw [hlines, hfound]
  rintro (- | - | ⟨irrelevant, -⟩)
  refine irrelevant ⟨.inr ⟨"0:0", rfl, by decide, ?_⟩, 45, ?_⟩
  · exact ⟨"45: 10:".toList, [], by decide +kernel, by simp [leadsBus], by simp⟩
  · exact number?_eq_some_iff.1 (by decide +kernel)

end NicTuning.Report.Interrupts
