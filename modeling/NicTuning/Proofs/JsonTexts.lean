import NicTuning.Json.Reader
import NicTuning.Json.Writer
import NicTuning.Proofs.Numerals
import NicTuning.Proofs.Splitting
import Mathlib.Data.List.DropRight

/-!
# Reading back what was written

Main statement: the JSON text of a document is read as that document, whatever its layout and
whatever texts and numbers of 64 bits are in it. The reader takes a step for every character at
most, so the length of the text is as much fuel as it needs.
-/
namespace NicTuning

/-- The document is one that JSON spells exactly: its numbers are whole and fit 64 bits, its keys
are texts, and no more than `depth` containers stand in one another. -/
inductive Document.IsData : Nat → Document → Prop
  | null {depth} : IsData depth .null
  | flag {depth} (b : Bool) : IsData depth (.flag b)
  | integer {depth} {n : Int} (low : -(Nat.pow 2 63 : Nat) ≤ n) (high : n < UInt64.size) :
      IsData depth (.integer n)
  | text {depth} (s : String) : IsData depth (.text s)
  | list {depth items} (items_data : ∀ v ∈ items, IsData depth v) :
      IsData (depth + 1) (.list items)
  | map {depth entries} (keys_text : ∀ e ∈ entries, ∃ k, e.1 = .text k)
      (values_data : ∀ e ∈ entries, IsData depth e.2) : IsData (depth + 1) (.map entries)

namespace Json

/-! ## Space -/

theorem skipSpace_append {space : List Char} (h : ∀ c ∈ space, isSpace c = true)
    (cs : List Char) : skipSpace (space ++ cs) = skipSpace cs := by
  unfold skipSpace
  rw [List.dropWhile_append_of_pos h]

theorem skipSpace_cons {c : Char} (h : isSpace c = false) (cs : List Char) :
    skipSpace (c :: cs) = c :: cs := by
  simp [skipSpace, h]

theorem skipSpace_skipSpace (cs : List Char) : skipSpace (skipSpace cs) = skipSpace cs := by
  unfold skipSpace
  rw [List.dropWhile_idempotent]

theorem toList_pushn (c : Char) (n : Nat) :
    ("".pushn c n).toList = List.replicate n c := by
  induction n with
  | zero => rfl
  | succ n ih =>
    have hpush : "".pushn c (n + 1) = ("".pushn c n).push c := rfl
    rw [hpush, String.toList_push, ih, List.replicate_succ']

theorem isSpace_newline (depth : Nat) : ∀ c ∈ (newline depth).toList, isSpace c = true := by
  intro c hc
  unfold newline at hc
  rw [String.toList_append, toList_pushn] at hc
  rcases List.mem_append.mp hc with hc | hc
  · rw [List.mem_singleton.1 hc]
    decide
  · rw [List.eq_of_mem_replicate hc]
    decide

/-! ## Texts -/

/-- Four hexadecimal digits that are no half of a pair stand for one character. -/
theorem chars?_unicode {a b c d : Char} {n : Nat} (hn : hex4? a b c d = some n)
    (hl : isLeading n = false) (ht : isTrailing n = false) (rest : List Char) :
    chars? ('\\' :: 'u' :: a :: b :: c :: d :: rest) =
      (chars? rest).map fun p => (Char.ofNat n :: p.1, p.2) := by
  rw [Option.map_eq_bind]
  by_cases h : ∃ a' b' c' d' rest', rest = '\\' :: 'u' :: a' :: b' :: c' :: d' :: rest'
  · obtain ⟨a', b', c', d', rest', rfl⟩ := h
    rw [chars?.eq_3]
    simp only [hn, hl, ht, Option.bind_eq_bind, Option.bind_some, Bool.false_eq_true, if_false]
    rfl
  · rw [chars?.eq_4 _ _ _ _ _ fun a' b' c' d' rest' e => h ⟨a', b', c', d', rest', e⟩]
    simp only [hn, hl, ht, Option.bind_eq_bind, Option.bind_some, Bool.or_self,
      Bool.false_eq_true, if_false]
    rfl

theorem chars?_escaped {c x : Char} (hc : c ≠ 'u') (hx : escaped? c = some x)
    (rest : List Char) :
    chars? ('\\' :: c :: rest) = (chars? rest).map fun p => (x :: p.1, p.2) := by
  rw [chars?.eq_5 c rest (fun _ _ _ _ _ _ _ _ _ e => absurd e hc)
    (fun _ _ _ _ _ e => absurd e hc), hx, Option.map_eq_bind]
  rfl

theorem chars?_plain {c : Char} (hlow : ¬c.toNat < 0x20) (hquote : c ≠ '"') (hback : c ≠ '\\')
    (rest : List Char) : chars? (c :: rest) = (chars? rest).map fun p => (c :: p.1, p.2) := by
  rw [chars?.eq_6 c rest hquote (fun _ _ _ _ _ _ _ _ _ e => absurd e hback)
    (fun _ _ _ _ _ e => absurd e hback) (fun _ _ e => absurd e hback)]
  simp [hlow, hback]

/-- Whatever way a character is written in a text, it is read as itself. -/
theorem chars?_escape (c : Char) (rest : List Char) :
    chars? ((escape c).toList ++ rest) = (chars? rest).map fun p => (c :: p.1, p.2) := by
  have hcontrol : ∀ n < 0x20, hex4? '0' '0' (Nat.digitChar (n / 16)) (Nat.digitChar (n % 16)) =
      some n := by decide
  unfold escape
  split
  · exact chars?_escaped (by decide) (by decide) rest
  · exact chars?_escaped (by decide) (by decide) rest
  · exact chars?_escaped (by decide) (by decide) rest
  · exact chars?_escaped (by decide) (by decide) rest
  · exact chars?_escaped (by decide) (by decide) rest
  · exact chars?_escaped (by decide) (by decide) rest
  · exact chars?_escaped (by decide) (by decide) rest
  · rename_i hquote hback _ _ _ _ _
    split
    · rename_i hlow
      have hchar := chars?_unicode (hcontrol c.toNat hlow) (by simp [isLeading]; omega)
        (by simp [isTrailing]; omega) rest
      rw [Char.ofNat_toNat] at hchar
      simpa [hex2] using hchar
    · rename_i hlow
      simpa using chars?_plain hlow hquote hback rest

/-- A text between its quotes is read as itself. -/
theorem text?_quote (s : String) (rest : List Char) :
    ∃ cs, (quote s).toList ++ rest = '"' :: cs ∧ text? cs = some (s, rest) := by
  have hchars : ∀ cs : List Char,
      chars? (cs.flatMap (fun c => (escape c).toList) ++ '"' :: rest) = some (cs, rest) := by
    intro cs
    induction cs with
    | nil => simp [chars?]
    | cons c cs ih =>
      rw [List.flatMap_cons, List.append_assoc, chars?_escape, ih]
      rfl
  exists s.toList.flatMap (fun c => (escape c).toList) ++ '"' :: rest
  constructor
  · simp [quote, List.flatMap_map]
  · simp [text?, hchars]

/-! ## Numbers -/

/-- What follows a number does not go on with it. -/
def EndsNumber (rest : List Char) : Prop :=
  ∀ c ∈ rest.head?, c.isDigit = false ∧ c ≠ '.' ∧ c ≠ 'e' ∧ c ≠ 'E'

theorem endsNumber_nil : EndsNumber [] := by
  intro c hc
  cases hc

theorem endsNumber_cons {c : Char} {rest : List Char}
    (h : c.isDigit = false ∧ c ≠ '.' ∧ c ≠ 'e' ∧ c ≠ 'E') : EndsNumber (c :: rest) := by
  intro x hx
  cases hx
  exact h

/-- Digits whose number fits 64 bits are all taken in. -/
theorem foldl_pushWhole {cs : List Char} {v : Nat}
    (h : cs.foldl (fun n c => 10 * n + (c.toNat - 48)) v < Significand.limit) :
    cs.foldl Significand.pushWhole ⟨v, 0, false⟩ =
      ⟨cs.foldl (fun n c => 10 * n + (c.toNat - 48)) v, 0, false⟩ := by
  induction cs generalizing v with
  | nil => rfl
  | cons c cs ih =>
    have hgrows : ∀ (cs : List Char) (v : Nat),
        v ≤ cs.foldl (fun n c => 10 * n + (c.toNat - 48)) v := by
      intro cs
      induction cs with
      | nil => intro v; rfl
      | cons c cs ih =>
        intro v
        have hstep := ih (10 * v + (c.toNat - 48))
        rw [List.foldl_cons]
        omega
    have hfits : 10 * v + (c.toNat - 48) < Significand.limit :=
      Nat.lt_of_le_of_lt (hgrows cs _) h
    rw [List.foldl_cons, List.foldl_cons, ← ih h]
    simp [Significand.pushWhole, hfits]

theorem takeWhile_isDigit {digits rest : List Char} (hd : ∀ c ∈ digits, c.isDigit = true)
    (hr : EndsNumber rest) : (digits ++ rest).takeWhile Char.isDigit = digits ∧
      (digits ++ rest).dropWhile Char.isDigit = rest := by
  exact Text.takeWhile_dropWhile_eq_iff.2 ⟨rfl, hd, fun c hc => (hr c hc).1⟩

/-- The digits of a number that fits 64 bits are read as that number. -/
theorem number?_toDigits (negative : Bool) {n : Nat} (hn : n < UInt64.size) {rest : List Char}
    (hr : EndsNumber rest) :
    number? negative (Nat.toDigits 10 n ++ rest) = some (wholeNumber negative n, rest) := by
  obtain ⟨htake, hdrop⟩ := takeWhile_isDigit (Numeral.isDigit_toDigits n) hr
  have hvalue : (Nat.toDigits 10 n).foldl Significand.pushWhole ⟨0, 0, false⟩ = ⟨n, 0, false⟩ := by
    have hfold := Numeral.value_toDigits n
    unfold Numeral.value at hfold
    rw [foldl_pushWhole (by rw [hfold]; exact hn), hfold]
  have hzero : (Nat.toDigits 10 n).head? = some '0' → (Nat.toDigits 10 n).length = 1 := by
    intro h
    rw [Numeral.head_toDigits h]
    rfl
  unfold number?
  simp only [htake, hdrop, hvalue]
  have hne : (Nat.toDigits 10 n).isEmpty = false := by simp
  have hlead : ((Nat.toDigits 10 n).head? == some '0' &&
      decide (1 < (Nat.toDigits 10 n).length)) = false := by
    by_cases h : (Nat.toDigits 10 n).head? = some '0'
    · simp [hzero h]
    · simp [h]
  simp only [hne, hlead, Bool.or_self, Bool.false_eq_true, if_false]
  cases rest with
  | nil => simp [startsExponent]
  | cons c rest =>
    obtain ⟨-, hdot, he, hE⟩ := hr c rfl
    split
    · simp_all
    · simp [startsExponent, he, hE]

/-! ## Containers -/

theorem valueWith_skipSpace (fuel depth : Nat) (cs : List Char) :
    valueWith fuel depth (skipSpace cs) = valueWith fuel depth cs := by
  cases fuel with
  | zero => simp [valueWith]
  | succ fuel => rw [valueWith, valueWith, skipSpace_skipSpace]

theorem valueWith_space (fuel depth : Nat) (cs : List Char) :
    valueWith fuel depth (' ' :: cs) = valueWith fuel depth cs := by
  rw [← valueWith_skipSpace, ← valueWith_skipSpace fuel depth cs]
  rfl

theorem itemsWith_skipSpace (fuel depth : Nat) (cs : List Char) :
    itemsWith fuel depth (skipSpace cs) = itemsWith fuel depth cs := by
  cases fuel with
  | zero => simp [itemsWith]
  | succ fuel => rw [itemsWith, itemsWith, valueWith_skipSpace]

theorem entriesWith_skipSpace (fuel depth : Nat) (cs : List Char) :
    entriesWith fuel depth (skipSpace cs) = entriesWith fuel depth cs := by
  cases fuel with
  | zero => simp [entriesWith]
  | succ fuel => rw [entriesWith, entriesWith, skipSpace_skipSpace]

/-- Items do not begin with the closing bracket, so a list that has some is not taken for empty. -/
theorem valueWith_list {fuel depth : Nat} {cs rest : List Char} {items : List Document}
    (h : itemsWith fuel depth cs = some (items, rest)) :
    valueWith (fuel + 1) (depth + 1) ('[' :: cs) = some (.list items, rest) := by
  have hclosing : ∀ fuel tail, itemsWith fuel depth (']' :: tail) = none := by
    intro fuel tail
    rcases fuel with _ | _ | fuel <;> simp [itemsWith, valueWith, skipSpace, isSpace, number?]
  rw [← itemsWith_skipSpace] at h
  rw [valueWith, skipSpace_cons (by decide)]
  simp only [Nat.succ_ne_zero, if_false, Nat.add_sub_cancel]
  split
  · rename_i tail hcs
    rw [hcs, hclosing] at h
    cases h
  · simp [h]

theorem valueWith_map {fuel depth : Nat} {cs rest : List Char}
    {entries : List (Document × Document)}
    (h : entriesWith fuel depth cs = some (entries, rest)) :
    valueWith (fuel + 1) (depth + 1) ('\x7b' :: cs) = some (.map entries, rest) := by
  have hclosing : ∀ fuel tail, entriesWith fuel depth ('\x7d' :: tail) = none := by
    intro fuel tail
    cases fuel <;> simp [entriesWith, skipSpace, isSpace]
  rw [← entriesWith_skipSpace] at h
  rw [valueWith, skipSpace_cons (by decide)]
  simp only [Nat.succ_ne_zero, if_false, Nat.add_sub_cancel]
  split
  · rename_i tail hcs
    rw [hcs, hclosing] at h
    cases h
  · simp [h]

/-- With as much fuel as its text is long, the written document is read off the front of whatever
follows it. -/
def ReadsBack (depth : Nat) (v : Document) : Prop :=
  ∀ margin fuel rest, (writeAt margin v).length ≤ fuel → EndsNumber rest →
    valueWith fuel depth ((writeAt margin v).toList ++ rest) = some (v, rest)

theorem word?_append (word : String) (rest : List Char) :
    word? word (word.toList ++ rest) = some rest := by
  simp [word?, ← String.length_toList]

theorem readsBack_null (depth : Nat) : ReadsBack depth .null := by
  intro margin fuel rest hfuel hrest
  cases fuel with
  | zero => simp [writeAt] at hfuel
  | succ fuel =>
    have hword : word? "ull" ('u' :: 'l' :: 'l' :: rest) = some rest := by
      simpa using word?_append "ull" rest
    simp [writeAt, valueWith, skipSpace_cons, isSpace, hword]

theorem readsBack_flag (depth : Nat) (b : Bool) : ReadsBack depth (.flag b) := by
  intro margin fuel rest hfuel hrest
  cases fuel with
  | zero => cases b <;> simp [writeAt] at hfuel
  | succ fuel =>
    have htrue : word? "rue" ('r' :: 'u' :: 'e' :: rest) = some rest := by
      simpa using word?_append "rue" rest
    have hfalse : word? "alse" ('a' :: 'l' :: 's' :: 'e' :: rest) = some rest := by
      simpa using word?_append "alse" rest
    cases b
    · simp [writeAt, valueWith, skipSpace_cons, isSpace, hfalse]
    · simp [writeAt, valueWith, skipSpace_cons, isSpace, htrue]

theorem readsBack_text (depth : Nat) (s : String) : ReadsBack depth (.text s) := by
  intro margin fuel rest hfuel hrest
  cases fuel with
  | zero => simp [writeAt, quote] at hfuel
  | succ fuel =>
    obtain ⟨cs, hquote, htext⟩ := text?_quote s rest
    rw [writeAt, hquote, valueWith, skipSpace_cons (by decide)]
    simp only [htext, Option.map_some]

theorem valueWith_digit {c : Char} (h : c.isDigit = true) (fuel depth : Nat) (cs : List Char) :
    valueWith (fuel + 1) depth (c :: cs) = number? false (c :: cs) := by
  have hspace : isSpace c = false := by
    by_contra hc
    simp only [isSpace, Bool.not_eq_false, Bool.or_eq_true, beq_iff_eq] at hc
    rcases hc with ((rfl | rfl) | rfl) | rfl <;> simp at h
  rw [valueWith, skipSpace_cons hspace]
  split <;> simp_all

theorem readsBack_integer (depth : Nat) {n : Int} (low : -(Nat.pow 2 63 : Nat) ≤ n)
    (high : n < UInt64.size) : ReadsBack depth (.integer n) := by
  intro margin fuel rest hfuel hrest
  cases n with
  | ofNat n =>
    have htext : writeAt margin (.integer (.ofNat n)) = n.repr := rfl
    have hread := number?_toDigits false (Int.ofNat_lt.1 high) hrest
    obtain ⟨c, cs, hcs⟩ := List.exists_cons_of_ne_nil (Nat.toDigits_ne_nil (b := 10) (n := n))
    have hdigit : c.isDigit = true := Numeral.isDigit_toDigits n c (by simp [hcs])
    rw [htext, ← String.length_toList, Nat.toList_repr, hcs] at hfuel
    rw [htext, Nat.toList_repr]
    cases fuel with
    | zero => simp at hfuel
    | succ fuel =>
      rw [hcs, List.cons_append] at hread ⊢
      rw [valueWith_digit hdigit, hread]
      rfl
  | negSucc n =>
    have htext : writeAt margin (.integer (.negSucc n)) = "-" ++ (n + 1).repr := rfl
    have hlow : n + 1 ≤ Nat.pow 2 63 := by
      rw [Int.negSucc_eq] at low
      omega
    have hread := number?_toDigits true (n := n + 1) (Nat.lt_of_le_of_lt hlow (by decide)) hrest
    rw [htext, String.length_append] at hfuel
    rw [htext, String.toList_append, Nat.toList_repr]
    cases fuel with
    | zero => simp at hfuel
    | succ fuel =>
      simp [valueWith, skipSpace_cons, isSpace, hread, wholeNumber, hlow, Int.negSucc_eq]

theorem endsNumber_newline (margin : Nat) (rest : List Char) :
    EndsNumber ((newline margin).toList ++ rest) := by
  rw [newline, String.toList_append]
  exact endsNumber_cons (by decide)

/-- What separates two parts of a container: a comma, and the space up to the next part. -/
def separator (margin : Nat) : String := "," ++ newline margin

theorem toList_separator (margin : Nat) :
    (separator margin).toList = ',' :: (newline margin).toList := by
  simp [separator]

theorem length_separator_pos (margin : Nat) : 0 < (separator margin).length := by
  simp [← String.length_toList, toList_separator]

theorem endsNumber_separator (margin : Nat) (rest : List Char) :
    EndsNumber ((separator margin).toList ++ rest) := by
  rw [toList_separator]
  exact endsNumber_cons (by decide)

theorem itemsWith_newline (fuel depth margin : Nat) (cs : List Char) :
    itemsWith fuel depth ((newline margin).toList ++ cs) = itemsWith fuel depth cs := by
  rw [← itemsWith_skipSpace, skipSpace_append (isSpace_newline margin), itemsWith_skipSpace]

theorem entriesWith_newline (fuel depth margin : Nat) (cs : List Char) :
    entriesWith fuel depth ((newline margin).toList ++ cs) = entriesWith fuel depth cs := by
  rw [← entriesWith_skipSpace, skipSpace_append (isSpace_newline margin), entriesWith_skipSpace]

theorem itemsWith_last {fuel depth outer : Nat} {cs rest : List Char} {v : Document}
    (hv : valueWith fuel depth cs = some (v, (newline outer).toList ++ ']' :: rest)) :
    itemsWith (fuel + 1) depth cs = some ([v], rest) := by
  rw [itemsWith, hv]
  simp [skipSpace_append (isSpace_newline outer), skipSpace_cons, isSpace]

theorem itemsWith_more {fuel depth margin : Nat} {cs cs' rest : List Char} {v : Document}
    {items : List Document}
    (hv : valueWith fuel depth cs = some (v, (separator margin).toList ++ cs'))
    (h : itemsWith fuel depth cs' = some (items, rest)) :
    itemsWith (fuel + 1) depth cs = some (v :: items, rest) := by
  rw [itemsWith, hv, toList_separator]
  simp [skipSpace_cons, isSpace, itemsWith_newline, h]

/-- Items that are read back one by one are read back together, up to the closing bracket. -/
theorem itemsWith_writeItems {depth : Nat} (margin outer : Nat) {items : List Document}
    (h : ∀ v ∈ items, ReadsBack depth v) (hne : items ≠ []) (fuel : Nat) (rest : List Char)
    (hfuel : ((separator margin).intercalate (writeItems margin items)).length < fuel) :
    itemsWith fuel depth (((separator margin).intercalate (writeItems margin items)).toList ++
      ((newline outer).toList ++ ']' :: rest)) = some (items, rest) := by
  induction items generalizing fuel with
  | nil => exact absurd rfl hne
  | cons v items ih =>
    obtain ⟨fuel, rfl⟩ := Nat.exists_eq_succ_of_ne_zero (Nat.ne_of_gt (Nat.zero_lt_of_lt hfuel))
    have hv := h v List.mem_cons_self
    cases items with
    | nil =>
      rw [writeItems, writeItems, String.intercalate_singleton] at hfuel ⊢
      apply itemsWith_last
      exact hv margin fuel _ (Nat.le_of_lt_succ hfuel) (endsNumber_newline outer _)
    | cons w items =>
      have hsep := length_separator_pos margin
      rw [writeItems, writeItems, String.intercalate_cons_cons, ← writeItems] at hfuel ⊢
      simp only [String.length_append] at hfuel
      simp only [String.toList_append, List.append_assoc]
      apply itemsWith_more
      · exact hv margin fuel _ (by omega) (endsNumber_separator margin _)
      · exact ih (fun x hx => h x (List.mem_cons_of_mem v hx)) (by simp) fuel (by omega)

theorem entriesWith_last {fuel depth outer : Nat} {cs rest : List Char} {k : String}
    {v : Document}
    (hv : valueWith fuel depth cs = some (v, (newline outer).toList ++ '\x7d' :: rest)) :
    entriesWith (fuel + 1) depth ((quote k).toList ++ ':' :: ' ' :: cs) =
      some ([(.text k, v)], rest) := by
  obtain ⟨text, hquote, htext⟩ := text?_quote k (':' :: ' ' :: cs)
  rw [hquote, entriesWith, skipSpace_cons (by decide)]
  simp [htext, skipSpace_cons, isSpace, valueWith_space, hv,
    skipSpace_append (isSpace_newline outer)]

theorem entriesWith_more {fuel depth margin : Nat} {cs cs' rest : List Char} {k : String}
    {v : Document} {entries : List (Document × Document)}
    (hv : valueWith fuel depth cs = some (v, (separator margin).toList ++ cs'))
    (h : entriesWith fuel depth cs' = some (entries, rest)) :
    entriesWith (fuel + 1) depth ((quote k).toList ++ ':' :: ' ' :: cs) =
      some ((.text k, v) :: entries, rest) := by
  obtain ⟨text, hquote, htext⟩ := text?_quote k (':' :: ' ' :: cs)
  rw [hquote, entriesWith, skipSpace_cons (by decide)]
  simp [htext, skipSpace_cons, isSpace, valueWith_space, hv, toList_separator,
    entriesWith_newline, h]

/-- Entries whose values are read back one by one are read back together, up to the closing
brace. -/
theorem entriesWith_writeEntries {depth : Nat} (margin outer : Nat)
    {entries : List (Document × Document)}
    (hkeys : ∀ e ∈ entries, ∃ k, e.1 = .text k) (h : ∀ e ∈ entries, ReadsBack depth e.2)
    (hne : entries ≠ []) (fuel : Nat) (rest : List Char)
    (hfuel : ((separator margin).intercalate (writeEntries margin entries)).length < fuel) :
    entriesWith fuel depth (((separator margin).intercalate (writeEntries margin entries)).toList ++
      ((newline outer).toList ++ '\x7d' :: rest)) = some (entries, rest) := by
  induction entries generalizing fuel with
  | nil => exact absurd rfl hne
  | cons e entries ih =>
    obtain ⟨fuel, rfl⟩ := Nat.exists_eq_succ_of_ne_zero (Nat.ne_of_gt (Nat.zero_lt_of_lt hfuel))
    obtain ⟨key, v⟩ := e
    obtain ⟨k, rfl⟩ : ∃ k, key = .text k := hkeys (key, v) List.mem_cons_self
    have hv : ReadsBack depth v := h (.text k, v) List.mem_cons_self
    cases entries with
    | nil =>
      rw [writeEntries, writeEntries, String.intercalate_singleton, writeAt] at hfuel ⊢
      simp only [String.length_append] at hfuel
      simp only [String.toList_append, List.append_assoc]
      apply entriesWith_last
      exact hv margin fuel _ (by omega) (endsNumber_newline outer _)
    | cons w entries =>
      obtain ⟨wk, wv⟩ := w
      have hsep := length_separator_pos margin
      rw [writeEntries, writeEntries, String.intercalate_cons_cons, ← writeEntries, writeAt]
        at hfuel ⊢
      simp only [String.length_append] at hfuel
      simp only [String.toList_append, List.append_assoc]
      apply entriesWith_more
      · exact hv margin fuel _ (by omega) (endsNumber_separator margin _)
      · exact ih (fun x hx => hkeys x (List.mem_cons_of_mem _ hx))
          (fun x hx => h x (List.mem_cons_of_mem _ hx)) (by simp) fuel (by omega)

theorem bracketed_eq (opening closing : String) (margin : Nat) {parts : List String}
    (h : parts ≠ []) : bracketed opening closing margin parts =
      opening ++ (newline (margin + 1) ++ ((separator (margin + 1)).intercalate parts ++
        (newline margin ++ closing))) := by
  simp [bracketed, separator, h, String.append_assoc]

theorem toList_write_map (entries : List (Document × Document)) :
    ∃ cs, (write (.map entries)).toList = '\x7b' :: cs := by
  cases hparts : writeEntries 1 entries with
  | nil => simp [write, writeAt, bracketed, hparts]
  | cons part parts =>
    rw [write, writeAt, bracketed_eq _ _ _ (by simp [hparts]), String.toList_append]
    exact ⟨_, rfl⟩

theorem readsBack_list {depth : Nat} {items : List Document} (h : ∀ v ∈ items, ReadsBack depth v) :
    ReadsBack (depth + 1) (.list items) := by
  intro margin fuel rest hfuel hrest
  cases items with
  | nil =>
    cases fuel with
    | zero => simp [writeAt, writeItems, bracketed] at hfuel
    | succ fuel => simp [writeAt, writeItems, bracketed, valueWith, skipSpace_cons, isSpace]
  | cons v items =>
    rw [writeAt, bracketed_eq _ _ _ (by simp [writeItems])] at hfuel ⊢
    simp only [String.length_append] at hfuel
    have hopen : "[".length = 1 := rfl
    have hclose : "]".length = 1 := rfl
    cases fuel with
    | zero => omega
    | succ fuel =>
      have hitems := itemsWith_writeItems (margin + 1) margin h (by simp) fuel rest (by omega)
      rw [← itemsWith_newline fuel depth (margin + 1)] at hitems
      simpa [← String.toList_intercalate] using valueWith_list hitems

theorem readsBack_map {depth : Nat} {entries : List (Document × Document)}
    (hkeys : ∀ e ∈ entries, ∃ k, e.1 = .text k) (h : ∀ e ∈ entries, ReadsBack depth e.2) :
    ReadsBack (depth + 1) (.map entries) := by
  intro margin fuel rest hfuel hrest
  cases entries with
  | nil =>
    cases fuel with
    | zero => simp [writeAt, writeEntries, bracketed] at hfuel
    | succ fuel => simp [writeAt, writeEntries, bracketed, valueWith, skipSpace_cons, isSpace]
  | cons e entries =>
    rw [writeAt, bracketed_eq _ _ _ (by simp [writeEntries])] at hfuel ⊢
    simp only [String.length_append] at hfuel
    have hopen : "\x7b".length = 1 := rfl
    have hclose : "\x7d".length = 1 := rfl
    cases fuel with
    | zero => omega
    | succ fuel =>
      have hentries := entriesWith_writeEntries (margin + 1) margin hkeys h (by simp) fuel rest
        (by omega)
      rw [← entriesWith_newline fuel depth (margin + 1)] at hentries
      simpa [← String.toList_intercalate] using valueWith_map hentries

theorem readsBack_of_isData {depth : Nat} {v : Document} (h : v.IsData depth) :
    ReadsBack depth v := by
  induction h with
  | null => exact readsBack_null _
  | flag b => exact readsBack_flag _ b
  | integer low high => exact readsBack_integer _ low high
  | text s => exact readsBack_text _ s
  | list _ ih => exact readsBack_list ih
  | map keys_text _ ih => exact readsBack_map keys_text ih

/-- What is written of a document that JSON spells exactly is read as that document. -/
theorem value?_write {v : Document} (h : v.IsData maxDepth) :
    value? maxDepth (write v).toList = some (v, []) := by
  have hback := readsBack_of_isData h 0 ((write v).toList.length + 1) []
    (by rw [String.length_toList]; exact Nat.le_succ _) endsNumber_nil
  rwa [List.append_nil] at hback

end Json

end NicTuning
