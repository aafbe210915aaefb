import NicTuning.Document.Basic

/-!
# What plain scalars mean

Without a tag a plain scalar is nothing, a truth value, a whole number, a number with a fraction or
a text, whichever fits first; `yes` and `on` are texts. Digits with a leading zero are a text.
A whole number of more than 64 but at most 128 bits has no meaning at all.
-/
namespace NicTuning.Yaml.Plain

def isNull (s : String) : Bool := ["null", "Null", "NULL", "~"].contains s

def flag? (s : String) : Option Bool :=
  if ["true", "True", "TRUE"].contains s then some true
  else if ["false", "False", "FALSE"].contains s then some false
  else none

def digit? (base : Nat) (c : Char) : Option Nat :=
  let n :=
    if c.isDigit then c.toNat - 48
    else if 'a' ≤ c ∧ c ≤ 'z' then c.toNat - 87
    else if 'A' ≤ c ∧ c ≤ 'Z' then c.toNat - 55
    else base
  if n < base then some n else none

/-- One or more digits of a base. -/
def digits? (base : Nat) (cs : List Char) : Option Nat :=
  if cs.isEmpty then none
  else (cs.mapM (digit? base)).map fun ds => ds.foldl (fun n d => base * n + d) 0

def startsWithSign : List Char → Bool
  | c :: _ => c == '+' || c == '-'
  | [] => false

/-- The base that a prefix announces, and the digits after it. -/
def based? : List Char → Option (Nat × List Char)
  | '0' :: 'x' :: cs => some (16, cs)
  | '0' :: 'o' :: cs => some (8, cs)
  | '0' :: 'b' :: cs => some (2, cs)
  | _ => none

/-- Digits with a leading zero, after an optional sign. -/
def isPadded (cs : List Char) : Bool :=
  match if startsWithSign cs then cs.tail else cs with
  | '0' :: c :: rest => (c :: rest).all Char.isDigit
  | _ => false

/-- A number that is not negative and below `limit`, after an optional plus sign. -/
def unsigned? (limit : Nat) (cs : List Char) : Option Nat :=
  let body := if cs.head? = some '+' then cs.tail else cs
  let bounded (n? : Option Nat) := n?.bind fun n => if n < limit then some n else none
  let inBase := (based? body).bind fun (base, ds) => bounded (digits? base ds)
  inBase <|> (if isPadded cs then none else bounded (digits? 10 body))

/-- A number with a minus sign, at most `limit` below zero. -/
def negative? (limit : Nat) : List Char → Option Int
  | '-' :: body =>
    let bounded (n? : Option Nat) :=
      n?.bind fun n => if n ≤ limit then some (-(n : Int)) else none
    let inBase := (based? body).bind fun (base, ds) => bounded (digits? base ds)
    inBase <|> (if isPadded body then none else bounded (digits? 10 body))
  | _ => none

/-- The meaning as a whole number: none, or one of at most 64 bits, or one that is refused. -/
def integer? (s : String) : Option (Option Document) :=
  let cs := s.toList
  match unsigned? (Nat.pow 2 64) cs with
  | some n => some (some (.integer n))
  | none =>
    match negative? (Nat.pow 2 63) cs with
    | some i => some (some (.integer i))
    | none =>
      if (unsigned? (Nat.pow 2 128) cs).isSome || (negative? (Nat.pow 2 127) cs).isSome then
        some none
      else none

/-- Digits with an optional point and an optional exponent: significand and power of ten. -/
def decimal? (cs : List Char) : Option (Nat × Int) := do
  let whole := cs.takeWhile Char.isDigit
  let rest := cs.dropWhile Char.isDigit
  let (fraction, rest) := match rest with
    | '.' :: rest => (rest.takeWhile Char.isDigit, rest.dropWhile Char.isDigit)
    | rest => ([], rest)
  let all := whole ++ fraction
  let significand ← digits? 10 all
  match rest with
  | [] => return (significand, -(fraction.length : Int))
  | c :: rest =>
    if c != 'e' && c != 'E' then none
    let e ← digits? 10 (if startsWithSign rest then rest.tail else rest)
    let e : Int := if rest.head? = some '-' then -e else e
    return (significand, e - fraction.length)

/-- The meaning as a number with a fraction. -/
def float? (s : String) : Option Binary64 :=
  let cs := s.toList
  let body := if cs.head? = some '+' then cs.tail else cs
  if cs.head? = some '+' && startsWithSign body then none
  else if [".inf", ".Inf", ".INF"].contains (String.ofList body) then some (.infinite false)
  else if ["-.inf", "-.Inf", "-.INF"].contains s then some (.infinite true)
  else if [".nan", ".NaN", ".NAN"].contains s then some .nan
  else
    let negative := body.head? = some '-'
    (decimal? (if startsWithSign body then body.tail else body)).bind fun (n, e) =>
      match Binary64.ofDecimal negative n e with
      | .finite sign m q => some (.finite sign m q)
      | _ => none

/-- The meaning of a plain scalar without a tag; `none` for a number that is refused. -/
def meaning? (s : String) : Option Document :=
  if s.isEmpty || isNull s then some .null
  else match flag? s with
    | some b => some (.flag b)
    | none => match integer? s with
      | some refusedOrNumber => refusedOrNumber
      | none =>
        if isPadded s.toList then some (.text s)
        else match float? s with
          | some x => some (.float x)
          | none => some (.text s)

/-- The meaning of a scalar with a tag, or of one between quotes or in a block. A tag of the text's
own is refused, and so is a scalar that does not fit a standard tag. -/
def tagged? (tag : Option String) (plain : Bool) (s : String) : Option Document :=
  match tag with
  | none => if plain then meaning? s else some (.text s)
  | some tag =>
    if tag.startsWith "!" then none
    else if tag = "tag:yaml.org,2002:bool" then (flag? s).map .flag
    else if tag = "tag:yaml.org,2002:int" then (integer? s).bind id
    else if tag = "tag:yaml.org,2002:float" then (float? s).map .float
    else if tag = "tag:yaml.org,2002:null" then if isNull s then some .null else none
    else some (.text s)

end NicTuning.Yaml.Plain
