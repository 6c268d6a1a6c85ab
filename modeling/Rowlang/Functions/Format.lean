import Rowlang.Functions.Number

/-!
# Dates and formats

* `date` : the date that a text says;
* `format` : a date by a date pattern, and a number by a number pattern such as `#,##0.00`;
* `NumberPattern` : what such a pattern asks for.
-/

namespace Rowlang.Functions
open Rowlang.Text

/-! ## Dates -/

/-- The date that the subject says, by the pattern that is given or else in one of the usual
forms. -/
def date : Builtin := fun subject args =>
  match subject with
  | .date m => .ok (.date m)
  | v =>
    let text := trimString v.render
    match args with
    | pattern :: _ =>
      match Moment.ofText? pattern.render text <|> (Date.ofText? pattern.render text).map (·.start) with
      | some m => .ok (.date m)
      | none => .error ("cannot parse " ++ quote text ++ " with " ++ quote pattern.render)
    | [] =>
      match Moment.guess? text with
      | some m => .ok (.date m)
      | none => .error ("cannot parse date " ++ quote text)

/-! ## Number patterns -/

/-- What a number pattern asks for: a text before and behind the number, the least number of digits
before the point, the least and the greatest number behind it, and whether thousands are marked. -/
structure NumberPattern where
  before : List Char
  behind : List Char
  minWhole : Nat
  minPlaces : Nat
  maxPlaces : Nat
  grouped : Bool
deriving DecidableEq, Repr

def isPatternChar (c : Char) : Bool := ['#', '0', ',', '.'].contains c

def isPatternDigit (c : Char) : Bool := c == '0' || c == '#'

/-- Reads a pattern; none if nothing in it stands for the number. The number goes from the first
such character to the last one. -/
def NumberPattern.ofChars? (cs : List Char) : Option NumberPattern :=
  let before := cs.takeWhile (!isPatternChar ·)
  let rest := cs.dropWhile (!isPatternChar ·)
  let behind := (rest.reverse.takeWhile (!isPatternChar ·)).reverse
  let body := rest.take (rest.length - behind.length)
  let whole := body.takeWhile (· != '.')
  let places := body.drop (whole.length + 1)
  if body.isEmpty then none
  else some {
    before, behind
    minWhole := whole.count '0'
    minPlaces := (places.takeWhile (· == '0')).length
    maxPlaces := places.countP isPatternDigit
    grouped := whole.contains ',' }

def groupThousands (digits : List Char) : List Char :=
  match digits with
  | [] => []
  | c :: rest =>
    c :: (if rest.length % 3 = 0 ∧ rest ≠ [] then ',' :: groupThousands rest
      else groupThousands rest)

/-- Digits behind the point without trailing zeros, except for the first `least` of them. -/
def trimPlaces (least : Nat) (digits : List Char) : List Char :=
  digits.take least ++ ((digits.drop least).reverse.dropWhile (· == '0')).reverse

/-- A decimal by a pattern of fewer than `2 ^ 16` places. A formatter does not take a greater precision, and the count
of places that a decimal is rounded to is one of 32 bits. -/
def NumberPattern.write (p : NumberPattern) (d : Decimal) : List Char :=
  let rounded := d.roundTo p.maxPlaces
  let digits := rounded.textWithPlaces p.maxPlaces
  let whole := digits.takeWhile (· != '.')
  let places := trimPlaces p.minPlaces (digits.drop (whole.length + 1))
  let whole := padZeros (max 1 p.minWhole) (whole.dropWhile (· == '0'))
  let whole := if p.grouped then groupThousands whole else whole
  signed (rounded.negative && !rounded.isZero)
    (p.before ++ whole ++ (if places.isEmpty then [] else '.' :: places) ++ p.behind)

/-- A number by a pattern. One that is no decimal is written as it is. -/
def formatNumber (n : Number) (pattern : String) : Except String String :=
  match NumberPattern.ofChars? pattern.toList with
  | none => .error ("invalid number pattern " ++ quote pattern)
  | some p =>
    match n.toDecimal? with
    | some d => .ok (String.ofList (p.write d))
    | none => .ok (String.ofList (p.before ++ n.text.toList ++ p.behind))

def format : Builtin := fun subject args => do
  let pattern := (← argument args 0).render
  match subject with
  | .date m =>
    match m.formatted? pattern with
    | some s => return .text s
    | none => throw ("invalid date pattern " ++ quote pattern)
  | .null => return .text ""
  | v => return .text (← formatNumber (← numberOf v) pattern)

end Rowlang.Functions
