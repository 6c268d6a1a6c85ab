import Rowlang.Decimal.Basic

/-!
# Reading decimals

* `Decimal.ofChars?` : a sign, digits with at most one point, and underscores between them;
* `Decimal.ofScientific?` : such a number with a power of ten behind `e` or `E`.

Digits behind the point that a decimal cannot hold are not read: the first of them decides how the
last digit held is rounded, and what follows is ignored. Digits that a negative power of ten moves
beyond the last place are rounded away in the same manner; a power beyond the places is refused.
-/

namespace Rowlang.Decimal

/-! ## Digits -/

/-- The first `n` places behind the point are held, and the text goes on with `c`: rounds half up
by that digit. A point or an underscore counts as zero. -/
def roundedAt? (negative : Bool) (n scale : Nat) (c : Char) : Option Decimal :=
  if c.isDigit then
    if '5' ≤ c then
      if n + 1 < 2 ^ 96 then make? negative (n + 1) scale
      else if scale = 0 then none
      else make? negative ((n + 1 + 4) / 10) (scale - 1)
    else make? negative n scale
  else if c == '_' || c == '.' then make? negative n scale
  else none

/-- Reads on behind the point, `n` being the digits so far and `scale` the places among them. -/
def readPlaces? (negative : Bool) (n scale : Nat) : List Char → Option Decimal
  | [] => make? negative n scale
  | c :: rest =>
    if scale = maxScale then roundedAt? negative n scale c
    else if c.isDigit then
      let next := 10 * n + (c.toNat - '0'.toNat)
      if next < 2 ^ 96 then readPlaces? negative next (scale + 1) rest
      else roundedAt? negative n scale c
    else if c == '_' then readPlaces? negative n scale rest
    else none

/-- Reads on before the point. Before the first digit the text must not end, and must not have an
underscore; a point must have a digit behind it. -/
def readWhole? (negative : Bool) (n : Nat) (started : Bool) : List Char → Option Decimal
  | [] => if started then make? negative n 0 else none
  | c :: rest =>
    if c.isDigit then
      let next := 10 * n + (c.toNat - '0'.toNat)
      if next < 2 ^ 96 then readWhole? negative next true rest else none
    else if c == '.' then
      if started || (rest.head?.map Char.isDigit).getD false then readPlaces? negative n 0 rest
      else none
    else if c == '_' && started then readWhole? negative n started rest
    else none

def ofChars? : List Char → Option Decimal
  | '-' :: cs => readWhole? true 0 false cs
  | '+' :: cs => readWhole? false 0 false cs
  | cs => readWhole? false 0 false cs

/-! ## Exponents -/

/-- Reads the magnitude of an exponent, of at most 32 bits. -/
def exponentOf? (cs : List Char) : Option Nat :=
  let digits := match cs with
    | '+' :: rest => rest
    | cs => cs
  if digits.isEmpty || !digits.all Char.isDigit then none
  else
    let n := digitValue digits
    if n < 2 ^ 32 then some n else none

/-- A coefficient stays in range when it loses a place, even if it is rounded up. -/
theorem roundHalfUp_lt_of_dropped {n k : Nat} (hn : n < 2 ^ 96) (hk : 0 < k) :
    roundHalfUp n (10 ^ k) < 2 ^ 96 := by
  have dropped : 10 ≤ 10 ^ k := Nat.le_self_pow (by omega) 10
  have kept : n / 10 ^ k ≤ n / 10 := Nat.div_le_div_left dropped (by decide)
  have rounded := roundHalfUp_le n (10 ^ k)
  omega

/-- A decimal divided by `10 ^ e`, by more places behind the point. Places beyond the last that a
decimal can hold are dropped, and the coefficient is rounded, a half away from zero. -/
def shiftRight (d : Decimal) (e : Nat) : Decimal :=
  if h : d.scale + e ≤ 28 then { d with scale := d.scale + e, scale_le := h }
  else
    { d with
      coefficient := roundHalfUp d.coefficient (10 ^ (d.scale + e - 28))
      scale := 28
      coefficient_lt := roundHalfUp_lt_of_dropped d.coefficient_lt (by omega)
      scale_le := by decide }

/-- A decimal times `10 ^ e`, by fewer places behind the point or by more zeros before it. -/
def shiftLeft? (d : Decimal) (e : Nat) : Option Decimal :=
  if e ≤ d.scale then
    some { d with scale := d.scale - e, scale_le := Nat.le_trans (Nat.sub_le _ _) d.scale_le }
  else if maxScale < e then none
  else make? d.negative (d.coefficient * 10 ^ (e - d.scale)) 0

def ofScientific? (cs : List Char) : Option Decimal :=
  let base := cs.takeWhile fun c => c != 'e' && c != 'E'
  match cs.drop base.length with
  | [] => none
  | _ :: '-' :: digits => do
    let d ← ofChars? base
    let e ← exponentOf? digits
    if maxScale < e then none else some (d.shiftRight e)
  | _ :: digits => do
    let d ← ofChars? base
    d.shiftLeft? (← exponentOf? digits)

example : (ofScientific? "1.5e-28".toList).map text = some "0.0000000000000000000000000002" := by
  decide +kernel

example : ofScientific? "1e-29".toList = none := by decide +kernel

end Rowlang.Decimal
