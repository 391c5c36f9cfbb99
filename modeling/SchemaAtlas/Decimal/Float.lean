import SchemaAtlas.Decimal.Shortest

/-!
# Texts of floating-point numbers

Two styles are in use. In messages a number shows that it is a floating-point number and switches
to an exponent outside a comfortable range. In a schema text it never has an exponent and a whole
number has no point.
-/

namespace SchemaAtlas

/-- A floating-point number as a reader sees it. -/
inductive NumberClass where
  | nan
  | infinite (negative : Bool)
  | finite (negative : Bool) (magnitude : Decimal)

/-- The class of a number, by its bits. -/
def NumberClass.ofFloat (x : Float) : NumberClass :=
  let bits := x.toBits.toNat
  let negative := bits / Nat.pow 2 63 = 1
  let biased := bits / Nat.pow 2 52 % Nat.pow 2 11
  let fraction := bits % Nat.pow 2 52
  if biased = 2047 then
    if fraction = 0 then infinite negative else nan
  else if biased = 0 ∧ fraction = 0 then finite negative ⟨0, 0⟩
  else finite negative (Rounding.ofParts fraction biased).shortest

/-- The choices a number text leaves open. -/
structure NumberStyle where
  /-- The decades written without an exponent; `none` for all of them. -/
  positional : Option (Int × Int)
  /-- Whether a whole number ends in `.0`. -/
  pointZero : Bool

namespace NumberStyle

/-- Numbers from `0.0001` up to `10 ^ 16` are written out. -/
def message : NumberStyle := ⟨some (-3, 16), true⟩

def literal : NumberStyle := ⟨none, false⟩

/-- Write all digits, with zeros up to the point or after it. -/
def writeOut (style : NumberStyle) (d : Decimal) : String :=
  let digits := Nat.toDigits 10 d.coefficient
  let zeros (n : Nat) : List Char := List.replicate n '0'
  if 0 ≤ d.exponent then
    String.ofList (digits ++ zeros d.exponent.toNat ++ if style.pointZero then ['.', '0'] else [])
  else
    let places := (-d.exponent).toNat
    if places < digits.length then
      String.ofList (digits.take (digits.length - places) ++ '.' ::
        digits.drop (digits.length - places))
    else
      String.ofList ('0' :: '.' :: zeros (places - digits.length) ++ digits)

/-- One digit before the point, and the power of ten after an `e`. -/
def withExponent (d : Decimal) : String :=
  match Nat.toDigits 10 d.coefficient with
  | [] => "0"
  | lead :: rest =>
    String.ofList (lead :: if rest.isEmpty then [] else '.' :: rest) ++ "e" ++
      toString (d.decade - 1)

def write (style : NumberStyle) (d : Decimal) : String :=
  match style.positional with
  | none => style.writeOut d
  | some (least, greatest) =>
    if d.coefficient = 0 ∨ (least ≤ d.decade ∧ d.decade ≤ greatest) then style.writeOut d
    else withExponent d

/-- The text of any floating-point number. -/
def writeFloat (style : NumberStyle) (x : Float) : String :=
  match NumberClass.ofFloat x with
  | .nan => "NaN"
  | .infinite negative => sign negative ++ "inf"
  | .finite negative d => sign negative ++ style.write d
where
  sign (negative : Bool) : String := if negative then "-" else ""

end NumberStyle

/-- The floating-point number nearest to a decimal. Far outside the range the answer is known
without arithmetic on huge powers. -/
def Decimal.toFloat (d : Decimal) : Float :=
  if d.coefficient = 0 then 0.0
  else if 400 < d.decade then 1.0 / 0.0
  else if d.decade < -400 then 0.0
  else Float.ofScientific d.coefficient (d.exponent < 0) d.exponent.natAbs

/-! ### Reading -/

/-- The number that decimal digits stand for. -/
def digitsValue (ds : List Char) : Nat := ds.foldl (fun n c => 10 * n + (c.toNat - '0'.toNat)) 0

/-- Whether a text starts with a minus, and what follows its sign. -/
def splitSign : List Char → Bool × List Char
  | '-' :: ds => (true, ds)
  | '+' :: ds => (false, ds)
  | ds => (false, ds)

/-- The integer of an optional sign and digits. -/
def signedValue (cs : List Char) : Int :=
  let (negative, ds) := splitSign cs
  if negative then -(digitsValue ds : Int) else digitsValue ds

/-- The magnitude of digits with an optional point and an optional exponent. -/
def readDecimal? (cs : List Char) : Option Decimal :=
  let isMark (c : Char) : Bool := c == 'e' || c == 'E'
  let mantissa := cs.takeWhile (!isMark ·)
  let whole := mantissa.takeWhile (· != '.')
  let places := (mantissa.dropWhile (· != '.')).drop 1
  let digits := whole ++ places
  let exponent := (cs.dropWhile (!isMark ·)).drop 1
  let exponentDigits := (splitSign exponent).2
  if digits.isEmpty || !digits.all Char.isDigit || !exponentDigits.all Char.isDigit ||
      (cs.any isMark && exponentDigits.isEmpty) then none
  else some ⟨digitsValue digits, signedValue exponent - places.length⟩

/-- The floating-point number of a text. -/
def readFloat? (s : String) : Option Float :=
  let (negative, cs) := splitSign s.toList
  let magnitude? : Option Float :=
    if cs = ['i', 'n', 'f'] then some (1.0 / 0.0)
    else if cs = ['N', 'a', 'N'] then some (0.0 / 0.0)
    else (readDecimal? cs).map Decimal.toFloat
  magnitude?.map fun x => if negative then -x else x

end SchemaAtlas
