import SchemaAtlas.Decimal.Float
import SchemaAtlas.Location
import SchemaAtlas.Text.Blank

/-!
# Tokens of a schema document

A document is a sequence of punctuators, names, numbers and strings. Spaces, commas, line ends, the
byte order mark and comments only separate them. Brackets nest at most fifty deep, whatever their
kind.
-/

namespace SchemaAtlas

inductive Token where
  | punct (c : Char)
  /-- Three points. -/
  | spread
  | name (s : String)
  | int (n : Int)
  | float (x : Float)
  | string (s : String)

/-- A token and the position of its first character. -/
structure PlacedToken where
  token : Token
  pos : Pos

/-- A token and the number of characters it takes after its first one. -/
structure Lexeme where
  token : Token
  tail : Nat

namespace Lexeme

def isNameStart (c : Char) : Bool := c == '_' || c.isAlpha

def isNameRest (c : Char) : Bool := c == '_' || c.isAlphanum

def punctuators : List Char := ['(', ')', '[', ']', '{', '}', '!', '$', ':', '=', '@', '|', '&']

/-! ### Numbers -/

/-- The characters that end a number. -/
def endsNumber (c : Char) : Bool :=
  [' ', '\n', '\r', '\t', ',', '#'].contains c || punctuators.contains c

/-- Whether a text is an integer: zero, or digits that do not start with one, after an optional
minus. -/
def isInteger : List Char → Bool
  | ['0'] | ['-', '0'] => true
  | '0' :: _ | '-' :: '0' :: _ | ['-'] | [] => false
  | _ :: rest => rest.all Char.isDigit

/-- Whether a text is an exponent: a sign, or a digit from one to eight, and then digits. -/
def isExponent : List Char → Bool
  | [] => false
  | c :: rest =>
    (c == '-' || c == '+' || ('0' < c && c < '9')) && rest.all Char.isDigit

/-- An integer within 64 bits. -/
def integer? (cs : List Char) : Option Int :=
  let n := signedValue cs
  if isInteger cs && (-9223372036854775808 ≤ n && n ≤ 9223372036854775807) then some n else none

/-- Split at the last character that satisfies `p`. -/
def splitLast? (p : Char → Bool) (cs : List Char) : Option (List Char × List Char) :=
  let after := cs.reverse.takeWhile (!p ·)
  if after.length < cs.length then
    some (cs.take (cs.length - after.length - 1), after.reverse)
  else none

/-- An integer part, and after it places, an exponent or both. -/
def float? (cs : List Char) : Option Float :=
  let (mantissa, exponent) :=
    match splitLast? (fun c => c == 'e' || c == 'E') cs with
    | some (m, e) => (m, some e)
    | none => (cs, none)
  let (whole, places) :=
    match splitLast? (· == '.') mantissa with
    | some (w, p) => (w, some p)
    | none => (mantissa, none)
  let placesOk := match places with
    | some p => !p.isEmpty && p.all Char.isDigit
    | none => true
  let exponentOk := match exponent with
    | some e => isExponent e
    | none => true
  if isInteger whole && placesOk && exponentOk then readFloat? (String.ofList cs) else none

/-- A number extends to the next separator or punctuator. With a point or an exponent it is a
floating-point number. -/
def number? (cs : List Char) : Option Token :=
  if cs.any fun c => c == '.' || c == 'e' || c == 'E' then (float? cs).map Token.float
  else (integer? cs).map Token.int

/-! ### Strings -/

/-- How many characters a string takes up to its closing quote, which is counted. A newline may not
come before it. -/
def stringLength? (escaped : Bool) : List Char → Option Nat
  | [] => none
  | '\n' :: _ => none
  | '"' :: rest => if escaped then (stringLength? false rest).map (· + 1) else some 1
  | c :: rest => (stringLength? (!escaped && c == '\\') rest).map (· + 1)

def hexDigit? (c : Char) : Option Nat :=
  if c.isDigit then some (c.toNat - '0'.toNat)
  else if 'a' ≤ c && c ≤ 'f' then some (c.toNat - 'a'.toNat + 10)
  else if 'A' ≤ c && c ≤ 'F' then some (c.toNat - 'A'.toNat + 10)
  else none

def hexValue? (ds : List Char) : Option Nat :=
  ds.foldlM (fun n c => (hexDigit? c).map (16 * n + ·)) 0

/-- The character of four hexadecimal digits; a plus may stand for a leading zero. -/
def codePoint? (ds : List Char) : Option Char :=
  match hexValue? (if ds.head? = some '+' then ds.tail else ds) with
  | some n => if n.isValidChar then some (Char.ofNat n) else none
  | none => none

/-- The character that a single letter after a backslash stands for. -/
def shortEscape? (c : Char) : Option Char :=
  if c == '"' || c == '\\' || c == '/' then some c
  else if c == 'b' then some '\x10'
  else if c == 'f' then some '\x0c'
  else if c == 'n' then some '\n'
  else if c == 'r' then some '\r'
  else if c == 't' then some '\t'
  else none

/-- The text between the quotes of a string. -/
def unescape : List Char → Option (List Char)
  | [] => some []
  | '\\' :: 'u' :: a :: b :: c :: d :: rest => do
    let point ← codePoint? [a, b, c, d]
    let text ← unescape rest
    return point :: text
  | '\\' :: e :: rest => do
    let c ← shortEscape? e
    let text ← unescape rest
    return c :: text
  | ['\\'] => none
  | c :: rest => (unescape rest).map (c :: ·)

def quoteMark : List Char := ['"', '"', '"']

/-- How many characters a block string takes up to its closing quotes, which are counted. Quotes
right after a backslash are part of the text. -/
def blockLength? (escaped : Bool) : List Char → Option Nat
  | [] => none
  | '"' :: '"' :: '"' :: rest =>
    if escaped then (blockLength? false rest).map (· + 3) else some 3
  | c :: rest => (blockLength? (c == '\\') rest).map (· + 1)

/-- Replace `\"""` by `"""`. -/
def unescapeBlock : List Char → List Char
  | '\\' :: '"' :: '"' :: '"' :: rest => '"' :: '"' :: '"' :: unescapeBlock rest
  | c :: rest => c :: unescapeBlock rest
  | [] => []

def byteLength (line : List Char) : Nat := line.foldr (fun c n => c.utf8Size + n) 0

/-- Bytes of white space at the start of a line. -/
def indentOf (line : List Char) : Nat := byteLength (line.takeWhile Text.isBlank)

/-- Remove a number of bytes from the start of a line. -/
def dropBytes : Nat → List Char → List Char
  | _, [] => []
  | n, c :: rest => if n = 0 then c :: rest else dropBytes (n - c.utf8Size) rest

/-- A line without the common indent. A shorter line can only be blank and stays as it is. -/
def dedent (indent : Nat) (line : List Char) : List Char :=
  if byteLength line < indent then line else dropBytes indent line

/-- Remove blank lines from the start. -/
def dropBlankLines (lines : List (Nat × List Char)) : List (Nat × List Char) :=
  lines.dropWhile fun l => l.2.all Text.isBlank

/-- The text of a block string: without blank lines at either end and without the indent that all
lines but the very first have in common. -/
def blockText (cs : List Char) : List Char :=
  let lines := (Text.lines cs).mapIdx fun i l => (i, l)
  let indents := lines.filterMap fun l =>
    if l.1 = 0 || l.2.all Text.isBlank then none else some (indentOf l.2)
  let indent := indents.min?.getD 0
  let kept := (dropBlankLines (dropBlankLines lines).reverse).reverse
  ['\n'].intercalate <| kept.map fun l =>
    unescapeBlock (if l.1 = 0 then l.2 else dedent indent l.2)

/-! ### One lexeme -/

/-- The lexeme that starts with `c` before `rest`. -/
def read? (c : Char) (rest : List Char) : Option Lexeme :=
  if punctuators.contains c then some ⟨.punct c, 0⟩
  else if c == '.' then
    if rest.take 2 = ['.', '.'] then some ⟨.spread, 2⟩ else none
  else if isNameStart c then
    let tail := rest.takeWhile isNameRest
    some ⟨.name (String.ofList (c :: tail)), tail.length⟩
  else if c == '-' || c.isDigit then
    let tail := rest.takeWhile (!endsNumber ·)
    (number? (c :: tail)).map (⟨·, tail.length⟩)
  else if c == '"' then
    if rest.take 2 = ['"', '"'] then do
      let n ← blockLength? false (rest.drop 2)
      return ⟨.string (String.ofList (blockText ((rest.drop 2).take (n - 3)))), n + 2⟩
    else do
      let n ← stringLength? false rest
      let text ← unescape (rest.take (n - 1))
      return ⟨.string (String.ofList text), n⟩
  else none

end Lexeme

namespace Pos

/-- The position after the characters of a token. -/
def past (p : Pos) (cs : List Char) : Pos :=
  let breaks := cs.count '\n'
  if breaks = 0 then { p with column := p.column + cs.length }
  else ⟨p.line + breaks, (cs.reverse.takeWhile (· != '\n')).length + 1⟩

/-- The position after a character that separates tokens, if it is one. Returns and byte order
marks have no width, and a tab has eight columns. -/
def pastSeparator? (p : Pos) (c : Char) : Option Pos :=
  if c == ' ' || c == ',' then some { p with column := p.column + 1 }
  else if c == '\t' then some { p with column := p.column + 8 }
  else if c == '\n' then some ⟨p.line + 1, 1⟩
  else if c == '\r' || c == '\uFEFF' then some p
  else none

end Pos

namespace Token

/-- How deep brackets may nest. -/
def nestingLimit : Nat := 50

/-- The number of open brackets after a token, unless there are too many. -/
def nest? (depth : Nat) : Token → Option Nat
  | .punct c =>
    if c == '(' || c == '[' || c == '{' then
      if depth < nestingLimit then some (depth + 1) else none
    else if c == ')' || c == ']' || c == '}' then some (depth - 1)
    else some depth
  | _ => some depth

def endsLine (c : Char) : Bool := c == '\n' || c == '\r'

/-- The tokens of a text from a position on, with `depth` brackets open. A comment ends with the
first line-end character, which alone moves on to the next line. -/
def scan (depth : Nat) (pos : Pos) : List Char → Option (List PlacedToken)
  | [] => some []
  | c :: rest =>
    match pos.pastSeparator? c with
    | some next => scan depth next rest
    | none =>
      if c == '#' then
        scan depth ⟨pos.line + 1, 1⟩ (rest.drop ((rest.takeWhile (!endsLine ·)).length + 1))
      else do
        let lexeme ← Lexeme.read? c rest
        let inner ← lexeme.token.nest? depth
        let more ← scan inner (pos.past (c :: rest.take lexeme.tail)) (rest.drop lexeme.tail)
        return ⟨lexeme.token, pos⟩ :: more
termination_by cs => cs.length
decreasing_by all_goals simp only [List.length_cons, List.length_drop]; omega

def ofText (s : String) : Option (List PlacedToken) := scan 0 {} s.toList

end Token

end SchemaAtlas
