/-!
# White space

The white space of the Unicode standard, and the splitting of a text into lines.
-/

namespace SchemaAtlas.Text

/-- The code points of the White_Space property, as closed ranges. -/
def blankRanges : List (Nat × Nat) :=
  [(0x9, 0xD), (0x20, 0x20), (0x85, 0x85), (0xA0, 0xA0), (0x1680, 0x1680), (0x2000, 0x200A),
    (0x2028, 0x2029), (0x202F, 0x202F), (0x205F, 0x205F), (0x3000, 0x3000)]

def isBlank (c : Char) : Bool :=
  blankRanges.any fun r => r.1 ≤ c.toNat && c.toNat ≤ r.2

/-- Remove white space on both sides. -/
def trim (cs : List Char) : List Char :=
  ((cs.dropWhile isBlank).reverse.dropWhile isBlank).reverse

/-- A return right before the newline belongs to the line end. -/
def dropReturn (line : List Char) : List Char :=
  if line.getLast? = some '\r' then line.dropLast else line

/-- Lines up to `\n` or `\r\n`. A final newline does not start another line, and a return that no
newline follows stays in its line. The first argument collects the line being read. -/
def linesFrom (current : List Char) : List Char → List (List Char)
  | [] => if current.isEmpty then [] else [current]
  | '\n' :: rest => dropReturn current :: linesFrom [] rest
  | c :: rest => linesFrom (current ++ [c]) rest

def lines (cs : List Char) : List (List Char) := linesFrom [] cs

end SchemaAtlas.Text
