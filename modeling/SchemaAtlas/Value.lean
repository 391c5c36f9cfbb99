import SchemaAtlas.Decimal.Float
import SchemaAtlas.Text.Quoted

/-!
# Values

The literals a schema can hold: default values and the arguments of directive usages. Integers stay
within 64 bits because nothing else can be read; floating-point numbers are 64-bit.
-/

namespace SchemaAtlas

inductive Value where
  | null
  | boolean (b : Bool)
  | int (n : Int)
  | float (x : Float)
  | string (s : String)
  | enum (name : String)
  | var (name : String)
  | list (items : List Value)
  | object (entries : List (String × Value))

namespace Value

instance : Inhabited Value := ⟨null⟩

def isNull : Value → Bool
  | null => true
  | _ => false

def string? : Value → Option String
  | string s => some s
  | _ => none

/-- Whether an integer fits in 32 bits with a sign. -/
def fitsInt32 (n : Int) : Bool := -2147483648 ≤ n && n ≤ 2147483647

mutual

/-- How a value reads in a message. -/
def text : Value → String
  | null => "null"
  | boolean b => if b then "true" else "false"
  | int n => toString n
  | float x => NumberStyle.message.writeFloat x
  | string s => Text.quoted s
  | enum name => name
  | var name => "$" ++ name
  | list items => "[" ++ ", ".intercalate (itemTexts items) ++ "]"
  | object entries => "\x7b" ++ ", ".intercalate (entryTexts entries) ++ "\x7d"

def itemTexts : List Value → List String
  | [] => []
  | v :: rest => v.text :: itemTexts rest

def entryTexts : List (String × Value) → List String
  | [] => []
  | (key, v) :: rest => (key ++ ": " ++ v.text) :: entryTexts rest

end

/-- Put an entry at its place in the order of keys. An equal key takes the new value. -/
def place {α : Type} (key : String) (a : α) : List (String × α) → List (String × α)
  | [] => [(key, a)]
  | (k, b) :: rest =>
    if key = k then (key, a) :: rest
    else if key < k then (key, a) :: (k, b) :: rest
    else (k, b) :: place key a rest

/-- Entries in the order of their keys; the last entry of a key counts. -/
def sortEntries {α : Type} (entries : List (String × α)) : List (String × α) :=
  entries.foldl (fun sorted e => place e.1 e.2 sorted) []

mutual

/-- Order the entries of every object by key. This is the form in which a literal is read. -/
def canonical : Value → Value
  | list items => list (canonicalItems items)
  | object entries => object (sortEntries (canonicalEntries entries))
  | v => v

def canonicalItems : List Value → List Value
  | [] => []
  | v :: rest => v.canonical :: canonicalItems rest

def canonicalEntries : List (String × Value) → List (String × Value)
  | [] => []
  | (key, v) :: rest => (key, v.canonical) :: canonicalEntries rest

end

mutual

/-- The literal written for a value: objects by key, and an integer that does not fit in 32 bits as
the nearest floating-point number. -/
def literal : Value → Value
  | int n => if fitsInt32 n then int n else float (Float.ofInt n)
  | list items => list (literalItems items)
  | object entries => object (sortEntries (literalEntries entries))
  | v => v

def literalItems : List Value → List Value
  | [] => []
  | v :: rest => v.literal :: literalItems rest

def literalEntries : List (String × Value) → List (String × Value)
  | [] => []
  | (key, v) :: rest => (key, v.literal) :: literalEntries rest

end

end Value

end SchemaAtlas
