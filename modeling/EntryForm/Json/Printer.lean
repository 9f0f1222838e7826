import EntryForm.Decimal.Layout
import EntryForm.Json.Value

/-!
# Writing JSON

`Json.compact` writes a value without blanks, `Json.pretty` with two blanks per level.
-/

namespace EntryForm

/-- The lower-case hexadecimal digit of a number below 16. -/
def hexDigit (n : Nat) : Char :=
  if n < 10 then Char.ofNat (48 + n) else Char.ofNat (87 + n)

namespace Json

/-- Writes one character of a string: quotes, backslashes and control characters are escaped. -/
def escapeChar (c : Char) : List Char :=
  match c with
  | '"' => ['\\', '"']
  | '\\' => ['\\', '\\']
  | '\n' => ['\\', 'n']
  | '\r' => ['\\', 'r']
  | '\t' => ['\\', 't']
  | '\x08' => ['\\', 'b']
  | '\x0c' => ['\\', 'f']
  | c =>
    if c.toNat < 32 then
      ['\\', 'u', '0', '0', hexDigit (c.toNat / 16), hexDigit (c.toNat % 16)]
    else [c]

/-- A text in quotes, with what cannot stand in them escaped. -/
def quote (s : String) : List Char :=
  '"' :: (s.toList.flatMap escapeChar ++ ['"'])

end Json

/-- Writes an integer with all its digits. -/
def Number.intChars (i : Int) : List Char :=
  if i < 0 then '-' :: Nat.toDigits 10 i.natAbs else Nat.toDigits 10 i.natAbs

/-- Writes a number so that integers and floating point numbers stay apart. -/
def Number.chars : Number → List Char
  | .int i => intChars i
  | .real x => Decimal.Layout.data.write x

/-- Writes a number for people, with no exponent. -/
def Number.display : Number → List Char
  | .int i => intChars i
  | .real x => Decimal.Layout.display.write x

namespace Json

mutual
/-- The compact text of a value. -/
def chars : Json → List Char
  | .null => ['n', 'u', 'l', 'l']
  | .bool true => ['t', 'r', 'u', 'e']
  | .bool false => ['f', 'a', 'l', 's', 'e']
  | .num n => n.chars
  | .str s => quote s
  | .arr [] => ['[', ']']
  | .arr (item :: items) => '[' :: (chars item ++ (moreItems items ++ [']']))
  | .obj [] => ['\x7b', '\x7d']
  | .obj ((key, value) :: fields) =>
    '\x7b' :: (quote key ++ ':' :: (chars value ++ (moreFields fields ++ ['\x7d'])))
/-- The items after the first, each after a comma. -/
def moreItems : List Json → List Char
  | [] => []
  | item :: items => ',' :: (chars item ++ moreItems items)
/-- The fields after the first, each after a comma. -/
def moreFields : List (String × Json) → List Char
  | [] => []
  | (key, value) :: fields => ',' :: (quote key ++ ':' :: (chars value ++ moreFields fields))
end

/-- The text of a value without blanks. -/
def compact (value : Json) : String :=
  String.ofList value.chars

/-- A new line at a level of nesting. -/
def newLine (level : Nat) : List Char :=
  '\n' :: List.replicate (2 * level) ' '

mutual
/-- The text of a value whose parts stand on lines of their own. -/
def prettyChars (level : Nat) : Json → List Char
  | .arr [] => ['[', ']']
  | .arr (item :: items) =>
    '[' :: (newLine (level + 1) ++ (prettyChars (level + 1) item ++
      (prettyItems (level + 1) items ++ (newLine level ++ [']']))))
  | .obj [] => ['\x7b', '\x7d']
  | .obj ((key, value) :: fields) =>
    '\x7b' :: (newLine (level + 1) ++ (quote key ++ ':' :: ' ' ::
      (prettyChars (level + 1) value ++
        (prettyFields (level + 1) fields ++ (newLine level ++ ['\x7d'])))))
  | .null => chars .null
  | .bool b => chars (.bool b)
  | .num n => chars (.num n)
  | .str s => chars (.str s)
/-- The items after the first, each on a line of its own. -/
def prettyItems (level : Nat) : List Json → List Char
  | [] => []
  | item :: items => ',' :: (newLine level ++ (prettyChars level item ++ prettyItems level items))
/-- The fields after the first, each on a line of its own. -/
def prettyFields (level : Nat) : List (String × Json) → List Char
  | [] => []
  | (key, value) :: fields =>
    ',' :: (newLine level ++ (quote key ++ ':' :: ' ' ::
      (prettyChars level value ++ prettyFields level fields)))
end

/-- The text of a value with every part on a line of its own. -/
def pretty (value : Json) : String :=
  String.ofList (value.prettyChars 0)

end Json

end EntryForm
