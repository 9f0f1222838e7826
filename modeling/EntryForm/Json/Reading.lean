import EntryForm.Json.Numeral

/-!
# Reading JSON text

A `Reading` is what a text says up to the place where it stops being JSON. Whoever takes a
value out of it meets the faults of the text in the order in which they stand there.
-/

namespace EntryForm

/-- How a row of parts ends: at its bracket, nowhere because the text is at fault, or by its
count because it belongs to a value already known. -/
inductive Ending
  | bracket
  | missing
  | counted
  deriving DecidableEq, Repr

/-- A text read as far as it is JSON. -/
inductive Reading
  | null
  | bool (value : Bool)
  /-- A numeral, without value if it is too large. -/
  | num (value : Option Number)
  /-- A string, without value if it holds half of a surrogate pair. -/
  | str (value : Option String)
  | arr (items : List Reading) (ending : Ending)
  | obj (fields : List (Option String × Reading)) (ending : Ending)
  /-- An array or object inside 127 others. -/
  | deep (inner : Reading)
  /-- A place where no value can be read. -/
  | fault
  deriving Repr, Inhabited

namespace Reading

/-- How many arrays and objects may lie around each other. -/
def maxDepth : Nat := 127

/-- White space between the parts of a text. -/
def isBlank (c : Char) : Bool :=
  c == ' ' || c == '\t' || c == '\n' || c == '\r'

def skipBlank (cs : List Char) : List Char :=
  cs.dropWhile isBlank

/-- The value of a hexadecimal digit. -/
def hexValue? (c : Char) : Option Nat :=
  if c.isDigit then some (c.toNat - 48)
  else if 'a' ≤ c ∧ c ≤ 'f' then some (c.toNat - 87)
  else if 'A' ≤ c ∧ c ≤ 'F' then some (c.toNat - 55)
  else none

/-- The value of four hexadecimal digits. -/
def hexValue4? (a b c d : Char) : Option Nat := do
  pure (((← hexValue? a) * 16 + (← hexValue? b)) * 256 + (← hexValue? c) * 16 + (← hexValue? d))

/-- A part of a string: a character, or a 16-bit unit given by number. -/
inductive Piece
  | char (value : Char)
  | unit (value : Nat)
  deriving DecidableEq, Repr

/-- The character named by the letter of an escape. -/
def escaped? : Char → Option Char
  | '"' => some '"'
  | '\\' => some '\\'
  | '/' => some '/'
  | 'b' => some '\x08'
  | 'f' => some '\x0c'
  | 'n' => some '\n'
  | 'r' => some '\r'
  | 't' => some '\t'
  | _ => none

/-- The pieces of a string up to its closing quote, and what follows the quote. -/
def pieces? : List Char → Option (List Piece × List Char)
  | [] => none
  | '"' :: rest => some ([], rest)
  | '\\' :: 'u' :: a :: b :: c :: d :: rest => do
    let unit ← hexValue4? a b c d
    let (pieces, rest) ← pieces? rest
    pure (.unit unit :: pieces, rest)
  | '\\' :: c :: rest => do
    let c ← escaped? c
    let (pieces, rest) ← pieces? rest
    pure (.char c :: pieces, rest)
  | c :: rest =>
    if c.toNat < 32 || c == '\\' then none
    else do
      let (pieces, rest) ← pieces? rest
      pure (.char c :: pieces, rest)

/-- Joins surrogate pairs. Half a pair has no character. -/
def join? : List Piece → Option (List Char)
  | [] => some []
  | .char c :: rest => (join? rest).map (c :: ·)
  | .unit n :: rest =>
    if n < 0xD800 ∨ 0xE000 ≤ n then (join? rest).map (Char.ofNat n :: ·)
    else if 0xDC00 ≤ n then none
    else
      match rest with
      | .unit low :: rest =>
        if 0xDC00 ≤ low ∧ low < 0xE000 then
          (join? rest).map (Char.ofNat (0x10000 + (n - 0xD800) * 1024 + (low - 0xDC00)) :: ·)
        else none
      | _ => none

/-- Reads a string after its opening quote. -/
def readString? (cs : List Char) : Option (Option String × List Char) := do
  let (pieces, rest) ← pieces? cs
  pure ((join? pieces).map String.ofList, rest)

/-- Marks an array or object that lies too deep. -/
def limit (depth : Nat) (reading : Reading) : Reading :=
  if maxDepth ≤ depth then .deep reading else reading

mutual
/-- Reads one value inside `depth` arrays and objects. What follows is absent if the text is at
fault inside the value. -/
def readValue (depth : Nat) : Nat → List Char → Reading × Option (List Char)
  | 0, _ => (.fault, none)
  | fuel + 1, cs =>
    match skipBlank cs with
    | '[' :: rest =>
      let (items, ending, rest) := readItems (depth + 1) fuel true rest
      (limit depth (.arr items ending), rest)
    | '\x7b' :: rest =>
      let (fields, ending, rest) := readFields (depth + 1) fuel true rest
      (limit depth (.obj fields ending), rest)
    | '"' :: rest =>
      match readString? rest with
      | some (s, rest) => (.str s, some rest)
      | none => (.fault, none)
    | 'n' :: 'u' :: 'l' :: 'l' :: rest => (.null, some rest)
    | 't' :: 'r' :: 'u' :: 'e' :: rest => (.bool true, some rest)
    | 'f' :: 'a' :: 'l' :: 's' :: 'e' :: rest => (.bool false, some rest)
    | cs =>
      match Numeral.scan? cs with
      | some (x, rest) => (.num x.value?, some rest)
      | none => (.fault, none)
/-- Reads the items of an array up to its bracket, the first of all or those after a comma. -/
def readItems (depth : Nat) : Nat → Bool → List Char →
    List Reading × Ending × Option (List Char)
  | 0, _, _ => ([], .missing, none)
  | fuel + 1, first, cs =>
    match first, skipBlank cs with
    | true, ']' :: rest => ([], .bracket, some rest)
    | _, cs =>
      match readValue depth fuel cs with
      | (item, none) => ([item], .missing, none)
      | (item, some rest) =>
        match skipBlank rest with
        | ']' :: rest => ([item], .bracket, some rest)
        | ',' :: rest =>
          let (items, ending, rest) := readItems depth fuel false rest
          (item :: items, ending, rest)
        | _ => ([item], .missing, none)
/-- Reads the fields of an object up to its brace, the first of all or those after a comma. -/
def readFields (depth : Nat) : Nat → Bool → List Char →
    List (Option String × Reading) × Ending × Option (List Char)
  | 0, _, _ => ([], .missing, none)
  | fuel + 1, first, cs =>
    match first, skipBlank cs with
    | true, '\x7d' :: rest => ([], .bracket, some rest)
    | _, '"' :: rest =>
      match readString? rest with
      | none => ([], .missing, none)
      | some (key, rest) =>
        match skipBlank rest with
        | ':' :: rest =>
          match readValue depth fuel rest with
          | (value, none) => ([(key, value)], .missing, none)
          | (value, some rest) =>
            match skipBlank rest with
            | '\x7d' :: rest => ([(key, value)], .bracket, some rest)
            | ',' :: rest =>
              let (fields, ending, rest) := readFields depth fuel false rest
              ((key, value) :: fields, ending, rest)
            | _ => ([(key, value)], .missing, none)
        | _ => ([(key, .fault)], .missing, none)
    | _, _ => ([], .missing, none)
end

/-- Reads a text, and tells whether nothing but blanks follows the value. Every step of the
reader takes a character or descends after taking one, so twice the length is enough. -/
def ofText (text : List Char) : Reading × Bool :=
  match readValue 0 (2 * text.length + 2) text with
  | (reading, some rest) => (reading, (skipBlank rest).isEmpty)
  | (reading, none) => (reading, false)

mutual
/-- The reading of a value already known. -/
def ofJson : Json → Reading
  | .null => .null
  | .bool b => .bool b
  | .num n => .num (some n)
  | .str s => .str (some s)
  | .arr items => .arr (ofItems items) .counted
  | .obj fields => .obj (ofFields fields) .bracket
def ofItems : List Json → List Reading
  | [] => []
  | item :: items => ofJson item :: ofItems items
def ofFields : List (String × Json) → List (Option String × Reading)
  | [] => []
  | (key, value) :: fields => (some key, ofJson value) :: ofFields fields
end

end Reading

end EntryForm
