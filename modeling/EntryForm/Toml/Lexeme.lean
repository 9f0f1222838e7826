import EntryForm.Json.Reading
import EntryForm.Text.Basic

/-!
# The lexemes of TOML

A scanner takes a lexeme off the front of a text, or fails. Strings, keys, numbers and moments
are scanned here; what follows them is up to the caller.
-/

namespace EntryForm.Toml.Lexeme

/-- Takes something off the front of a text. -/
abbrev Scanner := StateT (List Char) Option

namespace Scanner

/-- The characters not yet taken. -/
def rest : Scanner (List Char) := get

/-- Takes one character of a class. -/
def satisfy (p : Char → Bool) : Scanner Char := do
  match ← get with
  | c :: cs => if p c then set cs; pure c else failure
  | [] => failure

/-- Takes the given characters. -/
def literal (text : String) : Scanner Unit := do
  match Text.after? text.toList (← get) with
  | some cs => set cs
  | none => failure

/-- Takes the given characters if they come next, and tells whether they did. -/
def literal? (text : String) : Scanner Bool := do
  match Text.after? text.toList (← get) with
  | some cs => set cs; pure true
  | none => pure false

/-- Takes all leading characters of a class. -/
def span (p : Char → Bool) : Scanner (List Char) := do
  let cs ← get
  set (cs.dropWhile p)
  pure (cs.takeWhile p)

/-- Takes at least one leading character of a class. -/
def span1 (p : Char → Bool) : Scanner (List Char) := do
  match ← span p with
  | [] => failure
  | cs => pure cs

/-- Takes a number of characters of a class. -/
def exactly (p : Char → Bool) : Nat → Scanner (List Char)
  | 0 => pure []
  | n + 1 => do
    let c ← satisfy p
    let cs ← exactly p n
    pure (c :: cs)

/-- What a scanner takes, as text. -/
def taken {α : Type} (scanner : Scanner α) : Scanner String := do
  let before ← get
  let _ ← scanner
  let after ← get
  pure (String.ofList (before.take (before.length - after.length)))

end Scanner

open Scanner

/-- Blanks within a line. -/
def isSpace (c : Char) : Bool := c == ' ' || c == '\t'

/-- Characters that may stand in comments and literal strings. -/
def isText (c : Char) : Bool :=
  c == '\t' || (decide (32 ≤ c.toNat) && c.toNat != 127)

/-- A character of a key without quotes. -/
def isBareKey (c : Char) : Bool :=
  c.isAlphanum || c == '_' || c == '-'

def spaces : Scanner Unit := do
  let _ ← span isSpace

/-- The end of a line. -/
def newline : Scanner Unit := literal "\n" <|> literal "\r\n"

/-- Passes over a comment, if there is one. -/
def comment : Scanner Unit := do
  if ← literal? "#" then
    let _ ← span isText

/-- Blanks, comments and ends of lines, as often as they alternate. -/
def filler : Nat → Scanner Unit
  | 0 => pure ()
  | fuel + 1 => do
    spaces
    comment
    (do newline; filler fuel) <|> pure ()

/-- The character named by so many hexadecimal digits. -/
def codePoint (count : Nat) : Scanner Char := do
  let ds ← exactly (fun c => (Reading.hexValue? c).isSome) count
  let n := ds.foldl (fun n c => 16 * n + (Reading.hexValue? c).getD 0) 0
  guard (decide (n < 0xD800) || (decide (0xE000 ≤ n) && decide (n < 0x110000)))
  pure (Char.ofNat n)

/-- What a backslash and the characters after it stand for. -/
def escape : Scanner Char := do
  match ← satisfy fun _ => true with
  | 'b' => pure '\x08'
  | 't' => pure '\t'
  | 'n' => pure '\n'
  | 'f' => pure '\x0c'
  | 'r' => pure '\r'
  | '"' => pure '"'
  | '\\' => pure '\\'
  | 'u' => codePoint 4
  | 'U' => codePoint 8
  | _ => failure

/-- The rest of a basic string, up to its quote. -/
def basicRest : Nat → Scanner (List Char)
  | 0 => failure
  | fuel + 1 => do
    match ← satisfy isText with
    | '"' => pure []
    | '\\' => do
      let c ← escape
      let cs ← basicRest fuel
      pure (c :: cs)
    | c => do
      let cs ← basicRest fuel
      pure (c :: cs)

/-- A text in double quotes, with escapes. -/
def basicString : Scanner String := do
  literal "\""
  pure (String.ofList (← basicRest (← rest).length))

/-- A text in single quotes, without escapes. -/
def literalString : Scanner String := do
  literal "'"
  let cs ← span fun c => isText c && c != '\''
  literal "'"
  pure (String.ofList cs)

/-- A run of quotes inside or at the end of a string of several lines: the content it gives, and
whether it closes the string. -/
def quoteRun (quote : Char) : Scanner (List Char × Bool) := do
  let run ← span (· == quote)
  match run.length with
  | 0 => failure
  | 1 => pure (run, false)
  | 2 => pure (run, false)
  | n =>
    guard (decide (n ≤ 5))
    pure (List.replicate (n - 3) quote, true)

/-- Blanks and ends of lines, as often as they alternate. -/
def blankLines : Nat → Scanner Unit
  | 0 => pure ()
  | fuel + 1 => do
    spaces
    (do newline; blankLines fuel) <|> pure ()

/-- A backslash at the end of a line takes the blanks and lines after it away. -/
def lineContinuation : Scanner Unit := do
  spaces
  newline
  blankLines ((← rest).length + 1)

/-- The rest of a string of several lines between `quote`s, with or without escapes. -/
def linesRest (quote : Char) (escapes : Bool) : Nat → Scanner (List Char)
  | 0 => failure
  | fuel + 1 => do
    match (← rest).head? with
    | none => failure
    | some c =>
      if c == quote then
        let (content, closed) ← quoteRun quote
        if closed then pure content else pure (content ++ (← linesRest quote escapes fuel))
      else if c == '\\' && escapes then
        let _ ← satisfy fun _ => true
        (do lineContinuation; linesRest quote escapes fuel) <|> (do
          let c ← escape
          let cs ← linesRest quote escapes fuel
          pure (c :: cs))
      else if isText c then
        let _ ← satisfy fun _ => true
        pure (c :: (← linesRest quote escapes fuel))
      else
        newline
        pure ('\n' :: (← linesRest quote escapes fuel))

/-- A string of several lines; an end of line right after its opening is left out. -/
def linesString (opening : String) (quote : Char) (escapes : Bool) : Scanner String := do
  literal opening
  newline <|> pure ()
  pure (String.ofList (← linesRest quote escapes ((← rest).length + 1)))

/-- A text in any of its four forms. -/
def string : Scanner String :=
  linesString "\"\"\"" '"' true <|> basicString <|> linesString "'''" '\'' false <|> literalString

/-- One part of a key. -/
def keyPart : Scanner String :=
  basicString <|> literalString <|> (String.ofList <$> span1 isBareKey)

/-- The parts after the first of a key with dots. -/
def keyParts : Nat → Scanner (List String)
  | 0 => failure
  | fuel + 1 => do
    spaces
    if ← literal? "." then
      spaces
      let part ← keyPart
      let parts ← keyParts fuel
      pure (part :: parts)
    else pure []

/-- How deep keys and values may nest. -/
def depthLimit : Nat := 80

def key : Scanner (List String) := do
  spaces
  let part ← keyPart
  let parts ← keyParts ((← rest).length + 1)
  guard (decide (parts.length + 1 < depthLimit))
  pure (part :: parts)

/-- Digits of a class, with single underscores between digits. -/
def digitRun (p : Char → Bool) : Scanner (List Char) := do
  let ds ← span fun c => p c || c == '_'
  let pieces := Text.split '_' ds
  guard (pieces.all fun piece => !piece.isEmpty)
  pure pieces.flatten

def isBinary (c : Char) : Bool := c == '0' || c == '1'

def isOctal (c : Char) : Bool := decide ('0' ≤ c) && decide (c ≤ '7')

def isHexadecimal (c : Char) : Bool := (Reading.hexValue? c).isSome

/-- A number written to another base. -/
def radixInteger (lead : String) (p : Char → Bool) (base : Nat) : Scanner Int := do
  literal lead
  let ds ← digitRun p
  pure (ds.foldl (fun n c => base * n + (Reading.hexValue? c).getD 0) 0 : Nat)

/-- A sign, negative if true. -/
def sign : Scanner Bool := do
  if ← literal? "-" then pure true
  else
    let _ ← literal? "+"
    pure false

/-- Digits that do not start with a zero unless that is all. -/
def wholeDigits : Scanner (List Char) := do
  let ds ← digitRun Char.isDigit
  match ds with
  | '0' :: _ :: _ => failure
  | ds => pure ds

/-- An integer in decimal digits, with a sign or without. -/
def decimalInteger : Scanner Int := do
  let negative ← sign
  let n : Int := Numeral.natValue (← wholeDigits)
  pure (if negative then -n else n)

/-- An integer of 64 bits with sign. -/
def integer : Scanner Int := do
  let i ← radixInteger "0x" isHexadecimal 16 <|> radixInteger "0o" isOctal 8 <|>
    radixInteger "0b" isBinary 2 <|> decimalInteger
  guard (decide (-9223372036854775808 ≤ i) && decide (i < 9223372036854775808))
  pure i

/-- An exponent, negative if true, and its digits. -/
def exponent : Scanner (Bool × List Char) := do
  literal "e" <|> literal "E"
  let negative ← sign
  pure (negative, ← digitRun Char.isDigit)

/-- Whether a decimal without sign is too large for floating point. The decimal is `n * 10 ^ e`;
it is less than `10 ^ top` and, unless it is zero, at least `10 ^ (top - 1)`, so only a `top` of
309 needs a closer look. -/
def overflows (whole fraction : List Char) (exponent : Option (Bool × List Char)) : Bool :=
  let n := Numeral.natValue (whole ++ fraction)
  let size : Int := match exponent with
    | none => 0
    | some (true, ds) => -(Numeral.natValue ds : Int)
    | some (false, ds) => Numeral.natValue ds
  let e := size - fraction.length
  let top := e + (Nat.toDigits 10 n).length
  if n = 0 then false
  else if 309 < top then true
  else if top < 309 then false
  else if e < 0 then (Binary64.ofUnits? false (n * Binary64.one) (Nat.pow 10 e.natAbs)).isNone
  else (Binary64.ofNat? (n * Nat.pow 10 e.toNat)).isNone

/-- A floating-point number, whose value nothing reads. -/
def float : Scanner Unit := do
  let negative ← sign
  (literal "inf" <|> literal "nan") <|> (do
    let whole ← wholeDigits
    if ← literal? "." then
      let fraction ← digitRun Char.isDigit
      let e ← (some <$> exponent) <|> pure none
      guard (negative || !overflows whole fraction e)
    else
      let e ← exponent
      guard (negative || !overflows whole [] (some e)))

/-- A number of so many decimal digits between two limits. -/
def field (digits least greatest : Nat) : Scanner Nat := do
  let n := Numeral.natValue (← exactly Char.isDigit digits)
  guard (decide (least ≤ n) && decide (n ≤ greatest))
  pure n

/-- How many days a month has. -/
def daysInMonth (year month : Nat) : Nat :=
  if month = 2 then
    if year % 4 = 0 ∧ (year % 100 ≠ 0 ∨ year % 400 = 0) then 29 else 28
  else if month = 4 ∨ month = 6 ∨ month = 9 ∨ month = 11 then 30
  else 31

def date : Scanner Unit := do
  let year ← field 4 0 9999
  literal "-"
  let month ← field 2 1 12
  literal "-"
  let _ ← field 2 1 (daysInMonth year month)

def time : Scanner Unit := do
  let _ ← field 2 0 23
  literal ":"
  let _ ← field 2 0 59
  literal ":"
  let _ ← field 2 0 60
  if ← literal? "." then
    let _ ← span1 Char.isDigit

/-- The distance of a time from universal time. -/
def offset : Scanner Unit :=
  literal "Z" <|> literal "z" <|> (do
    literal "+" <|> literal "-"
    let _ ← field 2 0 23
    literal ":"
    let _ ← field 2 0 59)

/-- A date, a time, or both. -/
def moment : Scanner Unit :=
  (do
    date
    (do
      literal "T" <|> literal "t" <|> literal " "
      time
      offset <|> pure ()) <|> pure ()) <|> time

end EntryForm.Toml.Lexeme
