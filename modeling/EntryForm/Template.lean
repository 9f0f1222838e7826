import EntryForm.Json.Printer
import EntryForm.Text.Basic

/-!
# Templates

A reference in a markup text is an at sign and a dotted path, directly followed by a quote or a
tag. `Template.fill` puts the values at the paths in their places, in one pass: what has been
put in is not looked at again.
-/

namespace EntryForm

namespace Json

/-- The part of a value under a key or, in a list, at an index. -/
def step? (key : List Char) : Json → Option Json
  | .obj fields => Fields.get? (String.ofList key) fields
  | .arr items => (Text.count? key).bind (items[·]?)
  | _ => none

/-- Follows steps down into a value. -/
def follow? : List (List Char) → Json → Option Json
  | [], value => some value
  | key :: keys, value => (step? key value).bind (follow? keys)

/-- The part of a value at a dotted path. -/
def lookup? (path : List Char) (value : Json) : Option Json :=
  follow? (Text.split '.' path) value

/-- A value as it stands in markup: texts without quotes, all else as JSON. -/
def plain : Json → List Char
  | .str s => s.toList
  | value => value.chars

end Json

/-- What stands for a path that leads nowhere. -/
def unmatchedReference (path : String) : String := "unmatched reference: @" ++ path

namespace Template

/-- The characters of a path. -/
def isPathChar (c : Char) : Bool := c.isAlphanum || c == '_' || c == '.'

/-- The characters that may follow a reference. -/
def isTerminator (c : Char) : Bool := c == '"' || c == '<'

/-- What stands for a reference to a path. -/
def resolve (data : Json) (path : List Char) : List Char :=
  match data.lookup? path with
  | some value => value.plain
  | none => (unmatchedReference (String.ofList path)).toList

/-- Fills a markup text. `pending` is a path read so far after an at sign, last character
first. -/
def fillFrom (data : Json) : Option (List Char) → List Char → List Char
  | none, [] => []
  | some path, [] => '@' :: path.reverse
  | none, c :: rest =>
    if c = '@' then fillFrom data (some []) rest else c :: fillFrom data none rest
  | some path, c :: rest =>
    if isPathChar c then fillFrom data (some (c :: path)) rest
    else if isTerminator c && !path.isEmpty then
      resolve data path.reverse ++ c :: fillFrom data none rest
    else if c = '@' then '@' :: (path.reverse ++ fillFrom data (some []) rest)
    else '@' :: (path.reverse ++ c :: fillFrom data none rest)

/-- Fills a markup text from data. -/
def fill (markup : String) (data : Json) : String :=
  String.ofList (fillFrom data none markup.toList)

end Template

end EntryForm
