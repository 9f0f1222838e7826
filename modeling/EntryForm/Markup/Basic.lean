import EntryForm.Json.Printer

/-!
# Markup

Markup is a tree of elements and texts. Writing it escapes every text and every attribute value,
so that what stands in them cannot be taken for markup. Only what is raw is written as it stands.
-/

namespace EntryForm

/-- An attribute of an element. Without value it is a flag. -/
structure Attribute where
  name : String
  value : Option String
  deriving DecidableEq, Repr, Inhabited

/-- A piece of markup. -/
inductive Markup
  | text (content : String)
  /-- A text that is not escaped. -/
  | raw (content : String)
  | element (name : String) (attributes : List Attribute) (children : List Markup)
  /-- An element that has no content and no end. -/
  | void (name : String) (attributes : List Attribute)
  deriving Repr, Inhabited

/-- An attribute with a value. -/
def attr (name value : String) : Attribute := ⟨name, some value⟩

/-- A flag that is there if a condition holds. -/
def flag (condition : Bool) (name : String) : List Attribute :=
  if condition then [⟨name, none⟩] else []

/-- An attribute that is there if its value is. -/
def attr? {α : Type} (name : String) (value : Option α) (write : α → String) :
    List Attribute :=
  match value with
  | some a => [⟨name, some (write a)⟩]
  | none => []

namespace Markup

/-- What stands for a character in texts and attribute values. -/
def escapeChar (c : Char) : List Char :=
  match c with
  | '&' => "&amp;".toList
  | '<' => "&lt;".toList
  | '>' => "&gt;".toList
  | '"' => "&quot;".toList
  | c => [c]

def escapeChars (cs : List Char) : List Char := cs.flatMap escapeChar

/-- The text as it is written between tags and in attributes. -/
def escape (s : String) : String := String.ofList (escapeChars s.toList)

/-- The text of an attribute, after a blank. -/
def attributeChars (a : Attribute) : List Char :=
  ' ' :: (a.name.toList ++
    match a.value with
    | some value => '=' :: '"' :: (escapeChars value.toList ++ ['"'])
    | none => [])

/-- The start of an element. -/
def openTag (name : String) (attributes : List Attribute) : List Char :=
  '<' :: (name.toList ++ (attributes.flatMap attributeChars ++ ['>']))

/-- The end of an element. -/
def closeTag (name : String) : List Char :=
  '<' :: '/' :: (name.toList ++ ['>'])

mutual
/-- The text of markup. -/
def chars : Markup → List Char
  | .text content => escapeChars content.toList
  | .raw content => content.toList
  | .element name attributes children =>
    openTag name attributes ++ (charsOf children ++ closeTag name)
  | .void name attributes => openTag name attributes
def charsOf : List Markup → List Char
  | [] => []
  | m :: rest => chars m ++ charsOf rest
end

/-- The text of a row of parts. -/
def render (row : List Markup) : String := String.ofList (charsOf row)

/-- The end of a line. -/
def newline : Markup := .text "\n"

end Markup

end EntryForm
