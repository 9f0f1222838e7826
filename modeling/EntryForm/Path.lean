import EntryForm.Text.Basic

/-!
# Paths of files

A path is a row of names with slashes between them. Empty names and single dots lead nowhere,
and two dots lead back. Names and paths have at most so many bytes, none of which is zero.
-/

namespace EntryForm

/-- A path without what does not matter in it. -/
abbrev Path := List String

namespace Path

/-- The names that a path given as text is made of. -/
def names (text : String) : List String :=
  (Text.split '/' text.toList).map String.ofList

/-- Whether a name leads nowhere. -/
def stays (name : String) : Bool := name == "" || name == "."

/-- The names before the last one that leads anywhere. -/
def before (names : List String) : List String :=
  (names.reverse.dropWhile stays).tail.reverse

/-- Whether a text has no zero byte and not more bytes than a limit. -/
def fits (limit : Nat) (text : String) : Bool :=
  decide (text.utf8ByteSize ≤ limit) && text.toList.all (· != '\x00')

/-- Whether a file or directory can have a name. -/
def isName (name : String) : Bool := fits 255 name

/-- Whether a path given as text can be followed at all. -/
def isPath (text : String) : Bool := fits 4095 text

/-- The last name of a path given as text. -/
def lastName (text : String) : String := ((names text).getLast?).getD ""

/-- Whether a path given as text can name a file. -/
def namesFile (text : String) : Bool :=
  !stays (lastName text) && lastName text != ".." && isName (lastName text)

/-- The path of the directory that a path given as text lies in, empty if it is not named. -/
def parent (text : String) : String :=
  match before (names text) with
  | [] => ""
  | [""] => "/"
  | first :: rest => "/".intercalate (first :: (rest.reverse.dropWhile stays).reverse)

/-- The path of a name in a directory whose path is given as text. -/
def join (directory name : String) : String :=
  if lastName directory == "" then directory ++ name else directory ++ "/" ++ name

end Path

end EntryForm
