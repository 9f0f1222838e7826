import EntryForm.Toml.Lexeme
import EntryForm.Toml.Tree

/-!
# Reading TOML text

A text is a row of statements, one a line: headers that open a table, and keys with values.
-/

namespace EntryForm.Toml
open Lexeme Lexeme.Scanner

mutual
/-- Reads a value inside `depth` arrays and tables. -/
def value (depth : Nat) : Nat → Scanner Toml
  | 0 => failure
  | fuel + 1 => do
    match (← rest).head? with
    | some '[' =>
      literal "["
      guard (decide (depth + 1 < depthLimit))
      pure (.arr (← items (depth + 1) fuel))
    | some '\x7b' =>
      literal "\x7b"
      guard (decide (depth + 1 < depthLimit))
      spaces
      if ← literal? "\x7d" then pure (.table [])
      else
        let entries ← pairs (depth + 1) fuel []
        pure (.table (entriesToToml entries))
    | some '"' => .str <$> string
    | some '\'' => .str <$> string
    | some 't' => literal "true"; pure (.bool true)
    | some 'f' => literal "false"; pure (.bool false)
    | _ =>
      (.moment <$> taken Lexeme.moment) <|> (.float <$> taken Lexeme.float) <|> (.int <$> integer)
/-- Reads the items of an array up to its bracket. -/
def items (depth : Nat) : Nat → Scanner (List Toml)
  | 0 => failure
  | fuel + 1 => do
    filler ((← rest).length + 1)
    if ← literal? "]" then pure []
    else
      let item ← value depth fuel
      filler ((← rest).length + 1)
      if ← literal? "," then
        let more ← items depth fuel
        pure (item :: more)
      else
        literal "]"
        pure [item]
/-- Reads the entries of a table written in one line, up to its brace. -/
def pairs (depth : Nat) : Nat → Entries → Scanner Entries
  | 0, _ => failure
  | fuel + 1, entries => do
    let path ← key
    literal "="
    spaces
    let v ← value depth fuel
    spaces
    match entries.assign v true path with
    | none => failure
    | some entries =>
      if ← literal? "," then
        spaces
        pairs depth fuel entries
      else
        literal "\x7d"
        pure entries
end

/-- What a text has built so far, and the path of the table that takes its keys. -/
structure Draft where
  root : Entries
  current : List String

/-- Applies a change where the last key of a path belongs. -/
def Draft.atHeader? (draft : Draft) (path : List String)
    (change : String → Entries → Option Entries) : Option Draft := do
  let root ← draft.root.reach (change (← path.getLast?)) path.dropLast
  pure ⟨root, path⟩

/-- Reads one line and applies what it says. -/
def line (draft : Draft) : Scanner Draft := do
  spaces
  match (← rest).head? with
  | some '[' =>
    literal "["
    let element ← literal? "["
    let path ← key
    spaces
    literal (if element then "]]" else "]")
    match draft.atHeader? path (if element then Entries.openElement else Entries.openTable) with
    | some draft => spaces; comment; pure draft
    | none => failure
  | some '#' => comment; pure draft
  | some '\n' => pure draft
  | some '\r' => pure draft
  | none => pure draft
  | _ =>
    let path ← key
    spaces
    literal "="
    spaces
    let v ← value 0 (2 * (← rest).length + 2)
    match draft.root.reach (Entries.assign v true path) draft.current with
    | some root => spaces; comment; pure { draft with root }
    | none => failure

/-- Reads lines up to the end of the text. -/
def lines : Nat → Draft → Scanner Draft
  | 0, _ => failure
  | fuel + 1, draft => do
    let draft ← line draft
    if (← rest).isEmpty then pure draft
    else
      newline
      lines fuel draft

/-- Reads a text as a table. A byte order mark may come first. -/
def ofText? (text : String) : Option (List (String × Toml)) := do
  let cs := match text.toList with
    | '\uFEFF' :: cs => cs
    | cs => cs
  let (draft, _) ← (lines (cs.length + 1) ⟨[], []⟩).run cs
  pure (entriesToToml draft.root)

end EntryForm.Toml
