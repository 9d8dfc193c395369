import RouteCatalog.Text.Basic

/-!
# Docstrings

The docstring of a line is the block of comment lines directly above it, read from the lowest line
up. A blank line, a line of code and a magic comment each end the block.
-/

namespace RouteCatalog.Docstring

/-- Whether a trimmed comment speaks to the interpreter and not to the reader. -/
def isMagic (comment : List Char) : Bool :=
  "#!".toList.isPrefixOf comment || Text.occursIn "-*-".toList comment ||
    Text.occursIn "frozen_string_literal:".toList comment ||
    "# encoding:".toList.isPrefixOf comment

/-- Whether a line is a comment that documents what follows. -/
def isDocLine (line : List Char) : Bool :=
  match Text.trim line with
  | '#' :: rest => !isMagic ('#' :: rest)
  | _ => false

/-- The words of a comment line, without its mark and one space after that. -/
def docText (line : List Char) : List Char :=
  match Text.trim line with
  | '#' :: ' ' :: words => words
  | '#' :: words => words
  | words => words

/-- Goes up from a place between lines, line by line, and collects the words of the comments, the
nearest first. A line that is not there ends the way, and so does one that does not document. -/
def collect (lines : List (List Char)) : Nat → List (List Char)
  | 0 => []
  | index + 1 =>
    match lines[index]? with
    | none => []
    | some line => if isDocLine line then docText line :: collect lines index else []

/-- The docstring above a line, which counts from one. -/
def above (source : String) (line : Nat) : String :=
  let collected := collect (Text.lines source.toList) (line - 1)
  "\n".intercalate (collected.reverse.map String.ofList)

end RouteCatalog.Docstring
