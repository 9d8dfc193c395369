import RouteCatalog.Text.Utf8

/-!
# Paths

A path is a sequence of bytes, which need not be text. It is shown as text with replacement
characters, and named segment by segment.
-/

namespace RouteCatalog

/-- The name of a file or directory, as bytes. -/
abbrev Name := List UInt8

/-- A path to a file or directory, as bytes. -/
structure Path where
  /-- The bytes of the path. -/
  bytes : List UInt8
  deriving DecidableEq, Repr, Inhabited

namespace Path

/-- The byte between two segments. -/
def separator : UInt8 :=
  0x2F

/-- The path that a text spells. -/
def ofString (text : String) : Path :=
  ⟨Text.encodeUtf8 text⟩

/-- The path as a text, if it is one. -/
def text? (path : Path) : Option String :=
  Text.decodeUtf8? path.bytes

/-- The path as shown to a reader. -/
def display (path : Path) : String :=
  String.ofList (Text.showBytes path.bytes)

/-- The path of a name inside a directory. -/
def join (path : Path) (name : Name) : Path :=
  match path.bytes.getLast? with
  | none => ⟨name⟩
  | some last =>
    if last == separator then ⟨path.bytes ++ name⟩ else ⟨path.bytes ++ separator :: name⟩

/-- The segments between separators, empty ones included. -/
def segmentsOf : List UInt8 → List Name
  | [] => [[]]
  | byte :: bytes =>
    if byte == separator then [] :: segmentsOf bytes
    else
      match segmentsOf bytes with
      | [] => [[byte]]
      | segment :: rest => (byte :: segment) :: rest

/-- The segments of the path, empty ones included. -/
def segments (path : Path) : List Name :=
  segmentsOf path.bytes

/-- The name of the directory that a directory itself is: a single dot. -/
def here : Name :=
  [0x2E]

/-- The name of the directory above: two dots. -/
def up : Name :=
  [0x2E, 0x2E]

/-- The segments that lead somewhere: neither empty nor a single dot. -/
def steps (path : Path) : List Name :=
  path.segments.filter fun segment => segment != [] && segment != here

end Path

end RouteCatalog
