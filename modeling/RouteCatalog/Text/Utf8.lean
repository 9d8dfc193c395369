/-!
# Bytes shown as text

A byte sequence that may not be UTF-8 is shown with one replacement character for every maximal
run of bytes that starts an encoded character and does not finish it, and for every byte that
starts none.
-/

namespace RouteCatalog.Text

/-- The character shown for bytes that are not UTF-8. -/
def replacement : Char :=
  '\uFFFD'

/-- Whether a byte lies in a range. -/
def inRange (first last byte : UInt8) : Bool :=
  first ≤ byte && byte ≤ last

/-- The range of the byte after a lead byte, and how many bytes follow that one; `none` for a byte
that leads no sequence. -/
def afterLead? (lead : UInt8) : Option (UInt8 × UInt8 × Nat) :=
  if inRange 0xC2 0xDF lead then some (0x80, 0xBF, 0)
  else if lead == 0xE0 then some (0xA0, 0xBF, 1)
  else if inRange 0xE1 0xEC lead then some (0x80, 0xBF, 1)
  else if lead == 0xED then some (0x80, 0x9F, 1)
  else if inRange 0xEE 0xEF lead then some (0x80, 0xBF, 1)
  else if lead == 0xF0 then some (0x90, 0xBF, 2)
  else if inRange 0xF1 0xF3 lead then some (0x80, 0xBF, 2)
  else if lead == 0xF4 then some (0x80, 0x8F, 2)
  else none

/-- The payload of a lead byte that has `count` bytes after it. -/
def leadPayload (count : Nat) (lead : UInt8) : Nat :=
  lead.toNat % Nat.pow 2 (6 - count)

/-- Reads `count` continuation bytes onto a code point: the character, or the replacement when one
is missing, with the number of bytes read. -/
def readTail : Nat → Nat → Nat → List UInt8 → Char × Nat
  | 0, code, read, _ => (Char.ofNat code, read)
  | count + 1, code, read, byte :: bytes =>
    if inRange 0x80 0xBF byte then readTail count (code * 64 + byte.toNat % 64) (read + 1) bytes
    else (replacement, read)
  | _ + 1, _, read, [] => (replacement, read)

/-- The character that a lead byte and the bytes after it show, with the number of bytes after the
lead that belong to it. -/
def readChar (lead : UInt8) (rest : List UInt8) : Char × Nat :=
  if lead < 0x80 then (Char.ofNat lead.toNat, 0)
  else
    match afterLead? lead, rest with
    | some (first, last, more), byte :: bytes =>
      if inRange first last byte then
        readTail more (leadPayload (more + 1) lead * 64 + byte.toNat % 64) 1 bytes
      else (replacement, 0)
    | _, _ => (replacement, 0)

/-- The characters shown for bytes, after skipping some that belong to a character already shown. -/
def showBytesFrom : Nat → List UInt8 → List Char
  | _, [] => []
  | skip + 1, _ :: bytes => showBytesFrom skip bytes
  | 0, byte :: bytes => (readChar byte bytes).1 :: showBytesFrom (readChar byte bytes).2 bytes

/-- The characters shown for bytes. -/
def showBytes (bytes : List UInt8) : List Char :=
  showBytesFrom 0 bytes

/-- The text that bytes encode, if they are UTF-8. -/
def decodeUtf8? (bytes : List UInt8) : Option String :=
  String.fromUTF8? ⟨bytes.toArray⟩

/-- The bytes that encode a text. -/
def encodeUtf8 (text : String) : List UInt8 :=
  text.toUTF8.data.toList

end RouteCatalog.Text
