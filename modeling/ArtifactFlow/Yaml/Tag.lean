import ArtifactFlow.Json.Text
import ArtifactFlow.Yaml.Cursor

/-!
Tags and the characters of tag addresses. A tag is a handle, which a directive may have bound to
a longer text, and a suffix; an address may hold bytes written as percent escapes.
-/

namespace ArtifactFlow.Yaml

/-- Characters of tag addresses. Inside angle brackets and in directives, `flow` characters may
stand too. -/
def isAddressChar (flow : Bool) (c : Char) : Bool :=
  isNameChar c || ";/?:@&=+$.%!~*'()".toList.contains c || (flow && ",[]".toList.contains c)

def escapedByte? : List Char → Option (Nat × List Char)
  | '%' :: a :: b :: rest => (Json.hexNumber? [a, b]).map (·, rest)
  | _ => none

/-- Number of bytes of a character's UTF-8 form by its first byte. -/
def sequenceLength? (byte : Nat) : Option Nat :=
  if byte < 0x80 then some 1
  else if byte / 32 = 6 then some 2
  else if byte / 16 = 14 then some 3
  else if byte / 8 = 30 then some 4
  else none

def escapedTail? : Nat → Nat → List Char → Option (Nat × List Char)
  | 0, code, s => some (code, s)
  | n + 1, code, s => do
      let (byte, s) ← escapedByte? s
      if byte / 64 = 2 then escapedTail? n (code * 64 + byte % 64) s else none

def escapedChar? (s : List Char) : Option (Char × List Char) := do
  let (byte, s) ← escapedByte? s
  let n ← sequenceLength? byte
  let lead := match n with
    | 1 => byte
    | 2 => byte % 32
    | 3 => byte % 16
    | _ => byte % 8
  let (code, s) ← escapedTail? (n - 1) lead s
  return (Char.ofNat code, s)

def unescapeAddress? : Nat → List Char → Option (List Char)
  | _, [] => some []
  | 0, _ => none
  | fuel + 1, c :: rest =>
      if c = '%' then do
        let (d, rest) ← escapedChar? (c :: rest)
        return d :: (← unescapeAddress? fuel rest)
      else do return c :: (← unescapeAddress? fuel rest)

/-- An address at a position, its escapes resolved, and the position behind it. `given` is the part
that has been read before; the whole may not be empty. -/
def address? (flow : Bool) (given : List Char) (c : Cursor) : Option (List Char × Cursor) := do
  let (raw, c) := c.takeWhile (isAddressChar flow)
  if given.isEmpty && raw.isEmpty then none
  else return (given.drop 1 ++ (← unescapeAddress? raw.length raw), c)

/-- A handle at a position: an exclamation mark, name characters, and perhaps another mark. -/
def handle? (c : Cursor) : Option (List Char × Cursor) :=
  if c.rest.head? == some '!' then
    let (name, c) := c.advance.takeWhile isNameChar
    if c.rest.head? == some '!' then some ('!' :: name ++ ['!'], c.advance)
    else some ('!' :: name, c)
  else none

def tag? (flow : Bool) (c : Cursor) : Option (List Char × List Char × Cursor) := do
  let (handle, suffix, c) ←
    if (c.rest.drop 1).head? == some '<' then do
      let (suffix, c) ← address? true [] (c.advanceBy 2)
      if c.rest.head? == some '>' then pure ([], suffix, c.advance) else none
    else do
      let (handle, c) ← handle? c
      if 1 < handle.length && handle.getLast? == some '!' then
        let (suffix, c) ← address? false [] c
        pure (handle, suffix, c)
      else
        let (suffix, c) ← address? false handle c
        if suffix.isEmpty then pure ([], ['!'], c) else pure (['!'], suffix, c)
  if startsBlank c.rest || (flow && c.rest.head? == some ',') then return (handle, suffix, c)
  else none

end ArtifactFlow.Yaml
