/-!
The inside of JSON strings: escapes on the way in and on the way out. `unescape?` and `escape` are
the two directions, and `quote` adds the quotation marks.
-/

namespace ArtifactFlow.Json

def hexDigit? (c : Char) : Option Nat :=
  let n := c.toNat
  if 48 ≤ n ∧ n ≤ 57 then some (n - 48)
  else if 97 ≤ n ∧ n ≤ 102 then some (n - 87)
  else if 65 ≤ n ∧ n ≤ 70 then some (n - 55)
  else none

/-- The number of a run of digits in a base up to sixteen. -/
def numberIn? (base : Nat) (digits : List Char) : Option Nat :=
  digits.foldlM (fun n c => (hexDigit? c).map (base * n + ·)) 0

def hexNumber? (digits : List Char) : Option Nat :=
  numberIn? 16 digits

/-- A unit of a string: a character as it is or a 16-bit code unit from a `\u` escape. -/
inductive Unit where
  | char (c : Char)
  | code (n : Nat)
  deriving DecidableEq, Repr

def shortEscape? : Char → Option Char
  | '"' => some '"'
  | '\\' => some '\\'
  | '/' => some '/'
  | 'b' => some '\x08'
  | 'f' => some '\x0c'
  | 'n' => some '\n'
  | 'r' => some '\r'
  | 't' => some '\t'
  | _ => none

/-- The units of a raw string. Control characters have to be escaped. -/
def units? : List Char → Option (List Unit)
  | [] => some []
  | '\\' :: 'u' :: a :: b :: c :: d :: rest => do
      return .code (← hexNumber? [a, b, c, d]) :: (← units? rest)
  | '\\' :: c :: rest => do return .char (← shortEscape? c) :: (← units? rest)
  | c :: rest => if c.toNat < 32 then none else do return .char c :: (← units? rest)

/-- The characters of units. A character beyond `U+FFFF` is written as a pair of surrogates; a
surrogate without its partner is refused. -/
def join? : List Unit → Option (List Char)
  | [] => some []
  | .char c :: rest => do return c :: (← join? rest)
  | .code n :: .code m :: rest =>
      if 0xD800 ≤ n ∧ n ≤ 0xDBFF then
        if 0xDC00 ≤ m ∧ m ≤ 0xDFFF then do
          return Char.ofNat (0x10000 + (n - 0xD800) * 0x400 + (m - 0xDC00)) :: (← join? rest)
        else none
      else if 0xDC00 ≤ n ∧ n ≤ 0xDFFF then none
      else do return Char.ofNat n :: (← join? (.code m :: rest))
  | .code n :: rest =>
      if 0xD800 ≤ n ∧ n ≤ 0xDFFF then none else do return Char.ofNat n :: (← join? rest)

def unescape? (raw : List Char) : Option (List Char) :=
  units? raw >>= join?

def hexChar (n : Nat) : Char :=
  Nat.digitChar n

/-- A character inside a written string. Only quotation marks, backslashes and control characters
are escaped. -/
def escapeChar (c : Char) : List Char :=
  if c = '"' then ['\\', '"']
  else if c = '\\' then ['\\', '\\']
  else if 32 ≤ c.toNat then [c]
  else if c = '\x08' then ['\\', 'b']
  else if c = '\x0c' then ['\\', 'f']
  else if c = '\n' then ['\\', 'n']
  else if c = '\r' then ['\\', 'r']
  else if c = '\t' then ['\\', 't']
  else ['\\', 'u', '0', '0', hexChar (c.toNat / 16), hexChar (c.toNat % 16)]

def escape (s : List Char) : List Char :=
  s.flatMap escapeChar

def quote (s : String) : List Char :=
  '"' :: escape s.toList ++ ['"']

end ArtifactFlow.Json
