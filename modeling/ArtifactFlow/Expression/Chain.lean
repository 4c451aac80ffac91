import ArtifactFlow.Text.Alphanumeric
import ArtifactFlow.Text.Blank
import ArtifactFlow.Text.Split

/-!
Index chains: a name followed by index operations, such as `table['key'][0]`. Keys in quotation
marks may hold anything but their own mark; bare keys end at the closing bracket.
-/

namespace ArtifactFlow

inductive Index where
  /-- A key in quotation marks: always a key of a mapping. -/
  | quoted (key : String)
  /-- A bare key: a key of a mapping or a position in a list. -/
  | bare (key : String)
  deriving DecidableEq, Repr

structure Chain where
  head : String
  indices : List Index
  deriving DecidableEq, Repr

namespace Chain

/-- Why a text is not an index chain. -/
inductive Flaw where
  | noHead (text : String)
  | unexpected (rest : String)
  | unterminatedKey
  | unclosedKey
  | unclosedIndex
  | emptyIndex
  deriving DecidableEq, Repr

def Flaw.message : Flaw → String
  | .noHead text => "'" ++ text ++ "' is not a lookup expression"
  | .unexpected rest => "unexpected text '" ++ rest ++ "'"
  | .unterminatedKey => "unterminated quoted key"
  | .unclosedKey => "expected ']' after quoted key"
  | .unclosedIndex => "unclosed '['"
  | .emptyIndex => "empty index"

def isHeadChar (c : Char) : Bool :=
  Text.isAlphanumeric c || c == '_' || c == '.' || c == '-'

/-- A key in quotation marks and the text behind its bracket, given the text behind the opening
mark. -/
def quotedIndex (mark : Char) (s : List Char) : Except Flaw (Index × List Char) :=
  match Text.cutAt? [mark] s with
  | none => .error .unterminatedKey
  | some (key, after) =>
      match Text.trimStart after with
      | ']' :: rest => .ok (.quoted (String.ofList key), rest)
      | _ => .error .unclosedKey

def bareIndex (s : List Char) : Except Flaw (Index × List Char) :=
  match Text.cutAt? [']'] s with
  | none => .error .unclosedIndex
  | some (key, rest) =>
      let key := Text.trim key
      if key.isEmpty then .error .emptyIndex else .ok (.bare (String.ofList key), rest)

/-- One index and the text behind its bracket, given the text behind the opening bracket. -/
def index (s : List Char) : Except Flaw (Index × List Char) :=
  match Text.trimStart s with
  | '\'' :: rest => quotedIndex '\'' rest
  | '"' :: rest => quotedIndex '"' rest
  | rest => bareIndex rest

theorem length_trimStart_le (s : List Char) : (Text.trimStart s).length ≤ s.length :=
  (List.dropWhile_suffix Text.isBlank).length_le

theorem quotedIndex_length {mark : Char} {s rest : List Char} {i : Index}
    (h : quotedIndex mark s = .ok (i, rest)) : rest.length < s.length := by
  simp only [quotedIndex] at h
  split at h
  · exact absurd h (by simp)
  · rename_i key after hc
    split at h
    · rename_i tail ht
      obtain ⟨-, rfl⟩ : _ ∧ tail = rest := by simpa using h
      have h1 := Text.length_of_cutAt? hc
      have h2 := length_trimStart_le after
      rw [ht] at h2
      simp only [List.length_cons] at h2
      omega
    · exact absurd h (by simp)

theorem bareIndex_length {s rest : List Char} {i : Index}
    (h : bareIndex s = .ok (i, rest)) : rest.length < s.length := by
  simp only [bareIndex] at h
  split at h
  · exact absurd h (by simp)
  · rename_i key after hc
    have h1 := Text.length_of_cutAt? hc
    split at h
    · exact absurd h (by simp)
    · obtain ⟨-, rfl⟩ : _ ∧ after = rest := by simpa using h
      simp only [List.length_cons] at h1
      omega

theorem index_length {s rest : List Char} {i : Index} (h : index s = .ok (i, rest)) :
    rest.length < s.length := by
  have h2 := length_trimStart_le s
  simp only [index] at h
  split at h
  · rename_i tail ht
    have := quotedIndex_length h
    rw [ht] at h2
    simp only [List.length_cons] at h2
    omega
  · rename_i tail ht
    have := quotedIndex_length h
    rw [ht] at h2
    simp only [List.length_cons] at h2
    omega
  · have := bareIndex_length h
    omega

/-- The index operations of a text. Blanks may stand around every bracket. -/
def operations (s : List Char) : Except Flaw (List Index) :=
  match _ht : Text.trimStart s with
  | [] => .ok []
  | '[' :: inner =>
      match _hi : index inner with
      | .error e => .error e
      | .ok (i, rest) =>
          match operations rest with
          | .error e => .error e
          | .ok more => .ok (i :: more)
  | rest => .error (.unexpected (String.ofList rest))
  termination_by s.length
  decreasing_by
    have h1 := index_length _hi
    have h2 := length_trimStart_le s
    rw [_ht] at h2
    simp only [List.length_cons] at h2
    omega

/-- The text before the first opening bracket, and the text from that bracket on. -/
def cutHead (s : List Char) : List Char × List Char :=
  (s.takeWhile (· != '['), s.dropWhile (· != '['))

def parse (s : List Char) : Except Flaw Chain :=
  let (front, rest) := cutHead s
  let head := Text.trim front
  if head.isEmpty || !head.all isHeadChar then .error (.noHead (String.ofList s))
  else
    match operations rest with
    | .error e => .error e
    | .ok is => .ok ⟨String.ofList head, is⟩

end Chain
end ArtifactFlow
