import ArtifactFlow.Json.Token

/-!
JSON text to values. A machine with a stack of open containers takes one token at a time. Nesting
is bounded; a key that stands twice keeps its first place and its last value.
-/

namespace ArtifactFlow.Json

def maxNesting : Nat := 128

/-- A container that has been opened and not yet closed. -/
inductive Frame where
  /-- Items so far, in reverse. -/
  | list (items : List Value)
  /-- Entries so far, and the key whose value is being read. -/
  | mapping (fields : Mapping) (key : String)

/-- What may come next. -/
inductive Awaits where
  | value
  | itemOrClose
  | keyOrClose (fields : Mapping)
  | key (fields : Mapping)
  | colon (fields : Mapping) (key : String)
  /-- A container has just received a value. -/
  | separator
  /-- The document's value is complete. -/
  | nothing (result : Value)

structure Reader where
  stack : List Frame
  awaits : Awaits

namespace Reader

def start : Reader := ⟨[], .value⟩

def deliver (stack : List Frame) (v : Value) : Reader :=
  match stack with
  | [] => ⟨[], .nothing v⟩
  | .list items :: rest => ⟨.list (v :: items) :: rest, .separator⟩
  | .mapping fields key :: rest => ⟨.mapping (Fields.insert key v fields) key :: rest, .separator⟩

def openValue? (stack : List Frame) : Token → Option Reader
  | .scalar v => some (deliver stack v)
  | .listOpen =>
      if stack.length + 1 < maxNesting then some ⟨.list [] :: stack, .itemOrClose⟩ else none
  | .mappingOpen =>
      if stack.length + 1 < maxNesting then some ⟨stack, .keyOrClose []⟩ else none
  | _ => none

def step? (r : Reader) (t : Token) : Option Reader :=
  match r.awaits, t with
  | .value, t => openValue? r.stack t
  | .itemOrClose, .listClose =>
      match r.stack with
      | .list items :: rest => some (deliver rest (.list items.reverse))
      | _ => none
  | .itemOrClose, t => openValue? r.stack t
  | .keyOrClose fields, .mappingClose => some (deliver r.stack (.mapping fields))
  | .keyOrClose fields, .scalar (.string key) => some ⟨r.stack, .colon fields key⟩
  | .key fields, .scalar (.string key) => some ⟨r.stack, .colon fields key⟩
  | .colon fields key, .colon => some ⟨.mapping fields key :: r.stack, .value⟩
  | .separator, .comma =>
      match r.stack with
      | .list _ :: _ => some ⟨r.stack, .value⟩
      | .mapping fields _ :: rest => some ⟨rest, .key fields⟩
      | [] => none
  | .separator, .listClose =>
      match r.stack with
      | .list items :: rest => some (deliver rest (.list items.reverse))
      | _ => none
  | .separator, .mappingClose =>
      match r.stack with
      | .mapping fields _ :: rest => some (deliver rest (.mapping fields))
      | _ => none
  | _, _ => none

def finish? (r : Reader) : Option Value :=
  match r.awaits with
  | .nothing v => some v
  | _ => none

end Reader

def parse? (s : List Char) : Option Value := do
  (← (← tokens? s).foldlM Reader.step? Reader.start).finish?

def parseString? (s : String) : Option Value :=
  parse? s.toList

end ArtifactFlow.Json
