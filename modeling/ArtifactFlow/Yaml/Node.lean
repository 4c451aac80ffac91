import ArtifactFlow.Yaml.Token

/-!
The tree of a YAML document: scalars, lists and mappings with their tags, and aliases that refer to
anchored nodes. `Node.ofTokens?` follows the grammar of block and flow collections; its recursion is
bounded by the number of tokens.
-/

namespace ArtifactFlow.Yaml

structure Properties where
  anchor : Option (List Char)
  tag : Option (List Char)
  deriving DecidableEq, Repr

inductive Node where
  | alias (name : List Char)
  | scalar (properties : Properties) (text : List Char) (plain : Bool)
  | list (properties : Properties) (items : List Node)
  | mapping (properties : Properties) (entries : List (Node × Node))
  deriving Repr

namespace Node

def bare : Properties := ⟨none, none⟩

/-- The node that is understood where none is written. -/
def absent : Node := .scalar bare [] true

/-- What tag handles stand for. -/
abbrev TagBindings := List (List Char × List Char)

def standardTags : TagBindings :=
  [(['!'], ['!']), (['!', '!'], "tag:yaml.org,2002:".toList)]

def resolveTag? (tags : TagBindings) (handle suffix : List Char) : Option (List Char) :=
  if handle.isEmpty then some suffix
  else
    match tags.find? fun (h, _) => h = handle with
    | some (_, address) => some (address ++ suffix)
    | none => none

/-- The properties at the front of tokens: an anchor and a tag in either order. -/
def properties? (tags : TagBindings) : List Token → Option (Properties × List Token)
  | .anchor name :: .tag handle suffix :: rest
  | .tag handle suffix :: .anchor name :: rest => do
      return (⟨some name, some (← resolveTag? tags handle suffix)⟩, rest)
  | .anchor name :: rest => some (⟨some name, none⟩, rest)
  | .tag handle suffix :: rest => do
      return (⟨none, some (← resolveTag? tags handle suffix)⟩, rest)
  | rest => some (bare, rest)

/-- Whether an entry of a block list is left out: the next token belongs to the list. -/
def endsBlockEntry : List Token → Bool
  | .blockEntry :: _ | .blockEnd :: _ => true
  | _ => false

/-- Whether a key or a value of a block mapping is left out. -/
def endsBlockPart : List Token → Bool
  | .key :: _ | .value :: _ | .blockEnd :: _ => true
  | _ => false

/-- Whether an entry of a list without indentation of its own is left out. -/
def endsIndentlessEntry (tokens : List Token) : Bool :=
  endsBlockPart tokens || endsBlockEntry tokens

/-- Whether a part of a flow collection is left out; `close` is the token that closes it. -/
def endsFlowPart (close : Token) : List Token → Bool
  | .flowEntry :: _ => true
  | t :: _ => t = close
  | [] => false

mutual

/-- A node at the front of tokens. In `block` context it may be a block collection; an `indentless`
list may stand under a key of a mapping. -/
def node? (tags : TagBindings) : Nat → (block indentless : Bool) → List Token →
    Option (Node × List Token)
  | 0, _, _, _ => none
  | fuel + 1, block, indentless, tokens =>
      match tokens with
      | .alias name :: rest => some (.alias name, rest)
      | tokens => do
          let (p, rest) ← properties? tags tokens
          match rest with
          | .scalar text plain :: rest =>
              let tag := if p.tag = some ['!'] then none else p.tag
              return (.scalar ⟨p.anchor, tag⟩ text plain, rest)
          | .flowListStart :: rest =>
              let (items, rest) ← flowItems? tags fuel true rest
              return (.list p items, rest)
          | .flowMappingStart :: rest =>
              let (entries, rest) ← flowEntries? tags fuel true rest
              return (.mapping p entries, rest)
          | rest =>
              match indentless, rest with
              | true, .blockEntry :: _ =>
                  let (items, rest) ← indentlessItems? tags fuel rest
                  return (.list p items, rest)
              | _, _ =>
                  match block, rest with
                  | true, .blockListStart :: rest =>
                      let (items, rest) ← blockItems? tags fuel rest
                      return (.list p items, rest)
                  | true, .blockMappingStart :: rest =>
                      let (entries, rest) ← blockEntries? tags fuel rest
                      return (.mapping p entries, rest)
                  | _, rest => if p = bare then none else return (.scalar p [] true, rest)
  termination_by structural fuel => fuel

def blockItems? (tags : TagBindings) : Nat → List Token → Option (List Node × List Token)
  | 0, _ => none
  | fuel + 1, tokens =>
      match tokens with
      | .blockEntry :: rest => do
          let (item, rest) ←
            if endsBlockEntry rest then some (absent, rest) else node? tags fuel true false rest
          let (items, rest) ← blockItems? tags fuel rest
          return (item :: items, rest)
      | .blockEnd :: rest => some ([], rest)
      | _ => none
  termination_by structural fuel => fuel

/-- The items of a list without indentation of its own, up to the first other token. -/
def indentlessItems? (tags : TagBindings) : Nat → List Token → Option (List Node × List Token)
  | 0, _ => none
  | fuel + 1, tokens =>
      match tokens with
      | .blockEntry :: rest => do
          let (item, rest) ←
            if endsIndentlessEntry rest then some (absent, rest)
            else node? tags fuel true false rest
          let (items, rest) ← indentlessItems? tags fuel rest
          return (item :: items, rest)
      | rest => some ([], rest)
  termination_by structural fuel => fuel

def blockEntries? (tags : TagBindings) : Nat → List Token →
    Option (List (Node × Node) × List Token)
  | 0, _ => none
  | fuel + 1, tokens =>
      match tokens with
      | .key :: rest => do
          let (key, rest) ←
            if endsBlockPart rest then some (absent, rest) else node? tags fuel true true rest
          let (value, rest) ←
            match rest with
            | .value :: rest =>
                if endsBlockPart rest then some (absent, rest) else node? tags fuel true true rest
            | rest => some (absent, rest)
          let (entries, rest) ← blockEntries? tags fuel rest
          return ((key, value) :: entries, rest)
      | .blockEnd :: rest => some ([], rest)
      | _ => none
  termination_by structural fuel => fuel

/-- The items of a flow list, up to its bracket. An item announced by a question mark is a mapping
of one entry. -/
def flowItems? (tags : TagBindings) : Nat → (first : Bool) → List Token →
    Option (List Node × List Token)
  | 0, _, _ => none
  | fuel + 1, first, tokens =>
      match first, tokens with
      | _, .flowListEnd :: rest => some ([], rest)
      | first, tokens => do
          let rest ←
            match first, tokens with
            | true, rest => some rest
            | false, .flowEntry :: rest => some rest
            | false, _ => none
          match rest with
          | .flowListEnd :: rest => return ([], rest)
          | .key :: rest =>
              let (key, rest) ←
                match rest with
                | .value :: rest => some (absent, rest)
                | rest =>
                    if endsFlowPart .flowListEnd rest then some (absent, rest.drop 1)
                    else node? tags fuel false false rest
              let (value, rest) ←
                match rest with
                | .value :: rest =>
                    if endsFlowPart .flowListEnd rest then some (absent, rest)
                    else node? tags fuel false false rest
                | rest => some (absent, rest)
              let (items, rest) ← flowItems? tags fuel false rest
              return (.mapping bare [(key, value)] :: items, rest)
          | rest =>
              let (item, rest) ← node? tags fuel false false rest
              let (items, rest) ← flowItems? tags fuel false rest
              return (item :: items, rest)
  termination_by structural fuel => fuel

def flowEntries? (tags : TagBindings) : Nat → (first : Bool) → List Token →
    Option (List (Node × Node) × List Token)
  | 0, _, _ => none
  | fuel + 1, first, tokens =>
      match first, tokens with
      | _, .flowMappingEnd :: rest => some ([], rest)
      | first, tokens => do
          let rest ←
            match first, tokens with
            | true, rest => some rest
            | false, .flowEntry :: rest => some rest
            | false, _ => none
          match rest with
          | .flowMappingEnd :: rest => return ([], rest)
          | .key :: rest =>
              let absentKey := match rest with
                | .value :: _ => true
                | rest => endsFlowPart .flowMappingEnd rest
              let (key, rest) ←
                if absentKey then some (absent, rest) else node? tags fuel false false rest
              let (value, rest) ←
                match rest with
                | .value :: rest =>
                    if endsFlowPart .flowMappingEnd rest then some (absent, rest)
                    else node? tags fuel false false rest
                | rest => some (absent, rest)
              let (entries, rest) ← flowEntries? tags fuel false rest
              return ((key, value) :: entries, rest)
          | rest =>
              let (key, rest) ← node? tags fuel false false rest
              let (entries, rest) ← flowEntries? tags fuel false rest
              return ((key, absent) :: entries, rest)
  termination_by structural fuel => fuel

end

/-- The directives at the front of tokens: the tag bindings they make, in front of the standard
ones, and the tokens behind them. At most one version may be named, and each handle is bound
once. -/
def directives? (versioned : Bool) (tags : TagBindings) : List Token →
    Option (TagBindings × List Token)
  | .versionDirective major minor :: rest =>
      if versioned || major ≠ 1 || (minor ≠ 1 && minor ≠ 2) then none
      else directives? true tags rest
  | .tagDirective handle address :: rest =>
      if tags.any fun (h, _) => h = handle then none
      else directives? versioned (tags ++ [(handle, address)]) rest
  | rest => some (tags ++ standardTags, rest)

def isDirective : Token → Bool
  | .versionDirective .. | .tagDirective .. => true
  | _ => false

/-- The root of a document that is announced by directives or dashes. -/
def announced? (fuel : Nat) (tokens : List Token) : Option (Node × List Token) := do
  let (tags, rest) ← directives? false [] tokens
  match rest with
  | .documentStart :: rest =>
      match rest with
      | [] => return (absent, [])
      | t :: _ =>
          if isDirective t || t = .documentStart || t = .documentEnd then return (absent, rest)
          else node? tags fuel true false rest
  | _ => none

/-- The root of the only document of a stream; `some none` when the stream holds no document. -/
def ofTokens? (tokens : List Token) : Option (Option Node) := do
  let fuel := 2 * tokens.length + 2
  match tokens with
  | [] => return none
  | t :: _ =>
      let (root, rest) ←
        if isDirective t || t = .documentStart then announced? fuel tokens
        else node? standardTags fuel true false tokens
      if (rest.dropWhile (· = .documentEnd)).isEmpty then return some root else none

end Node
end ArtifactFlow.Yaml
