import StagedFormat.Yaml.Tokens

/-! The tree of a YAML text: scalars, sequences and mappings. -/

namespace StagedFormat.Yaml

inductive Node where
  | scalar (style : ScalarStyle) (tag : Option String) (text : String)
  | sequence (items : List Node)
  | mapping (entries : List (Node × Node))
  deriving Inhabited

namespace Node

def empty : Node := .scalar .plain none ""

/-- What names stand for while a document is read. -/
structure Names where
  anchors : List (String × Node) := []
  handles : List String := []

/-- A reader of tokens: what it read, the names it knows then, and the tokens after it. -/
abbrev Read (α : Type) := Names → List Token → Except Fault (α × Names × List Token)

/-- The tag that a handle and a suffix make. -/
def resolveTag (names : Names) : String → String → Except Fault String
  | "", suffix => .ok suffix
  | "!", suffix => .ok ("!" ++ suffix)
  | "!!", suffix => .ok ("tag:yaml.org,2002:" ++ suffix)
  | handle, suffix => if names.handles.contains handle then .ok suffix else .error "found undefined tag handle"

/-- Reads the anchor and the tag before a node, in either order. -/
def properties (names : Names) :
    List Token → Except Fault (Option String × Option String × List Token)
  | .anchor name :: .tag handle suffix :: rest | .tag handle suffix :: .anchor name :: rest => do
    return (some name, some (← resolveTag names handle suffix), rest)
  | .anchor name :: rest => .ok (some name, none, rest)
  | .tag handle suffix :: rest => do return (none, some (← resolveTag names handle suffix), rest)
  | rest => .ok (none, none, rest)

def endsBlockItem : List Token → Bool
  | .blockEntry :: _ | .blockEnd :: _ => true
  | _ => false

def endsBlockPart : List Token → Bool
  | .key :: _ | .value :: _ | .blockEnd :: _ => true
  | _ => false

def endsPlainItem (tokens : List Token) : Bool :=
  match tokens with
  | .blockEntry :: _ => true
  | tokens => endsBlockPart tokens

def endsFlowPart (close : Token) : List Token → Bool
  | .flowEntry :: _ => true
  | token :: _ => token == close
  | [] => false

mutual

/-- Reads a node. `block` admits block collections; `bare` admits a sequence that is not indented. -/
def read : (fuel : Nat) → (block bare : Bool) → Read Node
  | 0, _, _, _, _ => .error "nested too deeply"
  | fuel + 1, block, bare, names, tokens => do
    if let .alias name :: rest := tokens then
      match names.anchors.lookup name with
      | some node => return (node, names, rest)
      | none => throw "unknown anchor"
    let (anchor, tag, tokens) ← properties names tokens
    let (node, names, rest) ←
      match tokens with
      | .blockEntry :: _ =>
        if bare then do
          let (items, names, rest) ← plainItems fuel names tokens
          pure (Node.sequence items, names, rest)
        else if anchor.isSome || tag.isSome then pure (.scalar .plain tag "", names, tokens)
        else throw "did not find expected node content"
      | .scalar style text :: rest => pure (.scalar style tag text, names, rest)
      | .flowSequenceStart :: rest => do
        let (items, names, rest) ← flowItems fuel true names rest
        pure (Node.sequence items, names, rest)
      | .flowMappingStart :: rest => do
        let (entries, names, rest) ← flowEntries fuel true names rest
        pure (Node.mapping entries, names, rest)
      | .blockSequenceStart :: rest =>
        if block then do
          let (items, names, rest) ← blockItems fuel names rest
          pure (Node.sequence items, names, rest)
        else throw "did not find expected node content"
      | .blockMappingStart :: rest =>
        if block then do
          let (entries, names, rest) ← blockEntries fuel names rest
          pure (Node.mapping entries, names, rest)
        else throw "did not find expected node content"
      | tokens =>
        if anchor.isSome || tag.isSome then pure (.scalar .plain tag "", names, tokens)
        else throw "did not find expected node content"
    match anchor with
    | some name => return (node, { names with anchors := (name, node) :: names.anchors }, rest)
    | none => return (node, names, rest)

/-- Reads a node, or an empty scalar if the tokens already end this part. -/
def readOrEmpty : (fuel : Nat) → (block bare ended : Bool) → Read Node
  | 0, _, _, _, _, _ => .error "nested too deeply"
  | fuel + 1, block, bare, ended, names, tokens =>
    if ended then .ok (empty, names, tokens) else read fuel block bare names tokens

def blockItems : (fuel : Nat) → Read (List Node)
  | 0, _, _ => .error "nested too deeply"
  | fuel + 1, names, tokens => do
    match tokens with
    | .blockEntry :: rest =>
      let (item, names, rest) ← readOrEmpty fuel true false (endsBlockItem rest) names rest
      let (items, names, rest) ← blockItems fuel names rest
      return (item :: items, names, rest)
    | .blockEnd :: rest => return ([], names, rest)
    | _ => throw "did not find expected '-' indicator"

def plainItems : (fuel : Nat) → Read (List Node)
  | 0, _, _ => .error "nested too deeply"
  | fuel + 1, names, tokens => do
    match tokens with
    | .blockEntry :: rest =>
      let (item, names, rest) ← readOrEmpty fuel true false (endsPlainItem rest) names rest
      let (items, names, rest) ← plainItems fuel names rest
      return (item :: items, names, rest)
    | _ => return ([], names, tokens)

def blockEntries : (fuel : Nat) → Read (List (Node × Node))
  | 0, _, _ => .error "nested too deeply"
  | fuel + 1, names, tokens => do
    match tokens with
    | .key :: rest =>
      let (key, names, rest) ← readOrEmpty fuel true true (endsBlockPart rest) names rest
      let (value, names, rest) ←
        match rest with
        | .value :: rest => readOrEmpty fuel true true (endsBlockPart rest) names rest
        | rest => pure (empty, names, rest)
      let (entries, names, rest) ← blockEntries fuel names rest
      return ((key, value) :: entries, names, rest)
    | .blockEnd :: rest => return ([], names, rest)
    | _ => throw "did not find expected key"

/-- Reads the value of a flow entry, up to `close` or the next entry. -/
def flowValue : (fuel : Nat) → (close : Token) → Read Node
  | 0, _, _, _ => .error "nested too deeply"
  | fuel + 1, close, names, tokens =>
    match tokens with
    | .value :: rest => readOrEmpty fuel false false (endsFlowPart close rest) names rest
    | tokens => .ok (empty, names, tokens)

/-- Reads one entry of a flow mapping, after the sign of its key. -/
def flowPair : (fuel : Nat) → (close : Token) → Read (Node × Node)
  | 0, _, _, _ => .error "nested too deeply"
  | fuel + 1, close, names, tokens => do
    let ended :=
      match tokens with
      | .value :: _ => true
      | tokens => endsFlowPart close tokens
    let (key, names, rest) ← readOrEmpty fuel false false ended names tokens
    let (value, names, rest) ← flowValue fuel close names rest
    return ((key, value), names, rest)

def flowItems : (fuel : Nat) → (first : Bool) → Read (List Node)
  | 0, _, _, _ => .error "nested too deeply"
  | fuel + 1, first, names, tokens => do
    if let .flowSequenceEnd :: rest := tokens then return ([], names, rest)
    let tokens ←
      match first, tokens with
      | true, tokens => pure tokens
      | false, .flowEntry :: rest => pure rest
      | false, _ => throw "did not find expected ',' or ']'"
    match tokens with
    | .flowSequenceEnd :: rest => return ([], names, rest)
    | .key :: rest =>
      let (pair, names, rest) ← flowPair fuel .flowSequenceEnd names rest
      let (items, names, rest) ← flowItems fuel false names rest
      return (.mapping [pair] :: items, names, rest)
    | tokens =>
      let (item, names, rest) ← read fuel false false names tokens
      let (items, names, rest) ← flowItems fuel false names rest
      return (item :: items, names, rest)

def flowEntries : (fuel : Nat) → (first : Bool) → Read (List (Node × Node))
  | 0, _, _, _ => .error "nested too deeply"
  | fuel + 1, first, names, tokens => do
    if let .flowMappingEnd :: rest := tokens then return ([], names, rest)
    let tokens ←
      match first, tokens with
      | true, tokens => pure tokens
      | false, .flowEntry :: rest => pure rest
      | false, _ => throw "did not find expected ',' or closing brace"
    match tokens with
    | .flowMappingEnd :: rest => return ([], names, rest)
    | .key :: rest =>
      let (pair, names, rest) ← flowPair fuel .flowMappingEnd names rest
      let (entries, names, rest) ← flowEntries fuel false names rest
      return (pair :: entries, names, rest)
    | tokens =>
      let (key, names, rest) ← read fuel false false names tokens
      let (entries, names, rest) ← flowEntries fuel false names rest
      return ((key, empty) :: entries, names, rest)

end

/-- Reads the directives before a document. -/
def directives : (handles : List String) → (version : Bool) → List Token → Except Fault (List String × List Token)
  | handles, seen, .versionDirective major minor :: rest =>
    if seen then .error "found duplicate %YAML directive"
    else if major = 1 ∧ (minor = 1 ∨ minor = 2) then directives handles true rest
    else .error "found incompatible YAML document"
  | handles, seen, .tagDirective handle :: rest =>
    if handles.contains handle then .error "found duplicate %TAG directive"
    else directives (handle :: handles) seen rest
  | handles, _, tokens => .ok (handles, tokens)

/-- The one document of a text; `none` if the text holds none. -/
def ofText? (text : String) : Except Fault (Option Node) := do
  let tokens ← tokens text.toList
  if tokens.isEmpty then return none
  let (handles, rest) ← directives [] false tokens
  let (marked, rest) := match rest with
    | .documentStart :: rest => (true, rest)
    | rest => (false, rest)
  if !marked && rest.length < tokens.length then throw "did not find expected <document start>"
  let names : Names := { handles }
  let (node, _, rest) ←
    match rest with
    | [] | .documentStart :: _ | .documentEnd :: _ | .versionDirective _ _ :: _ | .tagDirective _ :: _ =>
      pure (empty, names, rest)
    | rest => read (3 * tokens.length + 3) true false names rest
  match rest.dropWhile (· == .documentEnd) with
  | [] => return some node
  | _ => throw "more than one document"

end Node

end StagedFormat.Yaml
