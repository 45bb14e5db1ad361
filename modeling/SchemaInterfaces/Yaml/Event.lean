import SchemaInterfaces.Yaml.Token

/-!
# YAML events

The nodes of a document in writing order: scalars, references to anchors, and the beginnings and
ends of sequences and mappings. Missing nodes are empty scalars and tags are written out. A text
holds one document.
-/
namespace SchemaInterfaces.Yaml

inductive Event where
  | alias (name : String)
  | scalar (anchor tag : Option String) (text : String) (plain : Bool)
  | sequenceStart (anchor tag : Option String)
  | sequenceEnd
  | mappingStart (anchor tag : Option String)
  | mappingEnd

/-- A node that is not written. -/
def Event.missing : Event := .scalar none none "" true

/-- The handles that are always known. -/
def standardHandles : List (String × String) :=
  [("!", "!"), ("!!", "tag:yaml.org,2002:")]

/-- The handles of a document; its own come before the standard ones. -/
structure Grammar where
  handles : List (String × String)

/-- Events and the tokens behind them. -/
abbrev EventStep := Option (List Event × List Token)

/-- Puts events in front of the ones that follow. -/
def EventStep.after (events : List Event) (step : EventStep) : EventStep :=
  step.map fun (more, tokens) => (events ++ more, tokens)

namespace Grammar

/-- A tag written out. A handle has to be known; an empty one stands before a full tag. -/
def expandTag? (grammar : Grammar) (handle text : String) : Option String :=
  if handle = "" then some text
  else (grammar.handles.lookup handle).map (· ++ text)

/-- Anchor and tag of a node, which may stand in either order. -/
def properties? (grammar : Grammar) (tokens : List Token) :
    Option (Option String × Option String × List Token) :=
  match tokens with
  | .anchor name :: .tag handle text :: rest =>
    (grammar.expandTag? handle text).map fun tag => (some name, some tag, rest)
  | .anchor name :: rest => some (some name, none, rest)
  | .tag handle text :: .anchor name :: rest =>
    (grammar.expandTag? handle text).map fun tag => (some name, some tag, rest)
  | .tag handle text :: rest =>
    (grammar.expandTag? handle text).map fun tag => (none, some tag, rest)
  | rest => some (none, none, rest)

/-- A value is missing in front of the next key, value or end of the block. -/
def endsBlockValue : List Token → Bool
  | .key :: _ => true
  | .value :: _ => true
  | .blockEnd :: _ => true
  | _ => false

/-- An entry of a sequence is missing in front of the next entry or the end of the block. -/
def endsBlockEntry : List Token → Bool
  | .entry :: _ => true
  | .blockEnd :: _ => true
  | _ => false

/-- An entry of a sequence without a block of its own ends with the mapping around it as well. -/
def endsBareEntry : List Token → Bool
  | .entry :: _ => true
  | tokens => endsBlockValue tokens

/-- Nothing stands in front of a comma or the end of a flow sequence. -/
def endsFlowItem : List Token → Bool
  | .flowEntry :: _ => true
  | .flowSequenceEnd :: _ => true
  | _ => false

/-- Nothing stands in front of a comma or the end of a flow mapping. -/
def endsFlowPair : List Token → Bool
  | .flowEntry :: _ => true
  | .flowMappingEnd :: _ => true
  | _ => false

def startsValue : List Token → Bool
  | .value :: _ => true
  | _ => false

mutual

/-- A node. Outside flow collections blocks may begin; where `bare` holds, a sequence may begin
without a block of its own. The depth of calls is bounded by the number of tokens. -/
def node (grammar : Grammar) (block bare : Bool) : Nat → List Token → EventStep
  | 0, _ => none
  | depth + 1, tokens =>
    match tokens with
    | .alias name :: rest => some ([.alias name], rest)
    | _ =>
      match grammar.properties? tokens with
      | none => none
      | some (anchor, tag, rest) =>
        match rest with
        | .scalar text plain :: rest => some ([.scalar anchor tag text plain], rest)
        | .flowSequenceStart :: rest =>
          .after [.sequenceStart anchor tag] (grammar.flowItems true depth rest)
        | .flowMappingStart :: rest =>
          .after [.mappingStart anchor tag] (grammar.flowPairs true depth rest)
        | .entry :: _ =>
          if bare then .after [.sequenceStart anchor tag] (grammar.bareEntries depth rest)
          else if anchor.isSome || tag.isSome then some ([.scalar anchor tag "" true], rest)
          else none
        | .sequenceStart :: inner =>
          if block then .after [.sequenceStart anchor tag] (grammar.blockEntries depth inner)
          else if anchor.isSome || tag.isSome then some ([.scalar anchor tag "" true], rest)
          else none
        | .mappingStart :: inner =>
          if block then .after [.mappingStart anchor tag] (grammar.blockPairs depth inner)
          else if anchor.isSome || tag.isSome then some ([.scalar anchor tag "" true], rest)
          else none
        | _ =>
          if anchor.isSome || tag.isSome then some ([.scalar anchor tag "" true], rest)
          else none

/-- The entries of a block sequence. -/
def blockEntries (grammar : Grammar) : Nat → List Token → EventStep
  | 0, _ => none
  | depth + 1, tokens =>
    match tokens with
    | .entry :: rest =>
      if endsBlockEntry rest then .after [.missing] (grammar.blockEntries depth rest)
      else
        match grammar.node true false depth rest with
        | none => none
        | some (events, rest) => .after events (grammar.blockEntries depth rest)
    | .blockEnd :: rest => some ([.sequenceEnd], rest)
    | _ => none

/-- The entries of a sequence that has no block of its own. -/
def bareEntries (grammar : Grammar) : Nat → List Token → EventStep
  | 0, _ => none
  | depth + 1, tokens =>
    match tokens with
    | .entry :: rest =>
      if endsBareEntry rest then .after [.missing] (grammar.bareEntries depth rest)
      else
        match grammar.node true false depth rest with
        | none => none
        | some (events, rest) => .after events (grammar.bareEntries depth rest)
    | _ => some ([.sequenceEnd], tokens)

/-- The pairs of a block mapping. -/
def blockPairs (grammar : Grammar) : Nat → List Token → EventStep
  | 0, _ => none
  | depth + 1, tokens =>
    match tokens with
    | .key :: rest =>
      if endsBlockValue rest then .after [.missing] (grammar.blockValue depth rest)
      else
        match grammar.node true true depth rest with
        | none => none
        | some (events, rest) => .after events (grammar.blockValue depth rest)
    | .blockEnd :: rest => some ([.mappingEnd], rest)
    | _ => none

/-- The value of a pair and the pairs behind it. -/
def blockValue (grammar : Grammar) : Nat → List Token → EventStep
  | 0, _ => none
  | depth + 1, tokens =>
    match tokens with
    | .value :: rest =>
      if endsBlockValue rest then .after [.missing] (grammar.blockPairs depth rest)
      else
        match grammar.node true true depth rest with
        | none => none
        | some (events, rest) => .after events (grammar.blockPairs depth rest)
    | _ => .after [.missing] (grammar.blockPairs depth tokens)

/-- The items of a flow sequence. A key among them makes a mapping of one pair; where that key is
missing, the token in its place is passed. -/
def flowItems (grammar : Grammar) (first : Bool) : Nat → List Token → EventStep
  | 0, _ => none
  | depth + 1, tokens =>
    match tokens with
    | .flowSequenceEnd :: rest => some ([.sequenceEnd], rest)
    | _ =>
      let items? :=
        match tokens with
        | .flowEntry :: rest => if first then some tokens else some rest
        | _ => if first then some tokens else none
      match items? with
      | none => none
      | some items =>
        match items with
        | .flowSequenceEnd :: rest => some ([.sequenceEnd], rest)
        | .key :: rest =>
          let key : EventStep :=
            if startsValue rest || endsFlowItem rest then some ([.missing], rest.drop 1)
            else grammar.node false false depth rest
          match key with
          | none => none
          | some (keyEvents, rest) =>
            let value : EventStep :=
              match rest with
              | .value :: rest =>
                if endsFlowItem rest then some ([.missing], rest)
                else grammar.node false false depth rest
              | _ => some ([.missing], rest)
            match value with
            | none => none
            | some (valueEvents, rest) =>
              .after ([.mappingStart none none] ++ keyEvents ++ valueEvents ++ [.mappingEnd])
                (grammar.flowItems false depth rest)
        | _ =>
          match grammar.node false false depth items with
          | none => none
          | some (events, rest) => .after events (grammar.flowItems false depth rest)

/-- The pairs of a flow mapping. -/
def flowPairs (grammar : Grammar) (first : Bool) : Nat → List Token → EventStep
  | 0, _ => none
  | depth + 1, tokens =>
    match tokens with
    | .flowMappingEnd :: rest => some ([.mappingEnd], rest)
    | _ =>
      let pairs? :=
        match tokens with
        | .flowEntry :: rest => if first then some tokens else some rest
        | _ => if first then some tokens else none
      match pairs? with
      | none => none
      | some pairs =>
        match pairs with
        | .flowMappingEnd :: rest => some ([.mappingEnd], rest)
        | .key :: rest =>
          let key : EventStep :=
            if startsValue rest || endsFlowPair rest then some ([.missing], rest)
            else grammar.node false false depth rest
          match key with
          | none => none
          | some (keyEvents, rest) =>
            let value : EventStep :=
              match rest with
              | .value :: rest =>
                if endsFlowPair rest then some ([.missing], rest)
                else grammar.node false false depth rest
              | _ => some ([.missing], rest)
            match value with
            | none => none
            | some (valueEvents, rest) =>
              .after (keyEvents ++ valueEvents) (grammar.flowPairs false depth rest)
        | _ =>
          match grammar.node false false depth pairs with
          | none => none
          | some (events, rest) =>
            .after (events ++ [.missing]) (grammar.flowPairs false depth rest)

end

/-- The version and the handles that stand in front of a document. Only versions 1.1 and 1.2 are
known, and neither a version nor a handle is given twice. -/
def directives? (versioned : Bool) (handles : List (String × String)) :
    List Token → Option (Grammar × List Token)
  | .directive (.version major minor) :: rest =>
    if versioned || major != 1 || !(minor == 1 || minor == 2) then none
    else directives? true handles rest
  | .directive (.tag handle text) :: rest =>
    if (handles.lookup handle).isSome then none
    else directives? versioned (handles ++ [(handle, text)]) rest
  | tokens => some (⟨handles ++ standardHandles⟩, tokens)

/-- A document may be empty behind its mark. -/
def endsDocument : List Token → Bool
  | [] => true
  | .documentStart :: _ => true
  | .documentEnd :: _ => true
  | .directive _ :: _ => true
  | _ => false

/-- Only end marks are left. -/
def onlyEndMarks : List Token → Bool
  | [] => true
  | .documentEnd :: rest => onlyEndMarks rest
  | _ => false

/-- The events of the one document that the tokens hold; an empty text has none. -/
def document? (tokens : List Token) : Option (List Event) :=
  let depth := 4 * tokens.length + 4
  match tokens with
  | [] => some []
  | first :: _ =>
    let explicit := match first with
      | .directive _ => true
      | .documentStart => true
      | _ => false
    let body : EventStep :=
      if explicit then
        match directives? false [] tokens with
        | some (grammar, .documentStart :: rest) =>
          if endsDocument rest then some ([.missing], rest)
          else grammar.node true false depth rest
        | _ => none
      else Grammar.node ⟨standardHandles⟩ true false depth tokens
    match body with
    | some (events, rest) => if onlyEndMarks rest then some events else none
    | none => none

end Grammar

/-- The events of a YAML text. -/
def events? (text : String) : Option (List Event) :=
  (tokens? text).bind Grammar.document?

end SchemaInterfaces.Yaml
