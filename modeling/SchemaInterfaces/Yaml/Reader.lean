import SchemaInterfaces.Yaml.Event
import SchemaInterfaces.Yaml.Untagged

/-!
# Reading YAML

The document tree of a YAML text. References to anchors are replaced by what they refer to, within
a limit on their number, and at most 128 collections may be nested. A reading says what scalars
stand for and which may be keys; that of documents takes the source texts of scalars for keys.
-/
namespace SchemaInterfaces.Yaml

/-- Where references lead: for every number the events from an anchored node on. An anchor gets the
number of distinct names before it, and the last node with a number counts. -/
abbrev Anchors := List (Nat × List Event)

/-- An event with references by number. -/
inductive Item where
  | reference (number : Nat)
  | scalar (tag : Option String) (text : String) (plain : Bool)
  | sequenceStart (tag : Option String)
  | sequenceEnd
  | mappingStart (tag : Option String)
  | mappingEnd

/-- Names that anchors have had so far, with their numbers. -/
abbrev Names := List (String × Nat)

/-- Numbers an anchor. -/
def numberAnchor (anchor : Option String) (names : Names) : Names × Option Nat :=
  match anchor with
  | some name => (insertEntry name names.length names, some names.length)
  | none => (names, none)

/-- Replaces anchor names by numbers. A reference needs an anchor before it. Every anchored item
comes with its number. -/
def numberItems? (names : Names) : List Event → Option (List (Option Nat × Item))
  | [] => some []
  | event :: rest =>
    match event with
    | .alias name =>
      match names.lookup name with
      | some number => (numberItems? names rest).map ((none, .reference number) :: ·)
      | none => none
    | .scalar anchor tag text plain =>
      let (names, number) := numberAnchor anchor names
      (numberItems? names rest).map ((number, .scalar tag text plain) :: ·)
    | .sequenceStart anchor tag =>
      let (names, number) := numberAnchor anchor names
      (numberItems? names rest).map ((number, .sequenceStart tag) :: ·)
    | .sequenceEnd => (numberItems? names rest).map ((none, .sequenceEnd) :: ·)
    | .mappingStart anchor tag =>
      let (names, number) := numberAnchor anchor names
      (numberItems? names rest).map ((number, .mappingStart tag) :: ·)
    | .mappingEnd => (numberItems? names rest).map ((none, .mappingEnd) :: ·)

/-- The items from each numbered item on, later ones first. -/
def targets (found : List (Nat × List Item)) : List (Option Nat × Item) → List (Nat × List Item)
  | [] => found
  | (none, _) :: rest => targets found rest
  | (some number, item) :: rest => targets ((number, item :: rest.map (·.2)) :: found) rest

/-- What scalars stand for. -/
structure ScalarReading where
  /-- The value of a scalar with a tag, of a text, that is plain or not. -/
  value? : Option String → String → Bool → Option Document
  /-- The text of a scalar as a key. -/
  key? : Option String → String → Bool → Option String
  /-- Whether collections may have local tags. -/
  allowsLocalTags : Bool

/-- The items of a document with the targets of references and the most references that may be
followed. -/
structure Graph where
  scalars : ScalarReading
  items : List Item
  targets : List (Nat × List Item)
  maxJumps : Nat

/-- The collections that may be nested. -/
def maxDepth : Nat := 128

/-- A value, the number of references followed so far, and the items behind the value. -/
abbrev Reading (α : Type) := α × Nat × List Item

/-- Whether a tag is a local one. -/
def isLocal (tag : Option String) : Bool :=
  tag.any fun text => text.toList.head? == some '!'

/-- Whether a tag keeps a collection from being read. -/
def Graph.refuses (graph : Graph) (tag : Option String) : Bool :=
  isLocal tag && !graph.scalars.allowsLocalTags

/-- Follows a reference, if the limit is not reached. -/
def Graph.jump? (graph : Graph) (jumps number : Nat) : Option (List Item) :=
  if graph.maxJumps ≤ jumps then none else graph.targets.lookup number

/-- The source text of a key; `steps` bounds the references in a row. -/
def Graph.key? (graph : Graph) : Nat → Nat → List Item → Option (Reading String)
  | 0, _, _ => none
  | steps + 1, jumps, items =>
    match items with
    | .scalar tag text plain :: rest => do
      return (← graph.scalars.key? tag text plain, jumps, rest)
    | .reference number :: rest => do
      let (text, jumps, _) ← graph.key? steps (jumps + 1) (← graph.jump? jumps number)
      return (text, jumps, rest)
    | _ => none

mutual

/-- The value that the items begin with; `depth` more collections may be opened. Every step reads
an item or follows a reference. -/
def Graph.value? (graph : Graph) : Nat → Nat → Nat → List Item → Option (Reading Document)
  | 0, _, _, _ => none
  | steps + 1, depth, jumps, items =>
    match items with
    | .scalar tag text plain :: rest => do
      return (← graph.scalars.value? tag text plain, jumps, rest)
    | .reference number :: rest => do
      let (value, jumps, _) ←
        graph.value? steps depth (jumps + 1) (← graph.jump? jumps number)
      return (value, jumps, rest)
    | .sequenceStart tag :: rest =>
      match depth with
      | 0 => none
      | depth + 1 =>
        if graph.refuses tag then none
        else do
          let (values, jumps, rest) ← graph.sequence? steps depth jumps rest
          return (.sequence values, jumps, rest)
    | .mappingStart tag :: rest =>
      match depth with
      | 0 => none
      | depth + 1 =>
        if graph.refuses tag then none
        else do
          let (pairs, jumps, rest) ← graph.mapping? steps depth jumps rest
          return (.mapping (entriesOf pairs), jumps, rest)
    | _ => none

/-- The values up to the end of a sequence. -/
def Graph.sequence? (graph : Graph) : Nat → Nat → Nat → List Item → Option (Reading (List Document))
  | 0, _, _, _ => none
  | steps + 1, depth, jumps, items =>
    match items with
    | .sequenceEnd :: rest => some ([], jumps, rest)
    | _ => do
      let (value, jumps, rest) ← graph.value? steps depth jumps items
      let (values, jumps, rest) ← graph.sequence? steps depth jumps rest
      return (value :: values, jumps, rest)

/-- The pairs up to the end of a mapping. -/
def Graph.mapping? (graph : Graph) : Nat → Nat → Nat → List Item →
    Option (Reading (List (String × Document)))
  | 0, _, _, _ => none
  | steps + 1, depth, jumps, items =>
    match items with
    | .mappingEnd :: rest => some ([], jumps, rest)
    | _ => do
      let (key, jumps, rest) ← graph.key? (graph.maxJumps + 1) jumps items
      let (value, jumps, rest) ← graph.value? steps depth jumps rest
      let (pairs, jumps, rest) ← graph.mapping? steps depth jumps rest
      return ((key, value) :: pairs, jumps, rest)

end

/-- The references that may be followed for every item of a document. -/
def jumpsPerItem : Nat := 100

/-- The graph of a document. -/
def graph? (scalars : ScalarReading) (events : List Event) : Option Graph :=
  (numberItems? [] events).map fun items =>
    ⟨scalars, items.map (·.2), targets [] items, items.length * jumpsPerItem⟩

/-- The tree of a YAML text under a reading of scalars, or nothing for an empty text. -/
def readWith? (scalars : ScalarReading) (text : String) : Option (Option Document) := do
  let graph ← graph? scalars (← events? text)
  if graph.items.isEmpty then return none
  else
    let steps := (graph.maxJumps + 2) * (graph.items.length + 2)
    let (document, _, _) ← graph.value? steps maxDepth 0 graph.items
    return some document

/-- Scalars of documents. A local tag is refused. -/
def documentScalars : ScalarReading where
  value? tag text plain :=
    match tag with
    | some tag => tagged? tag text
    | none => if plain then untagged? text else some (.text text)
  key? _ text _ := some text
  allowsLocalTags := false

/-- The document of a YAML text. An empty text counts as nothing. -/
def read? (text : String) : Option Document :=
  (readWith? documentScalars text).map (·.getD .null)

end SchemaInterfaces.Yaml
