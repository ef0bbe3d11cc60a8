import Interlock.Yaml.Token
/-!
# Nodes

What a document says: scalars, sequences and mappings. Anchors are gone, and an alias has become the
node that it names. A node is read from tokens by descent; `Node.ofTokens?` reads the only document
of a text.
-/

namespace Interlock.Yaml

/-- A value in a document. A tag matters for scalars only. -/
inductive Node where
  | scalar (tag : Option Tag) (style : Style) (text : List Char)
  | sequence (items : List Node)
  | mapping (members : List (Node × Node))
deriving Inhabited

/-- The nodes that have an anchor, the latest first. A node is none until it is complete, so an
alias inside of what it names is refused. -/
abbrev Anchors := List (List Char × Option Node)

namespace Anchors

/-- The node that an alias names. -/
def find? (as : Anchors) (name : List Char) : Option Node := (as.lookup name).join

/-- Completes the node before which there were so many. -/
def complete (as : Anchors) (before : Nat) (n : Node) : Anchors :=
  as.modify (as.length - 1 - before) fun (name, _) => (name, some n)

end Anchors

/-- What the handles of tags stand for. -/
abbrev Handles := List (List Char × Tag)

namespace Handles

/-- The handles that need no directive. -/
def standard : Handles :=
  [("!".toList, .named "!".toList), ("!!".toList, .named "tag:yaml.org,2002:".toList)]

/-- The tag of a handle and a rest. Without a handle the rest is the tag. -/
def resolve? (hs : Handles) (handle : List Char) (rest : Tag) : Option Tag :=
  if handle.isEmpty then some rest else (hs.lookup handle).map (·.append rest)

/-- Reads the directives before a document, with the tokens after them. -/
def read? : Bool → Handles → List Token → Option (Handles × List Token)
  | versioned, hs, .version major minor :: rest =>
    if !versioned && major = 1 && (minor = 1 || minor = 2) then read? true hs rest else none
  | versioned, hs, .handle name start :: rest =>
    if (hs.lookup name).isSome then none else read? versioned ((name, start) :: hs) rest
  | _, hs, rest => some (hs ++ standard, rest)

end Handles

/-- What stands before a node. -/
structure Properties where
  anchor : Option (List Char) := none
  tag : Option Tag := none

namespace Properties

/-- Nothing stands there. -/
def isEmpty (p : Properties) : Bool := p.anchor.isNone && p.tag.isNone

/-- Reads an anchor and a tag in any order, each at most once. -/
def read? (hs : Handles) : List Token → Option (Properties × List Token)
  | .anchor a :: .tag handle t :: rest | .tag handle t :: .anchor a :: rest => do
    return ({ anchor := a, tag := ← hs.resolve? handle t }, rest)
  | .anchor a :: rest => some ({ anchor := a }, rest)
  | .tag handle t :: rest => do return ({ tag := ← hs.resolve? handle t }, rest)
  | rest => some ({}, rest)

/-- The tag of a scalar. A lone exclamation mark only says that it is a scalar. -/
def scalarTag (p : Properties) : Option Tag := p.tag.filter (· ≠ .named ['!'])

end Properties

namespace Node

/-- The scalar that stands where there is nothing. -/
def empty : Node := .scalar none .plain []

/-- A reading: what is read, the anchors up to there, and the tokens after it. -/
structure Reading (α : Type) where
  value : α
  anchors : Anchors
  rest : List Token

/-- A reading with another value. -/
def Reading.change {α β : Type} (f : α → β) (r : Reading α) : Reading β :=
  ⟨f r.value, r.anchors, r.rest⟩

/-- The first token is one of these, or there is none. -/
def stopsAt (stops : List Token) : List Token → Bool
  | [] => true
  | t :: _ => t ∈ stops

/-- Tokens before which a node in a block is empty. -/
def blockStops : List Token := [.item, .key, .value, .blockEnd]

/-- Tokens before which a node in brackets is empty. -/
def flowStops : List Token := [.value, .comma, .flowSequenceEnd, .flowMappingEnd]

mutual

/-- Reads a node. In a mapping the items of a sequence may stand without a block of their own. -/
def read? (hs : Handles) : Nat → Bool → Anchors → List Token → Option (Reading Node)
  | 0, _, _, _ => none
  | fuel + 1, bare, as, ts =>
    match ts with
    | .reference name :: rest => (as.find? name).map (⟨·, as, rest⟩)
    | ts => do
      let (p, ts) ← Properties.read? hs ts
      let before := as.length
      let as := match p.anchor with
        | some name => (name, none) :: as
        | none => as
      let r : Reading Node ← match ts with
        | .scalar style text :: rest => some ⟨.scalar p.scalarTag style text, as, rest⟩
        | .blockSequence :: rest => (readItems? hs fuel false as rest).map (.change .sequence)
        | .blockMapping :: rest => (readMembers? hs fuel as rest).map (.change .mapping)
        | .flowSequence :: rest => (readFlowItems? hs fuel true as rest).map (.change .sequence)
        | .flowMapping :: rest => (readFlowMembers? hs fuel true as rest).map (.change .mapping)
        | ts =>
          if bare && ts.head? = some .item then
            (readItems? hs fuel true as ts).map (.change .sequence)
          else if p.isEmpty then none
          else some ⟨.scalar p.tag .plain [], as, ts⟩
      return { r with
        anchors := if p.anchor.isSome then r.anchors.complete before r.value else r.anchors }

/-- Reads the items of a block, up to its end, or up to something else where there is no end. -/
def readItems? (hs : Handles) : Nat → Bool → Anchors → List Token → Option (Reading (List Node))
  | 0, _, _, _ => none
  | fuel + 1, bare, as, ts =>
    match ts with
    | .item :: rest => do
      let ⟨n, as, rest⟩ ←
        if stopsAt blockStops rest then some ⟨empty, as, rest⟩ else read? hs fuel false as rest
      (readItems? hs fuel bare as rest).map (.change (n :: ·))
    | ts =>
      if bare then some ⟨[], as, ts⟩
      else match ts with
        | .blockEnd :: rest => some ⟨[], as, rest⟩
        | _ => none

/-- Reads the members of a mapping in a block. -/
def readMembers? (hs : Handles) : Nat → Anchors → List Token → Option (Reading (List (Node × Node)))
  | 0, _, _ => none
  | fuel + 1, as, ts =>
    match ts with
    | .key :: rest => do
      let ⟨k, as, rest⟩ ←
        if stopsAt [.key, .value, .blockEnd] rest then some ⟨empty, as, rest⟩
        else read? hs fuel true as rest
      let ⟨v, as, rest⟩ ← match rest with
        | .value :: rest =>
          if stopsAt [.key, .value, .blockEnd] rest then some ⟨empty, as, rest⟩
          else read? hs fuel true as rest
        | rest => some ⟨empty, as, rest⟩
      (readMembers? hs fuel as rest).map (.change ((k, v) :: ·))
    | .blockEnd :: rest => some ⟨[], as, rest⟩
    | _ => none

/-- Reads the items in brackets, with a comma before all but the first. -/
def readFlowItems? (hs : Handles) : Nat → Bool → Anchors → List Token → Option (Reading (List Node))
  | 0, _, _, _ => none
  | _, _, as, .flowSequenceEnd :: rest => some ⟨[], as, rest⟩
  | fuel + 1, first, as, ts => do
    let ts ← if first then some ts else
      match ts with
      | .comma :: rest => some rest
      | _ => none
    match ts with
    | .flowSequenceEnd :: rest => some ⟨[], as, rest⟩
    | .key :: rest => do
      let ⟨m, as, rest⟩ ← readPair? hs fuel as rest
      (readFlowItems? hs fuel false as rest).map (.change (.mapping [m] :: ·))
    | ts => do
      let ⟨n, as, rest⟩ ← read? hs fuel false as ts
      (readFlowItems? hs fuel false as rest).map (.change (n :: ·))

/-- Reads the members in brackets, with a comma before all but the first. -/
def readFlowMembers? (hs : Handles) :
    Nat → Bool → Anchors → List Token → Option (Reading (List (Node × Node)))
  | 0, _, _, _ => none
  | _, _, as, .flowMappingEnd :: rest => some ⟨[], as, rest⟩
  | fuel + 1, first, as, ts => do
    let ts ← if first then some ts else
      match ts with
      | .comma :: rest => some rest
      | _ => none
    match ts with
    | .flowMappingEnd :: rest => some ⟨[], as, rest⟩
    | .key :: rest => do
      let ⟨m, as, rest⟩ ← readPair? hs fuel as rest
      (readFlowMembers? hs fuel false as rest).map (.change (m :: ·))
    | ts => do
      let ⟨n, as, rest⟩ ← read? hs fuel false as ts
      (readFlowMembers? hs fuel false as rest).map (.change ((n, empty) :: ·))

/-- Reads a member in brackets, from after the token that announces its key. -/
def readPair? (hs : Handles) : Nat → Anchors → List Token → Option (Reading (Node × Node))
  | 0, _, _ => none
  | fuel + 1, as, ts => do
    let ⟨k, as, rest⟩ ←
      if stopsAt flowStops ts then some ⟨empty, as, ts⟩ else read? hs fuel false as ts
    let ⟨v, as, rest⟩ ← match rest with
      | .value :: rest =>
        if stopsAt flowStops rest then some ⟨empty, as, rest⟩ else read? hs fuel false as rest
      | rest => some ⟨empty, as, rest⟩
    return ⟨(k, v), as, rest⟩

end

/-- Tokens before which a document that has a mark is empty. -/
def endsDocument : List Token → Bool
  | [] | .version .. :: _ | .handle .. :: _ | .documentStart :: _ | .documentEnd :: _ => true
  | _ => false

/-- Reads the root of a document, from after its mark on if there is one. -/
def readRoot? (hs : Handles) (marked : Bool) (ts : List Token) : Option (Node × List Token) :=
  if marked && endsDocument ts then some (empty, ts)
  else (read? hs (3 * ts.length + 3) false [] ts).map fun r => (r.value, r.rest)

/-- Reads the only document of a text. Directives need the mark after them. -/
def ofTokens? (ts : List Token) : Option Node := do
  let (hs, rest) ← Handles.read? false [] ts
  let (n, rest) ← match rest with
    | .documentStart :: rest => readRoot? hs true rest
    | _ => if rest.length = ts.length then readRoot? hs false ts else none
  if (rest.dropWhile (· = .documentEnd)).isEmpty then some n else none

end Node

end Interlock.Yaml
