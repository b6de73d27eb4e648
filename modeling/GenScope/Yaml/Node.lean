import GenScope.Yaml.Token

/-!
# Nodes

A node is a scalar, a sequence or a mapping, as the tokens of a document nest them. A node may
carry a tag and an anchor, and an alias stands for the node that carries the anchor.
`Node.ofTokens?` reads exactly one document.
-/

namespace GenScope.Yaml

inductive Node
  | scalar (anchor tag : Option Text) (text : Text) (plain : Bool)
  | sequence (anchor tag : Option Text) (items : List Node)
  | mapping (anchor tag : Option Text) (members : List (Node × Node))
  | alias (name : Text)

namespace Node

/-- What is not written counts as an empty plain scalar. -/
def empty : Node := .scalar none none [] true

/-! ### Tags -/

/-- What the handles of tags stand for. -/
abbrev Handles := List (Text × Text)

/-- What the names of the standard tags start with. -/
def standardLead : Text := "tag:yaml.org,2002:"

def standardHandles : Handles := [("!", "!"), ("!!", standardLead)]

/-- The tag in full, if its handle is known. -/
def fullTag (handles : Handles) (t : TagText) : Option Text :=
  match t.handle with
  | none => some t.suffix
  | some h => (handles.lookup h).map (· ++ t.suffix)

/-- The anchor and the tag before a node, in either order. -/
structure Properties where
  anchor : Option Text
  tag : Option Text

def Properties.isEmpty (p : Properties) : Bool := p.anchor.isNone && p.tag.isNone

def properties (handles : Handles) : List Token → Option (Properties × List Token)
  | .anchor a :: .tag t :: ts => do return (⟨some a, some (← fullTag handles t)⟩, ts)
  | .tag t :: .anchor a :: ts => do return (⟨some a, some (← fullTag handles t)⟩, ts)
  | .anchor a :: ts => some (⟨some a, none⟩, ts)
  | .tag t :: ts => do return (⟨none, some (← fullTag handles t)⟩, ts)
  | ts => some (⟨none, none⟩, ts)

/-! ### Nesting -/

/-- What may be read next. -/
inductive Goal
  /-- A node; in a block mapping, a sequence may stand at the mapping's own indent. -/
  | node (block ownIndent : Bool)
  | blockItems
  | ownIndentItems
  | blockMembers
  | flowItems (first : Bool)
  | flowMembers (first : Bool)

/-- What was read. -/
inductive Found
  | node (n : Node)
  | items (ns : List Node)
  | members (ms : List (Node × Node))

def endsBlockItem (t : Token) : Bool := t == .blockItem || t == .blockEnd

def endsOwnIndentItem (t : Token) : Bool :=
  t == .blockItem || t == .key || t == .value || t == .blockEnd

def endsBlockMember (t : Token) : Bool := t == .key || t == .value || t == .blockEnd

def endsFlow (close t : Token) : Bool := t == .flowItem || t == close

/-- Reads a goal from the tokens. Every step takes a token or comes closer to one, so twice the
number of tokens is enough fuel. -/
def read (handles : Handles) : Nat → Goal → List Token → Option (Found × List Token)
  | 0, _, _ => none
  | fuel + 1, goal, ts =>
    -- a node, unless the next token shows that none is written
    let nodeUnless (stop : Token → Bool) (g : Goal) (ts : List Token) :
        Option (Node × List Token) :=
      if ts.head?.any stop then some (empty, ts)
      else match read handles fuel g ts with
        | some (.node n, ts) => some (n, ts)
        | _ => none
    let items (g : Goal) (ts : List Token) : Option (List Node × List Token) :=
      match read handles fuel g ts with
      | some (.items ns, ts) => some (ns, ts)
      | _ => none
    let members (g : Goal) (ts : List Token) : Option (List (Node × Node) × List Token) :=
      match read handles fuel g ts with
      | some (.members ms, ts) => some (ms, ts)
      | _ => none
    -- the value behind a key, if there is a colon
    let valueUnless (stop : Token → Bool) (g : Goal) : List Token → Option (Node × List Token)
      | .value :: ts => nodeUnless stop g ts
      | ts => some (empty, ts)
    match goal with
    | .node block ownIndent =>
      match ts with
      | .alias name :: ts => some (.node (.alias name), ts)
      | ts => do
        let (p, ts) ← properties handles ts
        match ts with
        | .scalar text plain :: ts =>
          let plain := (plain && p.tag.isNone) || p.tag == some ['!']
          some (.node (.scalar p.anchor p.tag text plain), ts)
        | .flowSequenceStart :: ts =>
          let (ns, ts) ← items (.flowItems true) ts
          some (.node (.sequence p.anchor p.tag ns), ts)
        | .flowMappingStart :: ts =>
          let (ms, ts) ← members (.flowMembers true) ts
          some (.node (.mapping p.anchor p.tag ms), ts)
        | .blockSequenceStart :: ts =>
          if block then
            let (ns, ts) ← items .blockItems ts
            some (.node (.sequence p.anchor p.tag ns), ts)
          else none
        | .blockMappingStart :: ts =>
          if block then
            let (ms, ts) ← members .blockMembers ts
            some (.node (.mapping p.anchor p.tag ms), ts)
          else none
        | .blockItem :: _ =>
          if ownIndent then
            let (ns, ts) ← items .ownIndentItems ts
            some (.node (.sequence p.anchor p.tag ns), ts)
          else if p.isEmpty then none
          else some (.node (.scalar p.anchor p.tag [] (p.tag.all (· == ['!']))), ts)
        | ts =>
          if p.isEmpty then none
          else some (.node (.scalar p.anchor p.tag [] (p.tag.all (· == ['!']))), ts)
    | .blockItems =>
      match ts with
      | .blockItem :: ts => do
        let (n, ts) ← nodeUnless endsBlockItem (.node true false) ts
        let (ns, ts) ← items .blockItems ts
        some (.items (n :: ns), ts)
      | .blockEnd :: ts => some (.items [], ts)
      | _ => none
    | .ownIndentItems =>
      match ts with
      | .blockItem :: ts => do
        let (n, ts) ← nodeUnless endsOwnIndentItem (.node true false) ts
        let (ns, ts) ← items .ownIndentItems ts
        some (.items (n :: ns), ts)
      | ts => some (.items [], ts)
    | .blockMembers =>
      match ts with
      | .key :: ts => do
        let (k, ts) ← nodeUnless endsBlockMember (.node true true) ts
        let (v, ts) ← valueUnless endsBlockMember (.node true true) ts
        let (ms, ts) ← members .blockMembers ts
        some (.members ((k, v) :: ms), ts)
      | .blockEnd :: ts => some (.members [], ts)
      | _ => none
    | .flowItems first =>
      let stop := endsFlow .flowSequenceEnd
      match ts with
      | .flowSequenceEnd :: ts => some (.items [], ts)
      | ts => do
        let ts ← if first then some ts else match ts with
          | .flowItem :: ts => some ts
          | _ => none
        match ts with
        | .flowSequenceEnd :: ts => some (.items [], ts)
        | .key :: ts =>
          -- a single key with its value is a mapping of its own
          let (k, ts) ← nodeUnless (fun t => t == .value || stop t) (.node false false) ts
          let (v, ts) ← valueUnless stop (.node false false) ts
          let (ns, ts) ← items (.flowItems false) ts
          some (.items (.mapping none none [(k, v)] :: ns), ts)
        | ts =>
          let (n, ts) ← nodeUnless (fun _ => false) (.node false false) ts
          let (ns, ts) ← items (.flowItems false) ts
          some (.items (n :: ns), ts)
    | .flowMembers first =>
      let stop := endsFlow .flowMappingEnd
      match ts with
      | .flowMappingEnd :: ts => some (.members [], ts)
      | ts => do
        let ts ← if first then some ts else match ts with
          | .flowItem :: ts => some ts
          | _ => none
        match ts with
        | .flowMappingEnd :: ts => some (.members [], ts)
        | .key :: ts =>
          let (k, ts) ← nodeUnless (fun t => t == .value || stop t) (.node false false) ts
          let (v, ts) ← valueUnless stop (.node false false) ts
          let (ms, ts) ← members (.flowMembers false) ts
          some (.members ((k, v) :: ms), ts)
        | ts =>
          let (k, ts) ← nodeUnless (fun _ => false) (.node false false) ts
          let (ms, ts) ← members (.flowMembers false) ts
          some (.members ((k, empty) :: ms), ts)

/-! ### Documents -/

/-- The handles that the directives before a document declare, each at most once, and the tokens
behind them. Only version 1 is read. -/
def readDirectives : (version : Bool) → (declared : Handles) → List Token →
    Option (Handles × List Token)
  | version, declared, .directive d :: ts =>
    match d with
    | .version major =>
      if version || major != 1 then none else readDirectives true declared ts
    | .tag handle lead =>
      if (declared.lookup handle).isSome then none
      else readDirectives version ((handle, lead) :: declared) ts
    | .other => readDirectives version declared ts
  | _, declared, ts => some (declared, ts)

def endsDocument : Token → Bool
  | .directive _ | .documentStart | .documentEnd => true
  | _ => false

/-- The node of a document, and the tokens behind it. -/
def readRoot (handles : Handles) (ts : List Token) : Option (Node × List Token) :=
  match read handles (2 * ts.length + 2) (.node true false) ts with
  | some (.node n, ts) => some (n, ts)
  | _ => none

/-- The single document that the tokens hold; nothing if they hold none. -/
def ofTokens? (ts : List Token) : Option (Option Node) :=
  match ts with
  | [] => some none
  | .directive _ :: _ | .documentStart :: _ => do
    let (declared, ts) ← readDirectives false [] ts
    match ts with
    | .documentStart :: ts =>
      let (n, ts) ←
        if ts.head?.all endsDocument then some (empty, ts)
        else readRoot (declared ++ standardHandles) ts
      if ts.all (· == .documentEnd) then some (some n) else none
    | _ => none
  | ts => do
    let (n, ts) ← readRoot standardHandles ts
    if ts.all (· == .documentEnd) then some (some n) else none

end Node

end GenScope.Yaml
