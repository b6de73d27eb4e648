import GenScope.Yaml.Node
import GenScope.Yaml.Plain

/-!
# Documents

`readDocument` gives the value of the single document in a text. Aliases are put in place first, so
that a node is read the same wherever it stands; the members that a mapping merges in come before
its own, which mask them.
-/

namespace GenScope.Yaml

/-- Why a text has no value. -/
inductive DocumentFault
  | malformed
  | badScalar (b : BadScalar)
deriving DecidableEq, Repr

/-- The characters that a document may hold. -/
def isDocumentChar (c : Char) : Bool :=
  let n := c.toNat
  c == '\t' || c == '\n' || c == '\r' || (0x20 ≤ n && n ≤ 0x7E) || n == 0x85 ||
    (0xA0 ≤ n && n ≤ 0xFFFD) || 0x10000 ≤ n

namespace Node

/-! ### Aliases -/

/-- Nodes by their anchors; none for a node that is still being read. -/
abbrev Anchors := List (Text × Option Node)

/-- Declares an anchor, unless it is declared already. -/
def declare (anchor : Option Text) (anchors : Anchors) : Option Anchors :=
  match anchor with
  | none => some anchors
  | some a => if (anchors.lookup a).isSome then none else some ((a, none) :: anchors)

/-- Gives an anchor its node. -/
def settle (anchor : Option Text) (n : Node) (anchors : Anchors) : Anchors :=
  match anchor with
  | none => anchors
  | some a => (a, some n) :: anchors

/-- What an alias inside its own node stands for: a collection that is not empty. -/
def cycle : Node := .sequence none none [empty]

mutual

/-- The node with every alias put in place. -/
def expand : Node → Anchors → Option (Node × Anchors)
  | .alias name, anchors =>
    match anchors.lookup name with
    | none => none
    | some none => some (cycle, anchors)
    | some (some n) => some (n, anchors)
  | .scalar a t s p, anchors => do
    let anchors ← declare a anchors
    let n := Node.scalar none t s p
    some (n, settle a n anchors)
  | .sequence a t items, anchors => do
    let (items, anchors) ← expandItems items (← declare a anchors)
    let n := Node.sequence none t items
    some (n, settle a n anchors)
  | .mapping a t members, anchors => do
    let (members, anchors) ← expandMembers members (← declare a anchors)
    let n := Node.mapping none t members
    some (n, settle a n anchors)

def expandItems : List Node → Anchors → Option (List Node × Anchors)
  | [], anchors => some ([], anchors)
  | n :: ns, anchors => do
    let (n, anchors) ← expand n anchors
    let (ns, anchors) ← expandItems ns anchors
    some (n :: ns, anchors)

def expandMembers : List (Node × Node) → Anchors → Option (List (Node × Node) × Anchors)
  | [], anchors => some ([], anchors)
  | (k, v) :: ms, anchors => do
    let (k, anchors) ← expand k anchors
    let (v, anchors) ← expand v anchors
    let (ms, anchors) ← expandMembers ms anchors
    some ((k, v) :: ms, anchors)

end

/-! ### Types -/

/-- The type of a scalar; none if its tag is not one of a scalar. -/
def typeOfScalar (tag : Option Text) (text : Text) (plain : Bool) : Option ScalarType :=
  if plain then some (scalarType text)
  else match tag with
    | none => some .text
    | some tag =>
      [(("str" : Text), ScalarType.text), ("null", .null), ("bool", .boolean), ("int", .integer),
        ("float", .float), ("timestamp", .timestamp)].lookup (tag.drop standardLead.length)
        |>.filter fun _ => Text.startsWith tag standardLead

/-- The tag is missing, does not say anything, or is the standard one of the given name. -/
def isTagged (tag : Option Text) (name : Text) : Bool :=
  tag.all fun t => t == ['!'] || t == standardLead ++ name

def hasTag (tag : Option Text) (name : Text) : Bool := tag == some (standardLead ++ name)

/-! ### Values -/

/-- What the members of a mapping are read as. -/
inductive Member
  | own (key : Option Text) (value : Value)
  /-- Members of another mapping. -/
  | merged (members : Members)

/-- The merged members, and then the mapping's own. -/
def joinMembers (ms : List Member) : Members :=
  (ms.flatMap fun
    | .merged ms => ms
    | .own _ _ => []) ++
  ms.filterMap fun
    | .own k v => some (k, v)
    | .merged _ => none

/-- The key of a member: a text, or another value that can be compared. -/
def keyOf? : Value → Option (Option Text)
  | .text s => some (some s)
  | .list _ | .object _ => none
  | .other name => if name = "set".toList then none else some none
  | _ => some none

def isMergeKey : Node → Bool
  | .scalar _ _ s true => scalarType s == .merge
  | _ => false

def isValueKey : Node → Bool
  | .scalar _ _ s true => scalarType s == .value
  | _ => false

def membersOf? : Value → Option Members
  | .object members => some members
  | _ => none

/-- The members that a merged value brings in: those of an object, or of several, of which the
first masks the others. -/
def mergedMembers? : Value → Option Members
  | .list items => (items.mapM membersOf?).map fun ms => ms.reverse.flatten
  | v => membersOf? v

mutual

/-- The value of a node without aliases. -/
def toValue : Node → Except DocumentFault Value
  | .alias _ => .error .malformed
  | .scalar _ tag text plain =>
    match typeOfScalar tag text plain with
    | some type =>
      match type.value? text with
      | .ok (some v) => .ok v
      | .ok none => .error .malformed
      | .error b => .error (.badScalar b)
    | none =>
      if hasTag tag "binary" && text.all (·.toNat < 128) then .ok (.other "bytes")
      else .error .malformed
  | .sequence _ tag items => do
    let values ← itemValues items
    if isTagged tag "seq" || hasTag tag "omap" || hasTag tag "pairs" then .ok (.list values)
    else .error .malformed
  | .mapping _ tag members => do
    let members ← memberValues members
    if isTagged tag "map" then .ok (.object (joinMembers members))
    else if hasTag tag "set" then .ok (.other "set")
    else .error .malformed

def itemValues : List Node → Except DocumentFault (List Value)
  | [] => .ok []
  | n :: ns => do
    let v ← toValue n
    return v :: (← itemValues ns)

def memberValues : List (Node × Node) → Except DocumentFault (List Member)
  | [] => .ok []
  | (k, v) :: ms => do
    let value ← toValue v
    let member ←
      if isMergeKey k then
        match mergedMembers? value with
        | some members => .ok (.merged members)
        | none => .error .malformed
      else if isValueKey k then .ok (.own (some ['=']) value)
      else match keyOf? (← toValue k) with
        | some key => .ok (.own key value)
        | none => .error .malformed
    return member :: (← memberValues ms)

end

end Node

/-- The value of the document in a text; an empty stream holds nothing. -/
def readDocument (s : Text) : Except DocumentFault Value :=
  if !s.all isDocumentChar then .error .malformed
  else match (tokens? s).bind Node.ofTokens? with
    | none => .error .malformed
    | some none => .ok .null
    | some (some n) =>
      match n.expand [] with
      | none => .error .malformed
      | some (n, _) => n.toValue

end GenScope.Yaml
