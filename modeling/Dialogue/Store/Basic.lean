import Dialogue.StateError

/-!
# Stores

A store is a value that is read and changed along paths.  A change goes down the path, noting each container that
it passes, makes the last container anew, and puts every container back around the one inside it.
-/

namespace Dialogue

/-- where a value sits in its container -/
inductive Slot where
  | key (k : String)
  | index (n : Nat)
  deriving DecidableEq, Repr

structure Frame where
  parent : Node
  slot : Slot

structure Store where
  root : Node

namespace Node

/-- the slot that a segment of a path names in a container -/
def slot (path : Path) (s : Segment) : Node → Except StateError Slot
  | .map _ => .ok (.key s.key)
  | .list _ =>
    match s.index? with
    | some n => .ok (.index n)
    | none => .error (.traversal path s .noIndex)
  | v => .error (.traversal path s (.scalar v.sigil))

/-- the value in a slot -/
def child? : Node → Slot → Option Node
  | .map es, .key k => Entries.get? k es
  | .list vs, .index n => vs[n]?
  | _, _ => none

/-- the container with a value in a slot; a slot past the end of a list is a new last one -/
def setChild : Node → Slot → Node → Node
  | .map es, .key k, v => .map (Entries.insert k v es)
  | .list vs, .index n, v => .list (if n < vs.length then vs.set n v else vs ++ [v])
  | c, _, _ => c

/-- the container without what is in a slot -/
def dropChild : Node → Slot → Node
  | .map es, .key k => .map (Entries.erase k es)
  | .list vs, .index n => .list (vs.eraseIdx n)
  | c, _ => c

/-- the value must be of the kind that a segment names -/
def checkShape (path : Path) (s : Segment) (v : Node) : Except StateError Unit :=
  if v.sigil = s.sigil then .ok () else .error (.traversal path s (.shape s.sigil v.sigil))

/-- what a write makes where a container is missing -/
def fresh : Sigil → Node
  | .list => .list []
  | _ => .map []

/-- a value as a scalar of another kind: numbers and truth values can be strings, strings can be read as numbers and
truth values, and no number is true -/
def coerce : Sigil → Node → Except StateError Node
  | .str, .str s => .ok (.str s)
  | .str, .num x => .ok (.str (numText x))
  | .str, .bool b => .ok (.str (boolText b))
  | .num, .num x => .ok (.num x)
  | .num, .str s =>
    match Number.readFloat? (Text.trim s.toList) with
    | some x => .ok (.num x)
    | none => .error (.coercion .num (.str s))
  | .bool, .bool b => .ok (.bool b)
  | .bool, .str s => .ok (.bool (Text.lowerAscii (Text.trim s.toList) = "true".toList))
  | .bool, .num _ => .ok (.bool false)
  | s, v => .error (.coercion s v)

/-- what a write of `value` leaves at the last segment, where `existing` is: a map is replaced by a map, a list
grows by the value, a scalar is coerced or, without a value, removed -/
def leafValue (path : Path) (existing value : Option Node) : Except StateError (Option Node) :=
  match path.leaf.sigil with
  | .map =>
    match value, existing with
    | some (.map es), _ => .ok (some (.map es))
    | some v, _ => .error (.coercion .map v)
    | none, none => .ok (some (.map []))
    | none, some v => do
      checkShape path path.leaf v
      return some v
  | .list =>
    match existing, value with
    | none, some (.list vs) => .ok (some (.list vs))
    | none, some v => .ok (some (.list [v]))
    | none, none => .ok (some (.list []))
    | some (.list vs), some v => .ok (some (.list (vs ++ [v])))
    | some v, _ => do
      checkShape path path.leaf v
      return some v
  | scalar =>
    match value with
    | some v => (coerce scalar v).map some
    | none => .ok none

end Node

namespace Store

def empty : Store :=
  ⟨.map []⟩

def ofMap (entries : List (String × Node)) : Store :=
  ⟨.map entries⟩

/-- the value under a key at the top -/
def raw? (s : Store) (key : String) : Option Node :=
  s.root.asMap?.bind (Entries.get? key)

def isEmpty (s : Store) : Bool :=
  match s.root.asMap? with
  | some es => es.isEmpty
  | none => true

/-- the value that segments lead to from `v` -/
def readFrom (path : Path) : List Segment → Node → Except StateError (Option Node)
  | [], v => .ok (some v)
  | s :: ss, v => do
    let slot ← v.slot path s
    match v.child? slot with
    | none => return none
    | some child =>
      Node.checkShape path s child
      readFrom path ss child

/-- the value at a path; a missing one is no error -/
def read (s : Store) (path : Path) : Except StateError (Option Node) :=
  readFrom path path.segments s.root

/-- the way down along segments, which makes missing containers: the containers passed, innermost first, and the one
at the end -/
def descend (path : Path) : List Segment → List Frame → Node → Except StateError (List Frame × Node)
  | [], frames, v => .ok (frames, v)
  | s :: ss, frames, v => do
    let slot ← v.slot path s
    match v.child? slot with
    | some child =>
      Node.checkShape path s child
      descend path ss (⟨v, slot⟩ :: frames) child
    | none => descend path ss (⟨v, slot⟩ :: frames) (Node.fresh s.sigil)

/-- the way down along segments, which ends where a container is missing -/
def descend? (path : Path) : List Segment → List Frame → Node → Except StateError (Option (List Frame × Node))
  | [], frames, v => .ok (some (frames, v))
  | s :: ss, frames, v => do
    let slot ← v.slot path s
    match v.child? slot with
    | some child =>
      Node.checkShape path s child
      descend? path ss (⟨v, slot⟩ :: frames) child
    | none => return none

/-- the outermost container, with each container put back around the one inside it -/
def unwind : List Frame → Node → Node
  | [], v => v
  | f :: frames, v => unwind frames (f.parent.setChild f.slot v)

/-- the store with `value` at a path -/
def write (s : Store) (path : Path) (value : Option Node) : Except StateError Store := do
  let (frames, container) ← descend path path.inner [] s.root
  let slot ← container.slot path path.leaf
  match ← Node.leafValue path (container.child? slot) value with
  | some v => return ⟨unwind frames (container.setChild slot v)⟩
  | none => return ⟨unwind frames (container.dropChild slot)⟩

/-- the store without what is at a path -/
def delete (s : Store) (path : Path) : Except StateError Store := do
  match ← descend? path path.inner [] s.root with
  | none => return s
  | some (frames, container) =>
    let slot ← container.slot path path.leaf
    match container.child? slot with
    | none => return s
    | some _ => return ⟨unwind frames (container.dropChild slot)⟩

end Store

end Dialogue
