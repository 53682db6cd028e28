import Dialogue.Path.Parse
import Dialogue.Store.Basic

/-!
# Snapshots

The stores of a user, a conversation and an utterance, as they are at one moment.  A change of a snapshot changes
one of them.
-/

namespace Dialogue

/-- the three stores at one moment -/
structure Snapshot where
  user : Store
  conversation : Store
  utterance : Store

namespace Snapshot

def empty : Snapshot :=
  ⟨.empty, .empty, .empty⟩

def store (s : Snapshot) : Scope → Store
  | .user => s.user
  | .conversation => s.conversation
  | .utterance => s.utterance

def withStore (s : Snapshot) (scope : Scope) (store : Store) : Snapshot :=
  match scope with
  | .user => { s with user := store }
  | .conversation => { s with conversation := store }
  | .utterance => { s with utterance := store }

def get (s : Snapshot) (p : ScopedPath) : Except StateError (Option Node) :=
  (s.store p.scope).read p.path

def getOr (s : Snapshot) (p : ScopedPath) (default : Node) : Except StateError Node := do
  return (← s.get p).getD default

/-- the text of the value at a scoped path -/
def textAt (s : Snapshot) (p : ScopedPath) : Except StateError (Option String) := do
  return (← s.get p).map Node.text

/-- whether the value at a scoped path is true -/
def flag (s : Snapshot) (p : ScopedPath) : Except StateError Bool := do
  return ((← s.get p).bind Node.asBool?).getD false

def put (s : Snapshot) (p : ScopedPath) (value : Option Node) : Except StateError Snapshot := do
  return s.withStore p.scope (← (s.store p.scope).write p.path value)

def remove (s : Snapshot) (p : ScopedPath) : Except StateError Snapshot := do
  return s.withStore p.scope (← (s.store p.scope).delete p.path)

@[simp] theorem store_withStore_self (s : Snapshot) (scope : Scope) (store : Store) :
    (s.withStore scope store).store scope = store := by
  cases scope <;> rfl

theorem store_withStore_of_ne {s : Snapshot} {scope other : Scope} (h : other ≠ scope) (store : Store) :
    (s.withStore scope store).store other = s.store other := by
  cases scope <;> cases other <;> first | rfl | exact absurd rfl h

end Snapshot

end Dialogue
