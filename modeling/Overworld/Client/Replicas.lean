import Std.Data.HashMap
import Overworld.Wire.Message

set_option autoImplicit false

/-!
The entities that a client sees, each by its latest snapshot. They are kept under their full ids, so
that a late word on an entity that left is not taken for its successor.
-/

namespace Overworld

structure Replicas where
  snapshots : Std.HashMap EntityId Snapshot

namespace Replicas

def empty : Replicas := ⟨∅⟩

def get? (replicas : Replicas) (entity : EntityId) : Option Snapshot := replicas.snapshots[entity]?

def contains (replicas : Replicas) (entity : EntityId) : Bool := replicas.snapshots.contains entity

def size (replicas : Replicas) : Nat := replicas.snapshots.size

def isEmpty (replicas : Replicas) : Bool := replicas.snapshots.isEmpty

/-- An entity comes into view, in place of any older copy. -/
def enter (replicas : Replicas) (snapshot : Snapshot) : Replicas :=
  ⟨replicas.snapshots.insert snapshot.entity snapshot⟩

/-- Takes an update of an entity in view, unless it is out of date. -/
def update? (replicas : Replicas) (snapshot : Snapshot) : Option Replicas :=
  match replicas.get? snapshot.entity with
  | none => none
  | some current => if current.tick ≤ snapshot.tick then some (replicas.enter snapshot) else none

def leave (replicas : Replicas) (entity : EntityId) : Replicas :=
  ⟨replicas.snapshots.erase entity⟩

/-- The snapshots by ascending entity. -/
def entries (replicas : Replicas) : List Snapshot :=
  (EntityId.sort replicas.snapshots.keys).filterMap replicas.get?

end Replicas

end Overworld
