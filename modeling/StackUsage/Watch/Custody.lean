import StackUsage.Watch.Handle

/-! A slot and a batch of numbered items and a set of handles, with a record of every disposal and
every release. It shows what any sequence of operations on them adds up to. Dropping a holder
disposes of its contents and leaves a new empty one in its place; dropping a handle disposes of
it and forgets it. -/

namespace StackUsage

/-- Handles are kept by rising number. -/
structure Custody where
  slot : Slot Nat
  batch : Batch Nat
  handles : List Handle
  disposed : List Nat
  released : List Nat
  deriving DecidableEq, Repr

namespace Custody

inductive Step
  | setSlot (item : Nat)
  | disposeSlot
  | dropSlot
  | setBatch (items : List Nat)
  | disposeBatch
  | dropBatch
  | newHandle (id : Nat)
  | disposeHandle (id : Nat)
  | dropHandle (id : Nat)
  deriving DecidableEq, Repr

def empty : Custody := ⟨.empty, .empty, [], [], []⟩

def putSlot (c : Custody) (s : Slot Nat × List Nat) : Custody :=
  { c with slot := s.1, disposed := c.disposed ++ s.2 }

def putBatch (c : Custody) (b : Batch Nat × List Nat) : Custody :=
  { c with batch := b.1, disposed := c.disposed ++ b.2 }

/-- The releases that disposing of the handles under a number causes. -/
def releases (c : Custody) (id : Nat) : List Nat :=
  (c.handles.filter (·.id = id)).flatMap fun h => h.dispose.2

def insertHandle (h : Handle) : List Handle → List Handle
  | [] => [h]
  | g :: rest => if h.id ≤ g.id then h :: g :: rest else g :: insertHandle h rest

def dropHandle (c : Custody) (id : Nat) : Custody :=
  { c with handles := c.handles.filter (·.id ≠ id), released := c.released ++ c.releases id }

def step (c : Custody) : Step → Custody
  | .setSlot item => c.putSlot (c.slot.set item)
  | .disposeSlot => c.putSlot c.slot.dispose
  | .dropSlot => c.putSlot c.slot.dispose
  | .setBatch items => c.putBatch (c.batch.set items)
  | .disposeBatch => c.putBatch c.batch.dispose
  | .dropBatch => c.putBatch c.batch.dispose
  | .newHandle id =>
    let c := c.dropHandle id
    { c with handles := insertHandle (.new id) c.handles }
  | .disposeHandle id =>
    { c with
      handles := c.handles.map fun h => if h.id = id then h.dispose.1 else h
      released := c.released ++ c.releases id }
  | .dropHandle id => c.dropHandle id

def run (c : Custody) (steps : List Step) : Custody := steps.foldl step c

/-- Drops the slot, the batch and all handles. -/
def close (c : Custody) : Custody :=
  (c.run [.dropSlot, .dropBatch]).run (c.handles.map fun h => .dropHandle h.id)

end Custody

end StackUsage
