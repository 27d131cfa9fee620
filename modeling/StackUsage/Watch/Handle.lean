/-! Who holds what must be released. A handle is released at most once, however often it is
disposed. A slot holds one item and a batch a whole generation of them; putting something new into
either gives the old contents back for disposal first. Every operation returns what it disposed or
released, in order. -/

namespace StackUsage

/-- A claim on a watch, until it is released. -/
structure Handle where
  id : Nat
  live : Bool
  deriving DecidableEq, Repr

namespace Handle

def new (id : Nat) : Handle := ⟨id, true⟩

def dispose (h : Handle) : Handle × List Nat :=
  (⟨h.id, false⟩, if h.live then [h.id] else [])

def describe (h : Handle) : String :=
  "WatchHandle \x7b id: " ++ toString h.id ++ ", live: " ++ toString h.live ++ " \x7d"

end Handle

structure Slot (α : Type) where
  current : Option α
  deriving DecidableEq, Repr

namespace Slot

def empty : Slot α := ⟨none⟩

def isSet (s : Slot α) : Bool := s.current.isSome

def dispose (s : Slot α) : Slot α × List α := (empty, s.current.toList)

def set (s : Slot α) (next : α) : Slot α × List α := (⟨some next⟩, s.current.toList)

end Slot

structure Batch (α : Type) where
  items : List α
  deriving DecidableEq, Repr

namespace Batch

def empty : Batch α := ⟨[]⟩

def size (b : Batch α) : Nat := b.items.length

def isEmpty (b : Batch α) : Bool := b.items.isEmpty

def dispose (b : Batch α) : Batch α × List α := (empty, b.items)

def set (b : Batch α) (next : List α) : Batch α × List α := (⟨next⟩, b.items)

end Batch

end StackUsage
