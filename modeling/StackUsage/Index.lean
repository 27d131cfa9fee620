import StackUsage.Usage

/-! The index of stack usage: one entry for each compiled source, in the order of their last
update. An update replaces the whole entry, so nothing of an old report is left behind, and says
which declared paths it touched. -/

namespace StackUsage

/-- The records that one compiled source contributes. -/
structure SourceEntry where
  sourceKey : String
  usages : List Usage
  deriving DecidableEq, Repr

structure Index where
  entries : List SourceEntry
  deriving DecidableEq, Repr

/-- The members of a list in rising order, each once. -/
def sortedSet (names : List String) : List String :=
  names.eraseDups.mergeSort fun a b => decide (a ≤ b)

namespace Index

def empty : Index := ⟨[]⟩

def entry? (index : Index) (key : String) : Option SourceEntry :=
  index.entries.find? (·.sourceKey = key)

/-- The records of a source; none where it has no entry. -/
def usagesOf (index : Index) (key : String) : List Usage :=
  index.entries.flatMap fun entry => if entry.sourceKey = key then entry.usages else []

/-- The declared paths that lose or gain records when the entry of `key` becomes `usages`. -/
def affected (index : Index) (key : String) (usages : List Usage) : List String :=
  sortedSet ((index.usagesOf key ++ usages).map (·.declaredPath))

/-- Replaces the entry of `key`; the new one comes last. -/
def apply (index : Index) (key : String) (usages : List Usage) : Index :=
  ⟨index.entries.filter (·.sourceKey ≠ key) ++ [⟨key, usages⟩]⟩

def usages (index : Index) : List Usage := index.entries.flatMap (·.usages)

/-- The records declared for a path, in the order of the entries. -/
def query (index : Index) (path : String) : List Usage :=
  index.usages.filter (·.declaredPath = path)

/-- The number of records in all entries. -/
def size (index : Index) : Nat := index.usages.length

def isEmpty (index : Index) : Bool := index.entries.all (·.usages.isEmpty)

def sourceCount (index : Index) : Nat := index.entries.length

end Index

end StackUsage
