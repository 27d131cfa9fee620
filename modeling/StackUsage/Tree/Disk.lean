import StackUsage.Tree

/-! A tree that may change while it is being read. Each read of a call has a number, and a disk
says which tree that read finds; a still disk shows every read the same tree. -/

namespace StackUsage

abbrev Disk := Nat → Tree

namespace Disk

/-- A tree that does not change during the call. -/
def still (t : Tree) : Disk := fun _ => t

/-- What is left of a disk once `n` reads are done. -/
def after (d : Disk) (n : Nat) : Disk := fun k => d (n + k)

@[simp] theorem still_apply (t : Tree) (n : Nat) : still t n = t := rfl

@[simp] theorem after_still (t : Tree) (n : Nat) : (still t).after n = still t := rfl

end Disk

end StackUsage
