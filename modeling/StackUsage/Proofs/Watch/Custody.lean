import Mathlib.Data.List.Perm.Basic
import Mathlib.Data.List.Nodup
import StackUsage.Watch.Custody
import StackUsage.Proofs.Watch.Tenure

/-! What becomes of everything that is put into a slot or a batch, and of every handle. Each
operation balances: what it gives back and what is held after it are what was held before it and
what it puts in. So, over any run, everything put in has been disposed of once or is still held, in
the order in which it was put in, and any further use of the holder disposes of the rest. A handle
balances in the same way, as something that holds the one release it was made with. -/

namespace StackUsage

/-! ### Runs that balance -/

section Collect

variable {σ ω α : Type}

/-- Performs operations one after another and collects what they give back. -/
def collect (op : σ → ω → σ × List α) : σ → List ω → σ × List α
  | s, [] => (s, [])
  | s, u :: rest =>
    let later := collect op (op s u).1 rest
    (later.1, (op s u).2 ++ later.2)

theorem collect_append (op : σ → ω → σ × List α) (s : σ) (us ws : List ω) :
    collect op s (us ++ ws) =
      let first := collect op s us
      let later := collect op first.1 ws
      (later.1, first.2 ++ later.2) := by
  induction us generalizing s with
  | nil => rfl
  | cons u us ih => simp only [List.cons_append, collect, ih, List.append_assoc]

/-- If every operation balances, a run does. -/
theorem collect_balance (op : σ → ω → σ × List α) (held : σ → List α) (puts : ω → List α)
    (balance : ∀ s u, (op s u).2 ++ held (op s u).1 = held s ++ puts u) (s : σ) (us : List ω) :
    (collect op s us).2 ++ held (collect op s us).1 = held s ++ us.flatMap puts := by
  induction us generalizing s with
  | nil => simp [collect]
  | cons u us ih =>
    simp only [collect, List.append_assoc, List.flatMap_cons]
    rw [ih, ← List.append_assoc, balance, List.append_assoc]

end Collect

/-! ### Holders -/

/-- How something comes to be disposed of. -/
inductive Way
  | dispose
  | drop

/-- What is done with a holder: new contents are put in, or it is cleared. A holder that is dropped
is replaced by an empty one. -/
inductive Use (β : Type)
  | set (next : β)
  | clear (way : Way)

/-- The contents that a use puts in. -/
def Use.next {β : Type} : Use β → Option β
  | .set next => some next
  | .clear _ => none

variable {α : Type}

namespace Slot

def use (s : Slot α) : Use α → Slot α × List α
  | .set next => s.set next
  | .clear _ => s.dispose

/-- A use disposes of the item that is held, and leaves the one it puts in. -/
theorem use_eq (s : Slot α) (u : Use α) : s.use u = (⟨u.next⟩, s.current.toList) := by
  cases u <;> rfl

theorem collect_use (s : Slot α) (uses : List (Use α)) :
    (collect use s uses).2 ++ (collect use s uses).1.current.toList =
      s.current.toList ++ uses.flatMap (·.next.toList) :=
  collect_balance use (·.current.toList) (·.next.toList) (fun s u => by rw [use_eq]) s uses

theorem collect_use_append (s : Slot α) (uses : List (Use α)) (u : Use α) :
    collect use s (uses ++ [u]) =
      (⟨u.next⟩, s.current.toList ++ uses.flatMap (·.next.toList)) := by
  rw [collect_append, ← collect_use]
  simp only [collect, use_eq, List.append_nil]

end Slot

namespace Batch

def use (b : Batch α) : Use (List α) → Batch α × List α
  | .set next => b.set next
  | .clear _ => b.dispose

/-- A use disposes of the items that are held, in order, and leaves those it puts in. -/
theorem use_eq (b : Batch α) (u : Use (List α)) : b.use u = (⟨u.next.getD []⟩, b.items) := by
  cases u <;> rfl

theorem collect_use (b : Batch α) (uses : List (Use (List α))) :
    (collect use b uses).2 ++ (collect use b uses).1.items =
      b.items ++ uses.flatMap (·.next.getD []) :=
  collect_balance use (·.items) (·.next.getD []) (fun b u => by rw [use_eq]) b uses

theorem collect_use_append (b : Batch α) (uses : List (Use (List α))) (u : Use (List α)) :
    collect use b (uses ++ [u]) = (⟨u.next.getD []⟩, b.items ++ uses.flatMap (·.next.getD [])) := by
  rw [collect_append, ← collect_use]
  simp only [collect, use_eq, List.append_nil]

end Batch

/-! ### Handles -/

open Tenure

namespace Handle

/-- Being dropped disposes of a handle as well. -/
def use (h : Handle) : Way → Handle × List Nat
  | .dispose => h.dispose
  | .drop => h.dispose

theorem use_eq (h : Handle) (w : Way) : h.use w = (⟨h.id, false⟩, liveIds [h]) := by
  cases w <;> exact dispose_eq h

/-- A handle holds its release until the first disposal. -/
theorem collect_use (h : Handle) (ways : List Way) :
    (collect use h ways).2 ++ liveIds [(collect use h ways).1] = liveIds [h] := by
  have law := collect_balance use (liveIds [·]) (fun _ => []) (fun h w => by simp [use_eq, liveIds])
    h ways
  rwa [List.flatMap_eq_nil_iff.2 fun _ _ => rfl, List.append_nil] at law

theorem collect_use_cons (h : Handle) (first : Way) (more : List Way) :
    (collect use h (first :: more)).2 = liveIds [h] := by
  have law := collect_use ⟨h.id, false⟩ more
  rw [collect, use_eq]
  simp_all [liveIds]

end Handle

/-- Handles that are disposed of at least once each release what was still live. -/
theorem flatMap_collect_use (handles : List Handle) (first : Handle → Way)
    (more : Handle → List Way) :
    handles.flatMap (fun h => (collect Handle.use h (first h :: more h)).2) = liveIds handles := by
  induction handles with
  | nil => rfl
  | cons h rest ih => rw [List.flatMap_cons, ih, Handle.collect_use_cons, ← liveIds_cons]

theorem gone_append_perm (id : Nat) (handles : List Handle) :
    (gone id handles ++ (liveIds handles).filter (· ≠ id)).Perm (liveIds handles) := by
  rw [gone_eq]
  simpa using List.filter_append_perm (· = id) (liveIds handles)

/-! ### Slot, batch and handles together -/

namespace Custody

/-- A use of the slot as a step. -/
def Step.onSlot : Use Nat → Step
  | .set item => .setSlot item
  | .clear .dispose => .disposeSlot
  | .clear .drop => .dropSlot

/-- A use of the batch as a step. -/
def Step.onBatch : Use (List Nat) → Step
  | .set items => .setBatch items
  | .clear .dispose => .disposeBatch
  | .clear .drop => .dropBatch

/-- The items that a step puts into the slot. -/
def Step.intoSlot : Step → List Nat
  | .setSlot item => [item]
  | _ => []

/-- The items that a step puts into the batch, in order. -/
def Step.intoBatch : Step → List Nat
  | .setBatch items => items
  | _ => []

/-- The numbers under which a step makes a handle. -/
def Step.opened : Step → List Nat
  | .newHandle id => [id]
  | _ => []

theorem Step.puts_onSlot (u : Use Nat) : (onSlot u).intoSlot = u.next.toList ∧
    (onSlot u).intoBatch = [] ∧ (onSlot u).opened = [] := by
  rcases u with item | way
  · exact ⟨rfl, rfl, rfl⟩
  · cases way <;> exact ⟨rfl, rfl, rfl⟩

theorem Step.puts_onBatch (u : Use (List Nat)) : (onBatch u).intoSlot = [] ∧
    (onBatch u).intoBatch = u.next.getD [] ∧ (onBatch u).opened = [] := by
  rcases u with items | way
  · exact ⟨rfl, rfl, rfl⟩
  · cases way <;> exact ⟨rfl, rfl, rfl⟩

theorem step_onSlot (c : Custody) (u : Use Nat) :
    c.step (.onSlot u) =
      { c with slot := ⟨u.next⟩, disposed := c.disposed ++ c.slot.current.toList } := by
  rcases u with item | way
  · rfl
  · cases way <;> rfl

theorem step_onBatch (c : Custody) (u : Use (List Nat)) :
    c.step (.onBatch u) =
      { c with batch := ⟨u.next.getD []⟩, disposed := c.disposed ++ c.batch.items } := by
  rcases u with items | way
  · rfl
  · cases way <;> rfl

theorem insertHandle_perm (h : Handle) (handles : List Handle) :
    (insertHandle h handles).Perm (h :: handles) := by
  induction handles with
  | nil => rfl
  | cons g rest ih =>
    rw [insertHandle]
    split
    · rfl
    · exact (ih.cons g).trans (.swap h g rest)

/-- What has become of everything that the steps put in. Each disposal is one of an item of the slot
or one of an item of the batch; with those that are held, these are the items put in, in order. The
handles made have been released or are live, and no two have one number. -/
structure Ledger (steps : List Step) (c : Custody) : Prop where
  disposals : ∃ log : List (Nat ⊕ Nat), log.map (Sum.elim id id) = c.disposed ∧
    log.filterMap Sum.getLeft? ++ c.slot.current.toList = steps.flatMap Step.intoSlot ∧
    log.filterMap Sum.getRight? ++ c.batch.items = steps.flatMap Step.intoBatch
  releases : (c.released ++ liveIds c.handles).Perm (steps.flatMap Step.opened)
  distinct : (c.handles.map (·.id)).Nodup

namespace Ledger

variable {steps : List Step} {c : Custody}

theorem empty : Ledger [] .empty := ⟨⟨[], rfl, rfl, rfl⟩, .refl _, .nil⟩

/-- A step that takes something out of the holders and leaves them with the rest and with what it
puts in. -/
theorem balance (h : Ledger steps c) {s : Step} (taken : List (Nat ⊕ Nat)) (slot : Slot Nat)
    (batch : Batch Nat) (opened : s.opened = [])
    (ofSlot : taken.filterMap Sum.getLeft? ++ slot.current.toList =
      c.slot.current.toList ++ s.intoSlot)
    (ofBatch : taken.filterMap Sum.getRight? ++ batch.items = c.batch.items ++ s.intoBatch) :
    Ledger (steps ++ [s]) { c with
      slot := slot
      batch := batch
      disposed := c.disposed ++ taken.map (Sum.elim id id) } := by
  obtain ⟨⟨log, whole, inSlot, inBatch⟩, releases, distinct⟩ := h
  refine ⟨⟨log ++ taken, ?_, ?_, ?_⟩, ?_, distinct⟩
  · rw [List.map_append, whole]
  · rw [List.filterMap_append, List.append_assoc, ofSlot, ← List.append_assoc, inSlot]
    simp
  · rw [List.filterMap_append, List.append_assoc, ofBatch, ← List.append_assoc, inBatch]
    simp
  · simpa [opened] using releases

theorem onSlot (h : Ledger steps c) (u : Use Nat) :
    Ledger (steps ++ [.onSlot u]) (c.step (.onSlot u)) := by
  obtain ⟨intoSlot, intoBatch, opened⟩ := Step.puts_onSlot u
  have law := h.balance (c.slot.current.toList.map .inl) ⟨u.next⟩ c.batch opened
  rw [step_onSlot]
  simpa [intoSlot, intoBatch, List.filterMap_map, Function.comp_def] using law

theorem onBatch (h : Ledger steps c) (u : Use (List Nat)) :
    Ledger (steps ++ [.onBatch u]) (c.step (.onBatch u)) := by
  obtain ⟨intoSlot, intoBatch, opened⟩ := Step.puts_onBatch u
  have law := h.balance (c.batch.items.map .inr) c.slot ⟨u.next.getD []⟩ opened
  rw [step_onBatch]
  simpa [intoSlot, intoBatch, List.filterMap_map, Function.comp_def] using law

/-- A step that puts nothing in makes no difference to what must have become of things. -/
theorem append_quiet {s : Step} (slot : s.intoSlot = []) (batch : s.intoBatch = [])
    (opened : s.opened = []) : Ledger (steps ++ [s]) c ↔ Ledger steps c := by
  have same : ∀ f : Step → List Nat, f s = [] → (steps ++ [s]).flatMap f = steps.flatMap f :=
    fun f none => by simp [none]
  constructor
  · rintro ⟨disposals, releases, distinct⟩
    rw [same _ slot, same _ batch] at disposals
    rw [same _ opened] at releases
    exact ⟨disposals, releases, distinct⟩
  · rintro ⟨disposals, releases, distinct⟩
    refine ⟨?_, ?_, distinct⟩
    · rwa [same _ slot, same _ batch]
    · rwa [same _ opened]

/-- The handle with a number is disposed of, and may be forgotten. -/
theorem letGo (h : Ledger steps c) (id : Nat) {handles : List Handle}
    (live : liveIds handles = (liveIds c.handles).filter (· ≠ id))
    (fewer : (handles.map (·.id)).Sublist (c.handles.map (·.id))) :
    Ledger steps { c with handles := handles, released := c.released ++ c.releases id } := by
  refine ⟨h.disposals, ?_, fewer.nodup h.distinct⟩
  have split : (c.releases id ++ liveIds handles).Perm (liveIds c.handles) :=
    live ▸ gone_append_perm id c.handles
  rw [List.append_assoc]
  exact (split.append_left _).trans h.releases

theorem dropped (h : Ledger steps c) (id : Nat) : Ledger steps (c.dropHandle id) :=
  h.letGo id (liveIds_drop id c.handles) (List.filter_sublist.map _)

theorem disposed (h : Ledger steps c) (id : Nat) : Ledger steps (c.step (.disposeHandle id)) := by
  refine h.letGo id (liveIds_dispose id c.handles) ?_
  rw [ids_dispose]

/-- A new handle comes after the older one with its number has been dropped. -/
theorem newHandle (h : Ledger steps c) (id : Nat) :
    Ledger (steps ++ [.newHandle id]) (c.step (.newHandle id)) := by
  obtain ⟨⟨log, whole, slot, batch⟩, releases, distinct⟩ := h.dropped id
  have inserted := insertHandle_perm (.new id) (c.dropHandle id).handles
  refine ⟨⟨log, whole, ?_, ?_⟩, ?_, ?_⟩
  · rw [List.flatMap_append, ← slot]
    simp [Step.intoSlot, Custody.step]
  · rw [List.flatMap_append, ← batch]
    simp [Step.intoBatch, Custody.step]
  · have live : (liveIds (c.step (.newHandle id)).handles).Perm
        (liveIds (c.dropHandle id).handles ++ [id]) :=
      ((inserted.filter _).map _).trans (List.perm_append_singleton id _).symm
    rw [List.flatMap_append]
    refine (live.append_left _).trans ?_
    rw [← List.append_assoc]
    exact releases.append_right [id]
  · refine (inserted.map _).nodup_iff.2 (List.nodup_cons.2 ⟨?_, distinct⟩)
    simp [Custody.dropHandle, Handle.new]

theorem step (h : Ledger steps c) (s : Step) : Ledger (steps ++ [s]) (c.step s) := by
  cases s with
  | setSlot item => exact h.onSlot (.set item)
  | disposeSlot => exact h.onSlot (.clear .dispose)
  | dropSlot => exact h.onSlot (.clear .drop)
  | setBatch items => exact h.onBatch (.set items)
  | disposeBatch => exact h.onBatch (.clear .dispose)
  | dropBatch => exact h.onBatch (.clear .drop)
  | newHandle id => exact h.newHandle id
  | disposeHandle id => exact (append_quiet rfl rfl rfl).2 (h.disposed id)
  | dropHandle id => exact (append_quiet rfl rfl rfl).2 (h.dropped id)

theorem run (h : Ledger steps c) (more : List Step) : Ledger (steps ++ more) (c.run more) := by
  induction more generalizing steps c with
  | nil => simpa [Custody.run] using h
  | cons s more ih => simpa [Custody.run] using ih (h.step s)

theorem dropAll (h : Ledger steps c) (ids : List Nat) :
    Ledger steps (c.run (ids.map .dropHandle)) := by
  induction ids generalizing c with
  | nil => exact h
  | cons id ids ih => exact ih (h.dropped id)

theorem close (h : Ledger steps c) : Ledger steps c.close := by
  have slot : Ledger steps (c.step (.onSlot (.clear .drop))) :=
    (append_quiet rfl rfl rfl).1 (h.onSlot _)
  have batch : Ledger steps ((c.step (.onSlot (.clear .drop))).step (.onBatch (.clear .drop))) :=
    (append_quiet rfl rfl rfl).1 (slot.onBatch _)
  have all := batch.dropAll (c.handles.map (·.id))
  rwa [List.map_map] at all

end Ledger

theorem run_dropHandle (c : Custody) (ids : List Nat) :
    (c.run (ids.map .dropHandle)).handles = c.handles.filter (·.id ∉ ids) ∧
      (c.run (ids.map .dropHandle)).slot = c.slot ∧
      (c.run (ids.map .dropHandle)).batch = c.batch := by
  induction ids generalizing c with
  | nil => simp [run]
  | cons id ids ih =>
    obtain ⟨handles, slot, batch⟩ := ih (c.dropHandle id)
    refine ⟨handles.trans ?_, slot, batch⟩
    simp only [dropHandle, List.filter_filter, List.mem_cons, not_or, Bool.decide_and,
      Bool.and_comm]

/-- After the end nothing is held. -/
theorem close_holds_nothing (c : Custody) :
    c.close.slot = .empty ∧ c.close.batch = .empty ∧ c.close.handles = [] := by
  have dropped := run_dropHandle (c.run [.dropSlot, .dropBatch]) (c.handles.map (·.id))
  rw [List.map_map] at dropped
  obtain ⟨handles, slot, batch⟩ := dropped
  refine ⟨slot, batch, handles.trans (List.filter_eq_nil_iff.2 fun h there => ?_)⟩
  simpa using ⟨h, there, rfl⟩

/-- What has been disposed of or released stays so. -/
theorem prefix_step (c : Custody) (s : Step) :
    c.disposed <+: (c.step s).disposed ∧ c.released <+: (c.step s).released := by
  cases s <;> exact ⟨by simp [step, putSlot, putBatch, dropHandle],
    by simp [step, putSlot, putBatch, dropHandle]⟩

theorem prefix_run (c : Custody) (steps : List Step) :
    c.disposed <+: (c.run steps).disposed ∧ c.released <+: (c.run steps).released := by
  induction steps generalizing c with
  | nil => exact ⟨List.prefix_refl _, List.prefix_refl _⟩
  | cons s steps ih =>
    obtain ⟨disposed, released⟩ := c.prefix_step s
    obtain ⟨disposedLater, releasedLater⟩ := ih (c.step s)
    exact ⟨disposed.trans disposedLater, released.trans releasedLater⟩

/-- What holds after these steps and at the end: both holders balance, what is done next empties
what it is done to, nothing is taken back, and the end leaves nothing. -/
structure Settled (steps : List Step) : Prop where
  ledger : Ledger steps (run .empty steps)
  slot : ∀ u : Use Nat, ((run .empty steps).step (.onSlot u)).slot.current = u.next
  batch : ∀ u : Use (List Nat),
    ((run .empty steps).step (.onBatch u)).batch.items = u.next.getD []
  handles : ∀ id, id ∉ liveIds ((run .empty steps).step (.disposeHandle id)).handles ∧
    id ∉ liveIds ((run .empty steps).step (.dropHandle id)).handles
  kept : ∀ more, (run .empty steps).disposed <+: (run .empty (steps ++ more)).disposed ∧
    (run .empty steps).released <+: (run .empty (steps ++ more)).released
  closed : Ledger steps (run .empty steps).close
  slot_close : (run .empty steps).close.slot = .empty
  batch_close : (run .empty steps).close.batch = .empty
  handles_close : (run .empty steps).close.handles = []

theorem settled (steps : List Step) : Settled steps := by
  have ledger : Ledger steps (run .empty steps) := Ledger.empty.run steps
  obtain ⟨slot, batch, handles⟩ := close_holds_nothing (run .empty steps)
  exact {
    ledger := ledger
    slot := fun u => by rw [step_onSlot]
    batch := fun u => by rw [step_onBatch]
    handles := fun id => by
      constructor
      · rw [step, liveIds_dispose]
        simp
      · rw [step, dropHandle, liveIds_drop]
        simp
    kept := fun more => by
      rw [run, run, List.foldl_append]
      exact prefix_run _ more
    closed := ledger.close
    slot_close := slot
    batch_close := batch
    handles_close := handles }

/-- Each item put into a holder is disposed of once, in order, and each handle released once. -/
structure ExactlyOnce : Prop where
  slot : ∀ (α : Type) (uses : List (Use α)),
    (collect Slot.use .empty uses).2 ++ (collect Slot.use .empty uses).1.current.toList =
      uses.flatMap (·.next.toList)
  slot_next : ∀ (α : Type) (uses : List (Use α)) (u : Use α),
    collect Slot.use .empty (uses ++ [u]) = (⟨u.next⟩, uses.flatMap (·.next.toList))
  batch : ∀ (α : Type) (uses : List (Use (List α))),
    (collect Batch.use .empty uses).2 ++ (collect Batch.use .empty uses).1.items =
      uses.flatMap (·.next.getD [])
  batch_next : ∀ (α : Type) (uses : List (Use (List α))) (u : Use (List α)),
    collect Batch.use .empty (uses ++ [u]) = (⟨u.next.getD []⟩, uses.flatMap (·.next.getD []))
  handle : ∀ (id : Nat) (first : Way) (more : List Way),
    (collect Handle.use (.new id) (first :: more)).2 = [id]
  slot_handles : ∀ (uses : List (Use Handle)) (more : Handle → List Way),
    (collect Slot.use .empty uses).2.flatMap
        (fun h => (collect Handle.use h (.dispose :: more h)).2) ++
      liveIds (collect Slot.use .empty uses).1.current.toList =
        liveIds (uses.flatMap (·.next.toList))
  batch_handles : ∀ (uses : List (Use (List Handle))) (more : Handle → List Way),
    (collect Batch.use .empty uses).2.flatMap
        (fun h => (collect Handle.use h (.dispose :: more h)).2) ++
      liveIds (collect Batch.use .empty uses).1.items =
        liveIds (uses.flatMap (·.next.getD []))
  custody : ∀ steps : List Step, Settled steps

/-- What is put into a holder is disposed of once, and a handle is released once. Over any run
of uses of a slot or a batch, the items disposed of and those held are the items put in, in order,
and any further use, so in particular a replacement or a drop, disposes of all that were put in
before. A handle is released by the first of its disposals, whether these come from uses of its own
or from a holder that disposes of it and then drops it. With a slot, a batch and handles under
numbers together, the disposals can be told apart so that both holders balance, and the handles made
are those released and those live; whatever was done before, the end disposes of the rest. -/
theorem settled_exactly_once : ExactlyOnce where
  slot _ uses := Slot.collect_use .empty uses
  slot_next _ uses u := Slot.collect_use_append .empty uses u
  batch _ uses := Batch.collect_use .empty uses
  batch_next _ uses u := Batch.collect_use_append .empty uses u
  handle id first more := Handle.collect_use_cons (.new id) first more
  slot_handles uses more := by
    rw [flatMap_collect_use, ← liveIds_append, Slot.collect_use]
    rfl
  batch_handles uses more := by
    rw [flatMap_collect_use, ← liveIds_append, Batch.collect_use]
    rfl
  custody := settled

end Custody

end StackUsage
