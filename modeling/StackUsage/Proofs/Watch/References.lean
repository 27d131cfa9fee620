import Mathlib.Data.List.Dedup
import StackUsage.Proofs.Watch.Contract

/-! The counting of shared directory watches. Each armed registration holds one reference to its
directory, so a directory is watched as long as one is armed there, and the system is asked for it
once. Registrations are armed, moved and given up in any order, on any trees, and any request to the
system may be refused. Moving one gives up the old reference before it asks for the new one, so the
counts are compared with a list of keys and not with the registrations themselves. -/

namespace StackUsage

theorem Path.same_iff {p q : Path} : p.same q = true ↔ p.components = q.components := by
  simp [Path.same]

namespace Registry

/-- The directories that have a count. -/
def entries (r : Registry) : List Path := r.references.map (·.1)

/-- The count of references to a directory. -/
def referencesTo (r : Registry) (key : Path) : Nat :=
  ((r.references.find? fun ref => ref.1.same key).map (·.2)).getD 0

/-- How many of the keys are the same directory. -/
def countOf (key : Path) (keys : List Path) : Nat := keys.countP (·.same key)

theorem countOf_congr {p q : Path} (h : p.components = q.components) (keys : List Path) :
    countOf p keys = countOf q keys := by simp only [countOf, Path.same, h]

theorem countOf_cons (key p : Path) (keys : List Path) :
    countOf key (p :: keys) =
      (if p.components = key.components then 1 else 0) + countOf key keys := by
  simp only [countOf, List.countP_cons, Path.same_iff, Nat.add_comm]

theorem countOf_eq_zero {key : Path} {keys : List Path} :
    countOf key keys = 0 ↔ ∀ p ∈ keys, p.components ≠ key.components := by
  simp [countOf, Path.same_iff]

theorem isWatched_iff {r : Registry} {key : Path} :
    r.isWatched key = true ↔ ∃ p ∈ r.entries, p.components = key.components := by
  simp [isWatched, entries, Path.same_iff]

/-! ### References and the keys they are for -/

/-- The references are those of the keys: each directory has one entry, which counts its keys and
is not zero, and the system watches the same directories. -/
structure Counts (keys : List Path) (r : Registry) : Prop where
  counted : ∀ ref ∈ r.references, ref.2 = countOf ref.1 keys ∧ 0 < ref.2
  watched : ∀ key ∈ keys, r.isWatched key = true
  distinct : (r.entries.map Path.components).Nodup
  held : r.watcher.held = r.entries

namespace Counts

variable {keys keys' : List Path} {r r' : Registry} {key : Path}

theorem referencesTo (h : Counts keys r) (key : Path) : r.referencesTo key = countOf key keys := by
  unfold Registry.referencesTo
  cases hf : r.references.find? fun ref => ref.1.same key with
  | some ref =>
    have hs : ref.1.same key = true :=
      List.find?_some (p := fun ref : Path × Nat => ref.1.same key) hf
    rw [← countOf_congr (Path.same_iff.1 hs)]
    exact (h.counted ref (List.mem_of_find?_eq_some hf)).1
  | none =>
    refine (countOf_eq_zero.2 fun p hp he => ?_).symm
    obtain ⟨q, hq, hqp⟩ := isWatched_iff.1 (h.watched p hp)
    obtain ⟨ref, hr, rfl⟩ := List.mem_map.1 hq
    exact List.find?_eq_none.1 hf ref hr (Path.same_iff.2 (hqp.trans he))

theorem perm (h : Counts keys r) (hp : keys.Perm keys') : Counts keys' r where
  counted ref hr := by
    rw [countOf, ← hp.countP_eq]
    exact h.counted ref hr
  watched p hq := h.watched p (hp.mem_iff.2 hq)
  distinct := h.distinct
  held := h.held

/-- Only the references and the watcher matter. -/
theorem move (h : Counts keys r) (hr : r'.references = r.references) (hw : r'.watcher = r.watcher) :
    Counts keys r' where
  counted := hr ▸ h.counted
  watched p hp := by
    rw [isWatched, hr]
    exact h.watched p hp
  distinct := by
    rw [entries, hr]
    exact h.distinct
  held := by rw [entries, hw, hr, h.held, entries]

/-- A directory that is watched already gets one more reference. -/
theorem share (h : Counts keys r) (hw : r.isWatched key = true) :
    (r.acquire key).1 = none ∧ Counts (key :: keys) (r.acquire key).2 := by
  rw [acquire, if_pos hw]
  have same : (r.references.map fun ref => if ref.1.same key then (ref.1, ref.2 + 1) else ref).map
      (·.1) = r.entries := by
    rw [List.map_map]
    refine List.map_congr_left fun ref _ => ?_
    simp only [Function.comp_apply]
    split <;> rfl
  refine ⟨rfl, fun ref hr => ?_, fun p hp => isWatched_iff.2 ?_, ?_, ?_⟩
  · obtain ⟨old, ho, rfl⟩ := List.mem_map.1 hr
    obtain ⟨count, pos⟩ := h.counted old ho
    by_cases hs : old.1.same key = true
    · rw [if_pos hs, countOf_cons, if_pos (Path.same_iff.1 hs).symm]
      dsimp only
      omega
    · rw [if_neg hs, countOf_cons, if_neg fun he => hs (Path.same_iff.2 he.symm)]
      omega
  · rw [entries, same]
    rcases List.mem_cons.1 hp with rfl | hp
    · exact isWatched_iff.1 hw
    · exact isWatched_iff.1 (h.watched p hp)
  · rw [entries, same]
    exact h.distinct
  · rw [entries, same]
    exact h.held

/-- A directory that is not watched is asked for, and has one reference if the system grants it. -/
theorem ask (h : Counts keys r) (hw : r.isWatched key = false) :
    ((r.acquire key).1 = none ∧ Counts (key :: keys) (r.acquire key).2) ∨
      ∃ text, (r.acquire key).1 = some text ∧ Counts keys (r.acquire key).2 := by
  rw [acquire, if_neg (by simp [hw])]
  unfold DirectoryWatcher.acquire
  cases r.watcher.refuses r.watcher.requests key with
  | some text => exact .inr ⟨text, rfl, h.counted, h.watched, h.distinct, h.held⟩
  | none =>
    have new : ∀ p ∈ r.entries, p.components ≠ key.components := by
      intro p hp he
      exact Bool.false_ne_true (hw.symm.trans (isWatched_iff.2 ⟨p, hp, he⟩))
    have none : countOf key keys = 0 := by
      refine countOf_eq_zero.2 fun p hp he => ?_
      obtain ⟨q, hq, hqp⟩ := isWatched_iff.1 (h.watched p hp)
      exact new q hq (hqp.trans he)
    have entries : ∀ watcher, entries
        { r with watcher := watcher, references := r.references ++ [(key, 1)] } =
          r.entries ++ [key] := fun _ => by simp [Registry.entries]
    refine .inl ⟨rfl, fun ref hr => ?_, fun p hp => isWatched_iff.2 ?_, ?_, ?_⟩
    · rcases List.mem_append.1 hr with hr | hr
      · rw [countOf_cons, if_neg (new _ (List.mem_map_of_mem hr)).symm, Nat.zero_add]
        exact h.counted ref hr
      · cases List.mem_singleton.1 hr
        rw [countOf_cons, if_pos rfl, none]
        exact ⟨rfl, Nat.one_pos⟩
    · rw [entries]
      rcases List.mem_cons.1 hp with rfl | hp
      · exact ⟨p, by simp, rfl⟩
      · obtain ⟨q, hq, he⟩ := isWatched_iff.1 (h.watched p hp)
        exact ⟨q, List.mem_append_left _ hq, he⟩
    · rw [entries, List.map_append, List.nodup_append]
      refine ⟨h.distinct, List.nodup_singleton _, ?_⟩
      intro a ha b hb
      obtain ⟨p, hp, rfl⟩ := List.mem_map.1 ha
      cases List.mem_singleton.1 hb
      exact new p hp
    · rw [entries]
      exact congrArg (· ++ [key]) h.held

theorem acquire (h : Counts keys r) (key : Path) :
    ((r.acquire key).1 = none ∧ Counts (key :: keys) (r.acquire key).2) ∨
      ∃ text, (r.acquire key).1 = some text ∧ Counts keys (r.acquire key).2 := by
  cases hw : r.isWatched key with
  | true => exact .inl (h.share hw)
  | false => exact h.ask hw

/-! #### Taking a reference back -/

/-- The references with one less for the key. -/
def lessOne (key : Path) (r : Registry) : List (Path × Nat) :=
  r.references.map fun ref => if ref.1.same key then (ref.1, ref.2 - 1) else ref

theorem entries_lessOne (key : Path) (r : Registry) : (lessOne key r).map (·.1) = r.entries := by
  rw [lessOne, List.map_map]
  refine List.map_congr_left fun ref _ => ?_
  simp only [Function.comp_apply]
  split <;> rfl

theorem counted_lessOne (h : Counts (key :: keys) r) :
    ∀ ref ∈ lessOne key r, ref.2 = countOf ref.1 keys := by
  intro ref hr
  obtain ⟨old, ho, rfl⟩ := List.mem_map.1 hr
  obtain ⟨count, pos⟩ := h.counted old ho
  rw [countOf_cons] at count
  by_cases hs : old.1.same key = true
  · rw [if_pos (Path.same_iff.1 hs).symm] at count
    rw [if_pos hs]
    dsimp only
    omega
  · rw [if_neg fun he => hs (Path.same_iff.2 he.symm)] at count
    rw [if_neg hs]
    omega

/-- Only the count of the key can fall to zero. -/
theorem same_of_zero (h : Counts (key :: keys) r) :
    ∀ ref ∈ lessOne key r, ref.2 = 0 → ref.1.same key = true := by
  intro ref hr hz
  obtain ⟨old, ho, rfl⟩ := List.mem_map.1 hr
  by_cases hs : old.1.same key = true
  · rw [if_pos hs]
    exact hs
  · rw [if_neg hs] at hz
    exact absurd hz (Nat.ne_of_gt (h.counted old ho).2)

/-- The entries that are left are those of the watcher: the key goes with its last reference. -/
theorem entries_unreference (h : Counts (key :: keys) r) :
    (r.unreference key).entries =
      if (lessOne key r).any fun ref => ref.1.same key && ref.2 = 0 then
        r.entries.filter fun held => !held.same key
      else r.entries := by
  change ((lessOne key r).filter (·.2 ≠ 0)).map (·.1) = _
  split
  · next gone =>
    obtain ⟨last, hl, hz⟩ := List.any_eq_true.1 gone
    simp only [Bool.and_eq_true, decide_eq_true_eq] at hz
    have none : countOf key keys = 0 := by
      rw [← countOf_congr (Path.same_iff.1 hz.1), ← h.counted_lessOne last hl, hz.2]
    rw [← entries_lessOne key r, List.filter_map]
    refine congrArg _ (List.filter_congr fun ref hr => ?_)
    by_cases hs : ref.1.same key = true
    · have : ref.2 = 0 := by
        rw [h.counted_lessOne ref hr, countOf_congr (Path.same_iff.1 hs), none]
      simp [this, hs]
    · have : ref.2 ≠ 0 := fun h0 => hs (h.same_of_zero ref hr h0)
      simp [this, hs]
  · next stay =>
    rw [List.filter_eq_self.2, entries_lessOne]
    intro ref hr
    rw [decide_eq_true_eq]
    intro h0
    refine stay (List.any_eq_true.2 ⟨ref, hr, ?_⟩)
    simp [h.same_of_zero ref hr h0, h0]

/-- Taking back the reference of one key leaves those of the others. -/
theorem unreference (h : Counts (key :: keys) r) : Counts keys (r.unreference key) := by
  have sub : (r.unreference key).entries.Sublist r.entries := by
    rw [h.entries_unreference]
    split
    · exact List.filter_sublist
    · exact .refl _
  refine ⟨fun ref hr => ?_, fun p hp => isWatched_iff.2 ?_, ?_, ?_⟩
  · obtain ⟨hl, hz⟩ := List.mem_filter.1 hr
    exact ⟨h.counted_lessOne ref hl, Nat.pos_of_ne_zero (by simpa using hz)⟩
  · obtain ⟨q, hq, he⟩ := isWatched_iff.1 (h.watched p (List.mem_cons_of_mem _ hp))
    rw [← entries_lessOne key r] at hq
    obtain ⟨ref, hr, rfl⟩ := List.mem_map.1 hq
    refine ⟨ref.1, List.mem_map_of_mem (List.mem_filter.2 ⟨hr, ?_⟩), he⟩
    have : countOf ref.1 keys ≠ 0 := fun hz => countOf_eq_zero.1 hz p hp he.symm
    simpa [h.counted_lessOne ref hr] using this
  · exact (sub.map _).nodup h.distinct
  · change (if (lessOne key r).any fun ref => ref.1.same key && ref.2 = 0 then
      r.watcher.release key else r.watcher).held = _
    rw [h.entries_unreference, ← h.held]
    split <;> rfl

end Counts

/-! ### The keys of the registrations -/

/-- The directories at which registrations are armed, each as often as one is armed there. -/
def armedKeys (regs : List Registration) : List Path :=
  regs.filterMap fun reg => reg.armed.map (·.key)

theorem mem_armedKeys {regs : List Registration} {key : Path} :
    key ∈ armedKeys regs ↔ ∃ reg ∈ regs, ∃ a, reg.armed = some a ∧ a.key = key := by
  simp [armedKeys, Option.map_eq_some_iff]

theorem armedKeys_cons (reg : Registration) (regs : List Registration) :
    armedKeys (reg :: regs) = (reg.armed.map (·.key)).toList ++ armedKeys regs := by
  unfold armedKeys
  cases ha : reg.armed <;> simp [ha]

theorem registrations_acquire (r : Registry) (key : Path) :
    (r.acquire key).2.registrations = r.registrations := by
  unfold acquire
  split
  · rfl
  · split <;> rfl

theorem registrations_leave (r : Registry) (reg : Registration) :
    (r.leave reg).registrations = r.registrations := by
  unfold leave
  split <;> rfl

/-- What a move can come to: the registration is armed nowhere, or at the place, or nowhere because
the place was refused. -/
theorem moveTo_cases (r : Registry) (reg : Registration) (place : Option Armed) :
    (place = none ∧ r.moveTo reg place = ((r.leave reg).setArmed reg.id none, [])) ∨
    (∃ a next, place = some a ∧ (r.leave reg).acquire a.key = (none, next) ∧
      r.moveTo reg place = (next.setArmed reg.id place, [])) ∨
    ∃ a next text, place = some a ∧ (r.leave reg).acquire a.key = (some text, next) ∧
      r.moveTo reg place = (next.setArmed reg.id none, [.directoryRefused a.key text]) := by
  unfold moveTo
  cases place with
  | none => exact .inl ⟨rfl, rfl⟩
  | some a =>
    dsimp only
    rcases hq : (r.leave reg).acquire a.key with ⟨_ | text, next⟩
    · exact .inr (.inl ⟨a, next, rfl, hq, rfl⟩)
    · exact .inr (.inr ⟨a, next, text, rfl, hq, rfl⟩)

theorem registrations_moved {r next : Registry} {reg : Registration} {key : Path}
    {answer : Option String} (hq : (r.leave reg).acquire key = (answer, next)) :
    next.registrations = r.registrations := by
  have acquired := registrations_acquire (r.leave reg) key
  rw [hq] at acquired
  exact acquired.trans (registrations_leave r reg)

/-- A number belongs to one registration, so the others are those with other numbers. -/
theorem perm_of_mem {regs : List Registration} (distinct : (regs.map (·.id)).Nodup)
    {reg : Registration} (hr : reg ∈ regs) : regs.Perm (reg :: regs.filter (·.id ≠ reg.id)) := by
  induction regs with
  | nil => cases hr
  | cons first rest ih =>
    obtain ⟨hf, hd⟩ := List.nodup_cons.1 distinct
    rcases List.mem_cons.1 hr with rfl | hr
    · rw [List.filter_cons_of_neg (by simp), List.filter_eq_self.2]
      intro other ho
      rw [decide_eq_true_eq]
      exact fun he => hf (List.mem_map.2 ⟨other, ho, he⟩)
    · have ne : first.id ≠ reg.id := fun he => hf (List.mem_map.2 ⟨reg, hr, he.symm⟩)
      rw [List.filter_cons_of_pos (by simp [ne])]
      exact ((ih hd hr).cons first).trans (.swap ..)

theorem perm_setArmed {r : Registry} (distinct : (r.registrations.map (·.id)).Nodup)
    {reg : Registration} (hr : reg ∈ r.registrations) (place : Option Armed) :
    (r.setArmed reg.id place).registrations.Perm
      ({ reg with armed := place } :: r.registrations.filter (·.id ≠ reg.id)) := by
  refine ((perm_of_mem distinct hr).map _).trans (.of_eq ?_)
  rw [List.map_cons, if_pos rfl, List.map_congr_left, List.map_id']
  intro other ho
  exact if_neg (by simpa using (List.mem_filter.1 ho).2)

/-! ### Exact references -/

/-- The references are those of the registrations, and no number is given twice. -/
structure Exact (r : Registry) : Prop where
  counts : Counts (armedKeys r.registrations) r
  distinct : (r.registrations.map (·.id)).Nodup
  sound : Sound r

theorem SameRoll.ids {r r' : Registry} (h : SameRoll r r') :
    r'.registrations.map (·.id) = r.registrations.map (·.id) := by
  simpa [seen, Function.comp_def] using congrArg (List.map LiveWatch.id) h.1

/-- A registration gives up its reference, if it holds one. -/
theorem Counts.leave {r : Registry} {reg : Registration} {rest : List Registration}
    (h : Counts (armedKeys (reg :: rest)) r) : Counts (armedKeys rest) (r.leave reg) := by
  rw [armedKeys_cons] at h
  unfold Registry.leave
  cases ha : reg.armed with
  | none => simpa [ha] using h
  | some old => exact Counts.unreference (by simpa [ha] using h)

theorem Counts.foldl_leave {r : Registry} {gone rest : List Registration}
    (h : Counts (armedKeys (gone ++ rest)) r) :
    Counts (armedKeys rest) (gone.foldl Registry.leave r) := by
  induction gone generalizing r with
  | nil => exact h
  | cons reg gone ih => exact ih h.leave

/-- A registration that holds no reference is armed at a place that was counted for it. -/
theorem Counts.setArmed {r : Registry} (distinct : (r.registrations.map (·.id)).Nodup)
    {reg : Registration} (hr : reg ∈ r.registrations) {place : Option Armed}
    (h : Counts ((place.map (·.key)).toList ++
      armedKeys (r.registrations.filter (·.id ≠ reg.id))) r) :
    Counts (armedKeys (r.setArmed reg.id place).registrations) (r.setArmed reg.id place) := by
  refine (h.perm (.trans ?_ ((perm_setArmed distinct hr place).filterMap _).symm)).move rfl rfl
  exact .of_eq (armedKeys_cons { reg with armed := place } _).symm

namespace Exact

variable {r : Registry}

theorem empty (refuses : Nat → Path → Option String) (requests : Nat) :
    Exact (.empty ⟨refuses, requests, []⟩) where
  counts := ⟨fun _ h => absurd h List.not_mem_nil, fun _ h => absurd h List.not_mem_nil, .nil, rfl⟩
  distinct := .nil
  sound := sound_empty _

theorem flagged (h : Exact r) (overflowed : Bool) : Exact { r with overflowed } :=
  ⟨h.counts.move rfl rfl, h.distinct, h.sound⟩

theorem moveTo (h : Exact r) {reg : Registration} (hr : reg ∈ r.registrations)
    (place : Option Armed) : Exact (r.moveTo reg place).1 := by
  have same := sameRoll_moveTo r reg place
  refine ⟨?_, by rw [same.ids]; exact h.distinct, same.sound h.sound⟩
  have left := (h.counts.perm ((perm_of_mem h.distinct hr).filterMap _)).leave
  have set : ∀ {next : Registry} (place : Option Armed), next.registrations = r.registrations →
      Counts ((place.map (·.key)).toList ++ armedKeys (r.registrations.filter (·.id ≠ reg.id)))
        next →
      Counts (armedKeys (next.setArmed reg.id place).registrations)
        (next.setArmed reg.id place) := by
    intro next place hn hc
    rw [← hn] at hc
    exact hc.setArmed (by rw [hn]; exact h.distinct) (by rw [hn]; exact hr)
  obtain ⟨rfl, he⟩ | ⟨a, next, rfl, hq, he⟩ | ⟨a, next, text, rfl, hq, he⟩ :=
    moveTo_cases r reg place
  · rw [he]
    exact set none (registrations_leave r reg) left
  · rw [he]
    obtain ⟨-, hc⟩ | ⟨_, granted, -⟩ := left.acquire a.key
    · rw [hq] at hc
      exact set (some a) (registrations_moved hq) hc
    · rw [hq] at granted
      cases granted
  · rw [he]
    obtain ⟨refused, -⟩ | ⟨_, -, hc⟩ := left.acquire a.key
    · rw [hq] at refused
      cases refused
    · rw [hq] at hc
      exact set none (registrations_moved hq) hc

theorem arm (h : Exact r) (t : Tree) (id : Nat) : Exact (r.arm t id).1 := by
  unfold Registry.arm
  split
  · exact h
  · next reg hf =>
    split
    · exact h
    · exact h.moveTo (List.mem_of_find?_eq_some hf) _

theorem enroll (h : Exact r) (target directory : Path) (fileName : String) (route : Route) :
    Exact (r.enroll target directory fileName route) where
  counts := by
    have same : armedKeys (r.enroll target directory fileName route).registrations =
        armedKeys r.registrations := by simp [Registry.enroll, armedKeys]
    rw [same]
    exact h.counts.move rfl rfl
  distinct := by
    simp only [Registry.enroll, List.map_append, List.map_cons, List.map_nil]
    refine List.nodup_append.2 ⟨h.distinct, List.nodup_singleton _, ?_⟩
    intro a ha b hb
    obtain ⟨reg, hr, rfl⟩ := List.mem_map.1 ha
    cases List.mem_singleton.1 hb
    exact Nat.ne_of_lt (h.sound reg hr)
  sound := sound_enroll h.sound target directory fileName route

theorem watch (h : Exact r) (t : Tree) (target : Path) (route : Route) :
    Exact (r.watch t target route).service := by
  unfold Registry.watch
  split
  · exact (h.enroll ..).arm t r.nextId
  · exact h

theorem release (h : Exact r) (id : Nat) : Exact (r.release id) := by
  have same := sameRoll_release id r
  have kept : ∀ (gone : List Registration) (s : Registry),
      (gone.foldl leave s).registrations = s.registrations := by
    intro gone
    induction gone with
    | nil => exact fun s => rfl
    | cons reg rest ih => exact fun s => (ih _).trans (registrations_leave s reg)
  refine ⟨?_, ?_, same.sound fun reg hr => h.sound reg (List.mem_filter.1 hr).1⟩
  · have parts : r.registrations.Perm
        (r.registrations.filter (·.id = id) ++ r.registrations.filter (·.id ≠ id)) := by
      simpa using (List.filter_append_perm (fun reg : Registration => reg.id = id) _).symm
    unfold Registry.release
    rw [kept]
    exact Counts.foldl_leave ((h.counts.perm (parts.filterMap _)).move rfl rfl)
  · rw [same.ids]
    exact (List.filter_sublist.map _).nodup h.distinct

end Exact

end Registry

end StackUsage
