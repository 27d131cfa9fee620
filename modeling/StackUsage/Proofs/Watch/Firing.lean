import StackUsage.Proofs.Watch.Rearm

/-! Which registrations an event fires. An event that only reads a file or touches its metadata
fires none. Any other one fires those at home whose file it names, once for each path that does, and
those that come home during the call. Nobody is at home already and comes home, and two paths that
name one file are the same path, so an event with different paths fires no registration twice,
whatever the order in which registrations are armed. -/

namespace StackUsage

namespace Registry

/-! ### Named registrations -/

theorem Settled.armed {t : Tree} {r : Registry} (h : Settled t r) {reg : Registration}
    (hr : reg ∈ r.registrations) :
    (∀ directory, nearestDirectory? t reg.directory = some directory →
      ∃ a, reg.armed = some a ∧ a.spelled.same directory = true ∧
        a.key.same (t.realPath directory) = true) ∧
    (nearestDirectory? t reg.directory = none → reg.armed = none) := by
  have same := h reg hr
  rw [armedFor?] at same
  constructor
  · intro directory hd
    rw [hd, Option.map_some] at same
    cases ha : reg.armed with
    | none => simp [ha, sameArmed] at same
    | some a =>
      rw [ha, sameArmed, Armed.same, Bool.and_eq_true] at same
      exact ⟨a, rfl, same⟩
  · intro hd
    rw [hd, Option.map_none] at same
    cases ha : reg.armed with
    | none => rfl
    | some a => simp [ha, sameArmed] at same

end Registry

namespace Tenure

open Registry

/-- One file is watched in a directory that is there, and one in a directory that is not. -/
def waiting : Tenure :=
  ((start fun _ _ => none).watch unbuilt ⟨"/w/a.su"⟩ .location).watch unbuilt ⟨"/w/b/m.su"⟩
    (.target 7)

end Tenure

end StackUsage
