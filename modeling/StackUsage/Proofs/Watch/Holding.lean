import Mathlib.Data.List.Nodup
import StackUsage.Proofs.Watch.Contract

/-! What a client of a watch service holds. The live watches of the service are those of others and
those of the client, in any order, and no number of the client's is used twice. A granted watch
joins the client's, and a release takes one out; the others keep theirs. -/

namespace StackUsage.WatchService

variable {σ : Type} [WatchService σ] {sound : σ → Prop}

/-- The client's watches beside those of others. -/
structure Holding (sound : σ → Prop) (others own : List LiveWatch) (s : σ) : Prop where
  sound : sound s
  live : (live s).Perm (others ++ own)
  distinct : (own.map (·.id)).Nodup
  apart : ∀ w ∈ own, ∀ v ∈ others, v.id ≠ w.id

namespace Holding

variable {others own own' : List LiveWatch} {s : σ}

theorem nil (hs : sound s) : Holding sound (WatchService.live s) [] s where
  sound := hs
  live := by simp
  distinct := .nil
  apart _ h := absurd h List.not_mem_nil

theorem perm (h : Holding sound others own s) (hp : own.Perm own') :
    Holding sound others own' s where
  sound := h.sound
  live := h.live.trans (hp.append_left others)
  distinct := (hp.map _).nodup h.distinct
  apart w hw := h.apart w (hp.mem_iff.2 hw)

/-- The watches are the same in another state of the service. -/
theorem move {s' : σ} (h : Holding sound others own s) (hs : sound s')
    (hp : (WatchService.live s').Perm (WatchService.live s)) : Holding sound others own s' where
  sound := hs
  live := hp.trans h.live
  distinct := h.distinct
  apart := h.apart

theorem ne_of_mem (h : Holding sound others own s) {id : Nat}
    (hid : ∀ w ∈ WatchService.live s, w.id ≠ id) {w : LiveWatch} (hw : w ∈ others ++ own) :
    w.id ≠ id := hid w (h.live.mem_iff.2 hw)

/-- No other live watch has a number of the client's. -/
theorem eq_of_id (h : Holding sound others own s) {v w : LiveWatch} (hv : v ∈ WatchService.live s)
    (hw : w ∈ own) (he : v.id = w.id) : v = w := by
  rcases List.mem_append.1 (h.live.mem_iff.1 hv) with hv | hv
  · exact absurd he (h.apart w hw v hv)
  · exact List.inj_on_of_nodup_map h.distinct hv hw he

variable (law : Lawful σ sound)
include law

theorem granted {t : Tree} {path : Path} {route : Route} {id : Nat}
    (h : Holding sound others own s) (ho : (watch t path route s).outcome = .ok id) :
    Holding sound others (own ++ [⟨id, path, route⟩]) (watch t path route s).service where
  sound := law.sound_watch t path route h.sound
  live := by
    rw [← List.append_assoc]
    exact (law.live_granted h.sound ho).trans (h.live.append_right _)
  distinct := by
    rw [List.map_append, List.nodup_append]
    refine ⟨h.distinct, by simp, ?_⟩
    intro a ha b hb
    obtain ⟨w, hw, rfl⟩ := List.mem_map.1 ha
    rw [List.mem_singleton.1 hb]
    exact h.ne_of_mem (law.fresh h.sound ho) (List.mem_append_right _ hw)
  apart w hw v hv := by
    rcases List.mem_append.1 hw with hw | hw
    · exact h.apart w hw v hv
    · rw [List.mem_singleton.1 hw]
      exact h.ne_of_mem (law.fresh h.sound ho) (List.mem_append_left _ hv)

theorem refused {t : Tree} {path : Path} {route : Route} {refusal : WatchRefusal}
    (h : Holding sound others own s) (ho : (watch t path route s).outcome = .error refusal) :
    Holding sound others own (watch t path route s).service :=
  h.move (law.sound_watch t path route h.sound) (law.live_refused h.sound ho)

theorem release {w : LiveWatch} (h : Holding sound others (w :: own) s) :
    Holding sound others own (WatchService.release w.id s) := by
  obtain ⟨hw, hd⟩ := List.nodup_cons.1 h.distinct
  refine ⟨law.sound_release w.id h.sound, ?_, hd, fun v hv => h.apart v (List.mem_cons_of_mem _ hv)⟩
  refine (law.live_release w.id h.sound).trans ((h.live.filter _).trans (.of_eq ?_))
  have stay : ∀ v ∈ others ++ own, decide (v.id ≠ w.id) = true := by
    intro v hv
    rw [decide_eq_true_eq]
    rcases List.mem_append.1 hv with hv | hv
    · exact h.apart w (by simp) v hv
    · exact fun he => hw (List.mem_map.2 ⟨v, hv, he⟩)
  rw [List.filter_append, List.filter_cons_of_neg (by simp), ← List.filter_append,
    List.filter_eq_self.2 stay]

end Holding

end StackUsage.WatchService
