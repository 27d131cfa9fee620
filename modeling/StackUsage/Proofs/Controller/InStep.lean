import StackUsage.Proofs.Controller.Generations
import StackUsage.Proofs.Snapshot
import StackUsage.Proofs.Tree

/-! Taking in single reports keeps the index in step with a snapshot. Suppose that the units of the
watched reports are those of a snapshot, no two with one source key, and that the index says what
the snapshot says. If then the contents of some reports are replaced, and the routes of their
watches are handled in any order, the index says what a snapshot of the new tree says. -/

namespace StackUsage

/-- The unit of a report's route. -/
def Route.unit? : Route → Option ReportUnit
  | .report _ unit => some unit
  | _ => none

namespace Snapshot

/-! ### Taking in reports -/

/-- Reads units one after another into an index. -/
def takeIn (t : Tree) (config : Config) (units : List ReportUnit) (index : Index) : Index :=
  units.foldl (fun index unit => index.apply unit.sourceKey (unit.read (.still t) config).usages)
    index

variable {t : Tree} {config : Config} {units : List ReportUnit} {index : Index}

theorem takeIn_append (units' : List ReportUnit) :
    takeIn t config (units ++ units') index =
      takeIn t config units' (takeIn t config units index) :=
  List.foldl_append

theorem entry?_takeIn_of_ne {key : String} (h : ∀ v ∈ units, v.sourceKey ≠ key) :
    Index.entry? (takeIn t config units index) key = index.entry? key := by
  induction units generalizing index with
  | nil => rfl
  | cons v rest ih =>
    rw [takeIn, List.foldl_cons, ← takeIn, ih fun w hw => h w (List.mem_cons_of_mem _ hw),
      Index.entry?_apply_of_ne (Ne.symm (h v List.mem_cons_self))]

/-- A unit that shares its key with no other has the records of its report, however often and in
whatever order the units are read. -/
theorem entry?_takeIn {unit : ReportUnit} (hu : unit ∈ units)
    (alone : ∀ v ∈ units, v.sourceKey = unit.sourceKey → v = unit) :
    Index.entry? (takeIn t config units index) unit.sourceKey =
      some ⟨unit.sourceKey, (unit.read (.still t) config).usages⟩ := by
  induction units generalizing index with
  | nil => cases hu
  | cons v rest ih =>
    rw [takeIn, List.foldl_cons, ← takeIn]
    have alone' : ∀ w ∈ rest, w.sourceKey = unit.sourceKey → w = unit :=
      fun w hw => alone w (List.mem_cons_of_mem _ hw)
    by_cases hr : unit ∈ rest
    · exact ih hr alone'
    · obtain rfl := (List.mem_cons.1 hu).resolve_right hr
      rw [entry?_takeIn_of_ne fun w hw hk => hr (alone' w hw hk ▸ hw), Index.entry?_apply_self]

/-- Taking in some of the units anew, among them all whose report has changed, makes an index of
the old reports one of the new reports. -/
theorem entry?_takeIn_indexOf {t' : Tree} {again : List ReportUnit} {old : Index}
    (distinct : (units.map (·.sourceKey)).Nodup) (named : ∀ unit ∈ again, unit ∈ units)
    (same : ∀ unit ∈ units, unit ∉ again →
      unit.read (.still t') config = unit.read (.still t) config)
    (hold : ∀ key, old.entry? key = Index.entry? (indexOf t config units) key) (key : String) :
    Index.entry? (takeIn t' config again old) key =
      Index.entry? (indexOf t' config units) key := by
  have alone : ∀ {unit}, unit ∈ units → ∀ v ∈ units, v.sourceKey = unit.sourceKey → v = unit :=
    fun hu v hv hk => List.inj_on_of_nodup_map distinct hv hu hk
  by_cases hk : ∃ unit ∈ units, unit.sourceKey = key
  · obtain ⟨unit, hu, rfl⟩ := hk
    rw [indexOf, ← takeIn, entry?_takeIn hu (alone hu)]
    by_cases ha : unit ∈ again
    · exact entry?_takeIn ha fun v hv => alone hu v (named v hv)
    · have others : ∀ v ∈ again, v.sourceKey ≠ unit.sourceKey :=
        fun v hv hk => ha (alone hu v (named v hv) hk ▸ hv)
      rw [entry?_takeIn_of_ne others, hold, indexOf, ← takeIn, entry?_takeIn hu (alone hu),
        same unit hu ha]
  · have none : ∀ unit ∈ units, unit.sourceKey ≠ key := fun unit hu he => hk ⟨unit, hu, he⟩
    rw [entry?_takeIn_of_ne fun v hv => none v (named v hv), hold, indexOf, ← takeIn, indexOf,
      ← takeIn, entry?_takeIn_of_ne none, entry?_takeIn_of_ne none]

end Snapshot

namespace Controller

open WatchService (Lawful Holding)

variable {σ : Type} [WatchService σ] {sound : σ → Prop}

/-! ### A queue of reports -/

omit [WatchService σ] in
theorem processReport_eq (d : Disk) (unit : ReportUnit) (c : Controller σ) :
    ∃ journal, c.processReport d unit =
      { c with
        index := c.index.apply unit.sourceKey (unit.read d c.config).usages
        journal := journal } := by
  unfold processReport
  split <;> exact ⟨_, rfl⟩

theorem serve_report (d : Disk) (unit : ReportUnit) (rest : List Route) (c : Controller σ) :
    ∃ journal, c.serve d (.report c.reportGeneration unit) rest =
      ({ c with
        index := c.index.apply unit.sourceKey (unit.read d c.config).usages
        pending := rest
        journal := journal }, none) := by
  obtain ⟨journal, he⟩ := processReport_eq d unit
    ((c.withPending rest).note [.dispatched (.report c.reportGeneration unit)])
  have hd : (c.withPending rest).dispatch d (.report c.reportGeneration unit) =
      ⟨((c.withPending rest).note [.dispatched (.report c.reportGeneration unit)]).processReport d
        unit, [], none⟩ := if_pos rfl
  refine ⟨journal, ?_⟩
  rw [serve, hd, he]
  simp [withPending, note]

/-- A queue of current reports on a still tree is taken in as it stands. -/
theorem drain_reports (t : Tree) (units : List ReportUnit) {c : Controller σ} (n : Nat)
    (first : Option Failure) (hp : c.pending = units.map (.report c.reportGeneration))
    (hr : c.renderAll = false) :
    ∃ journal, c.drain (.still t) n first =
      ({ c with
        index := Snapshot.takeIn t c.config units c.index
        pending := []
        journal := journal }, first) := by
  induction units generalizing n c with
  | nil =>
    have empty : c.pending = [] := hp
    have flushed : c.flush (World.still t n) = c := if_neg (by simp [hr])
    have same : c.withPending [] = c := by rw [withPending, ← empty]
    rw [drain_nil hp, flushed]
    exact ⟨c.journal, congrArg (·, first) same.symm⟩
  | cons unit rest ih =>
    obtain ⟨journal, hs⟩ := serve_report (.still t) unit (rest.map (.report c.reportGeneration)) c
    rw [drain_cons hp, World.still, hs, Option.or_none]
    exact ih (n + 1) rfl hr

/-! ### Watched units -/

/-- Whether the watch is live and the controller's own: `others` were there before it. -/
def Owns (others : List LiveWatch) (c : Controller σ) (w : LiveWatch) : Prop :=
  w ∈ WatchService.live c.service ∧ w ∉ others

/-- The units of the reports that the controller watches. -/
def watchedUnits (others : List LiveWatch) (c : Controller σ) : List ReportUnit :=
  ((WatchService.live c.service).filter (· ∉ others)).filterMap (·.route.unit?)

theorem own_perm {others : List LiveWatch} {held : List (Handle × ReportUnit)} {c : Controller σ}
    (h : Holding sound others (c.own held) c.service) :
    ((WatchService.live c.service).filter (· ∉ others)).Perm (c.own held) := by
  have apart : ∀ w ∈ c.own held, w ∉ others := fun w hw hv => h.apart w hw w hv rfl
  have hothers : others.filter (· ∉ others) = [] := by simp
  have hown : (c.own held).filter (· ∉ others) = c.own held := by
    rw [List.filter_eq_self]
    exact fun w hw => decide_eq_true (apart w hw)
  have filtered := h.live.filter (· ∉ others)
  rwa [List.filter_append, hothers, hown, List.nil_append] at filtered

theorem owns_iff {others : List LiveWatch} {held : List (Handle × ReportUnit)} {c : Controller σ}
    (h : Holding sound others (c.own held) c.service) {w : LiveWatch} :
    Owns others c w ↔ w ∈ c.own held := by
  rw [← (own_perm h).mem_iff, List.mem_filter, decide_eq_true_iff, Owns]

/-- Between calls, with every report watched under the current generation. -/
structure Watching (sound : σ → Prop) (others : List LiveWatch) (c : Controller σ) : Prop
    extends Idle c where
  sound : sound c.service
  current : ∀ w, Owns others c w → ∀ unit, w.route.unit? = some unit →
    w.route = .report c.reportGeneration unit ∧ w.path = unit.reportPath

theorem Orderly.watching {others : List LiveWatch} {c : Controller σ} (h : Orderly sound others c)
    (idle : Idle c) : Watching sound others c := by
  obtain ⟨held, tended⟩ := h.tended
  refine ⟨idle, tended.holding.sound, fun w hw unit hu => ?_⟩
  have hw := (owns_iff tended.holding).1 hw
  rw [own, List.mem_append, List.mem_append] at hw
  rcases hw with hw | hw | hw
  · obtain ⟨handle, -, rfl⟩ := List.mem_map.1 hw
    cases hu
  · rw [route_of_mem_targetPart hw] at hu
    cases hu
  · obtain ⟨x, -, rfl⟩ := List.mem_map.1 hw
    cases hu
    exact ⟨rfl, rfl⟩

/-! ### In step with a snapshot -/

/-- The controller watches the reports that a snapshot of the tree names, no two of them for one
source key, and its index says of every source key what the snapshot says. -/
def InStep (others : List LiveWatch) (t : Tree) (c : Controller σ) : Prop :=
  ∃ s, Snapshot.load t c.config c.root = .ok s ∧ (watchedUnits others c).Perm s.units ∧
    (s.units.map (·.sourceKey)).Nodup ∧ ∀ key, c.index.entry? key = s.index.entry? key

/-- Calls on a still tree, each with a queue of routes of watched reports. The routes of all the
queues are listed in their order. -/
inductive Updates (others : List LiveWatch) (t : Tree) (c : Controller σ) :
    List Route → Controller σ → Prop
  | none : Updates others t c [] c
  | call {routes : List Route} {call : Call} {c₁ c₂ : Controller σ} :
    Updates others t c routes c₁ → c₁.opening (.still t) call = some c₂ →
    (∀ route ∈ c₂.pending, route.unit?.isSome = true ∧ ∃ w, Owns others c₁ w ∧ w.route = route) →
      Updates others t c (routes ++ c₂.pending) (c₁.call (.still t) call).1

/-- Some files other than the manifest get other contents, and the routes of all watches whose
report is among them are handled, each once or more, in any order and in any number of calls. -/
def Round (others : List LiveWatch) (t : Tree) (c : Controller σ) (t' : Tree)
    (c' : Controller σ) : Prop :=
  ∃ changed routes, Tree.Rewritten changed t t' ∧
    (∀ manifest target, Resolution.resolve t c.location = .ok manifest →
      manifest.path? = some target → ¬ t.Denotes target changed) ∧
    Updates others t' c routes c' ∧
    ∀ w, Owns others c w → w.route.unit?.isSome = true → t.Denotes w.path changed →
      w.route ∈ routes

inductive Rounds (others : List LiveWatch) (t : Tree) (c : Controller σ) :
    Tree → Controller σ → Prop
  | none : Rounds others t c t c
  | round {t₁ t₂ : Tree} {c₁ c₂ : Controller σ} :
    Rounds others t c t₁ c₁ → Round others t₁ c₁ t₂ c₂ → Rounds others t c t₂ c₂

/-! ### Rounds -/

/-- A call other than a start opens with what the service says and with its routes. -/
theorem opening_heard (law : Lawful σ sound) {w : World} {call : Call} {c c₁ : Controller σ}
    (hs : sound c.service) (ho : c.opening w call = some c₁) (later : call ≠ .start) :
    ∃ s notices routes, c₁ = (c.heard s notices).withPending (c.pending ++ routes) ∧ sound s ∧
      (WatchService.live s).Perm (WatchService.live c.service) := by
  cases call with
  | start => exact absurd rfl later
  | handle route =>
    cases ho
    exact ⟨c.service, [], [route], by simp [enqueue, heard, withPending], hs, .refl _⟩
  | handleEvent event =>
    cases ho
    obtain ⟨s, notices, routes, he, hs', hl⟩ : ∃ s notices routes, c.receive (w 0 0) event =
        (c.heard s notices).withPending (c.pending ++ routes) ∧ sound s ∧
        (WatchService.live s).Perm (WatchService.live c.service) := by
      cases event with
      | ok event =>
        exact ⟨_, _, _, rfl, law.sound_route (w 0 0) event hs, law.live_route (w 0 0) event hs⟩
      | error text =>
        exact ⟨c.service, [.warned (.eventFailed text)], [],
          by simp [receive, warn, note, heard, withPending], hs, .refl _⟩
    have hs'' := law.sound_takeOverflow hs'
    have hl' := (law.live_takeOverflow hs').trans hl
    rw [he, catchUp_eq]
    split
    · exact ⟨_, notices ++ [.warned .overflow], routes ++ [.location],
        by simp [heard, withPending], hs'', hl'⟩
    · exact ⟨_, notices, routes, by simp [heard, withPending], hs'', hl'⟩
  | documentsShown paths => cases ho
  | refresh => cases ho

/-- The units were taken in on the tree, and the watches are the same. -/
structure Updated (t : Tree) (units : List ReportUnit) (c c' : Controller σ) : Prop where
  root : c'.root = c.root
  config : c'.config = c.config
  reportGeneration : c'.reportGeneration = c.reportGeneration
  live : (WatchService.live c'.service).Perm (WatchService.live c.service)
  index : c'.index = Snapshot.takeIn t c.config units c.index

theorem Updated.owns {t : Tree} {units : List ReportUnit} {others : List LiveWatch}
    {c c' : Controller σ} (h : Updated t units c c') {w : LiveWatch} :
    Owns others c' w ↔ Owns others c w := by rw [Owns, h.live.mem_iff, Owns]

theorem mem_watchedUnits {others : List LiveWatch} {c : Controller σ} {unit : ReportUnit} :
    unit ∈ watchedUnits others c ↔ ∃ w, Owns others c w ∧ w.route.unit? = some unit := by
  simp [watchedUnits, Owns]

/-- A queue of routes of watched reports is one of units. -/
theorem queue_of_owned {others : List LiveWatch} {c : Controller σ} {queue : List Route}
    (h : Watching sound others c)
    (owned : ∀ route ∈ queue, route.unit?.isSome = true ∧ ∃ w, Owns others c w ∧ w.route = route) :
    ∃ units : List ReportUnit, queue = units.map (.report c.reportGeneration) ∧
      ∀ unit ∈ units, unit ∈ watchedUnits others c := by
  induction queue with
  | nil => exact ⟨[], rfl, by simp⟩
  | cons route rest ih =>
    obtain ⟨units, rfl, hu⟩ := ih fun r hr => owned r (List.mem_cons_of_mem _ hr)
    obtain ⟨report, w, hw, rfl⟩ := owned route List.mem_cons_self
    obtain ⟨unit, hunit⟩ := Option.isSome_iff_exists.1 report
    refine ⟨unit :: units, by rw [(h.current w hw unit hunit).1]; rfl, ?_⟩
    exact List.forall_mem_cons.2 ⟨mem_watchedUnits.2 ⟨w, hw, hunit⟩, hu⟩

theorem updated_call (law : Lawful σ sound) {others : List LiveWatch} {t : Tree} {call : Call}
    {c c₁ : Controller σ} (h : Watching sound others c)
    (ho : c.opening (.still t) call = some c₁)
    (owned : ∀ route ∈ c₁.pending,
      route.unit?.isSome = true ∧ ∃ w, Owns others c w ∧ w.route = route) :
    Watching sound others (c.call (.still t) call).1 ∧
      ∃ units : List ReportUnit, c₁.pending = units.map (.report c.reportGeneration) ∧
        (∀ unit ∈ units, unit ∈ watchedUnits others c) ∧
        Updated t units c (c.call (.still t) call).1 := by
  have later : call ≠ .start := by
    rintro rfl
    simp only [opening] at ho
    split at ho
    · cases ho
    · cases ho
      have := owned .location (List.mem_append_right _ List.mem_cons_self)
      simp [Route.unit?] at this
  obtain ⟨units, hq, hu⟩ := queue_of_owned h owned
  obtain ⟨s, notices, routes, rfl, hs, hl⟩ := opening_heard law h.sound ho later
  obtain ⟨journal, hd⟩ := drain_reports t units 1 none hq h.renderAll
  rw [call_eq_drain ho, hd]
  have updated : Updated t units c
      { (c.heard s notices).withPending (c.pending ++ routes) with
        index := Snapshot.takeIn t c.config units c.index
        pending := []
        journal := journal } := ⟨rfl, rfl, rfl, hl, rfl⟩
  refine ⟨⟨⟨rfl, h.renderAll⟩, hs, fun w hw => ?_⟩, units, hq, hu, updated⟩
  exact h.current w (updated.owns.1 hw)

theorem Updates.updated (law : Lawful σ sound) {others : List LiveWatch} {t : Tree}
    {routes : List Route} {c c' : Controller σ} (u : Updates others t c routes c')
    (h : Watching sound others c) :
    Watching sound others c' ∧
      ∃ units : List ReportUnit, routes = units.map (.report c.reportGeneration) ∧
      (∀ unit ∈ units, unit ∈ watchedUnits others c) ∧ Updated t units c c' := by
  induction u with
  | none => exact ⟨h, [], rfl, by simp, rfl, rfl, rfl, .refl _, rfl⟩
  | call _ ho owned ih =>
    obtain ⟨h₁, units, rfl, hu, before⟩ := ih
    obtain ⟨h₂, units', hq, hu', after⟩ := updated_call law h₁ ho owned
    refine ⟨h₂, units ++ units', ?_, ?_, ?_⟩
    · rw [hq, List.map_append, before.reportGeneration]
    · intro unit hm
      rcases List.mem_append.1 hm with hm | hm
      · exact hu unit hm
      · obtain ⟨w, hw, hr⟩ := mem_watchedUnits.1 (hu' unit hm)
        exact mem_watchedUnits.2 ⟨w, before.owns.1 hw, hr⟩
    · refine ⟨after.root.trans before.root, after.config.trans before.config,
        after.reportGeneration.trans before.reportGeneration, after.live.trans before.live, ?_⟩
      rw [Snapshot.takeIn_append, ← before.index, ← before.config, after.index]

/-- One round keeps the index in step. -/
theorem round_in_step (law : Lawful σ sound) {others : List LiveWatch} {t t' : Tree}
    {c c' : Controller σ} (h : Watching sound others c) (step : InStep others t c)
    (round : Round others t c t' c') : Watching sound others c' ∧ InStep others t' c' := by
  obtain ⟨changed, routes, rewritten, manifest, updates, covered⟩ := round
  obtain ⟨s, loaded, watched, distinct, entries⟩ := step
  obtain ⟨h', again, rfl, named, updated⟩ := updates.updated law h
  obtain ⟨found, units, index⟩ := Snapshot.load_eq_ok loaded
  have found' : Resolution.resolve t' (Snapshot.location c.root c.config) = .ok s.manifest :=
    (Resolution.resolve_rewritten rewritten _).trans found
  have units' : Snapshot.unitsOf (.still t') c.config s.manifest = .ok s.units :=
    (Snapshot.unitsOf_rewritten rewritten c.config fun target =>
      manifest s.manifest target found).trans units
  -- A report that is not taken in again has kept its contents.
  have same : ∀ unit ∈ s.units, unit ∉ again →
      unit.read (.still t') c.config = unit.read (.still t) c.config := by
    intro unit hu ha
    refine ReportUnit.read_rewritten rewritten c.config fun denoted => ha ?_
    obtain ⟨w, hw, hr⟩ := mem_watchedUnits.1 (watched.mem_iff.2 hu)
    obtain ⟨route, path⟩ := h.current w hw unit hr
    have handled := covered w hw (by simp [hr]) (path ▸ denoted)
    rw [route] at handled
    obtain ⟨v, hv, he⟩ := List.mem_map.1 handled
    cases he
    exact hv
  refine ⟨h', ⟨c.root, s.manifest, s.units, Snapshot.indexOf t' c.config s.units,
    Snapshot.warningsOf t' c.config s.units⟩, ?_, ?_, distinct, fun key => ?_⟩
  · rw [updated.config, updated.root, Snapshot.load_eq found', units']
    rfl
  · exact ((updated.live.filter _).filterMap _).trans watched
  · rw [updated.index]
    exact Snapshot.entry?_takeIn_indexOf distinct (fun unit hu => watched.mem_iff.1 (named unit hu))
      same (fun key => (entries key).trans (by rw [index])) key

/-- Updates of single reports stay in step with a rebuild from scratch. Take a controller that
honest turns have led to, whose watched reports are those of a snapshot, no two with one source key,
and whose index says what the snapshot says. After any number of rounds, in each of which some files
other than the manifest get other contents and the routes of the watches on them are handled in any
order and as often as one likes, its index says what a snapshot of the tree then says. -/
theorem rounds_stay_in_step (law : Lawful σ sound) {service : σ} (hs : sound service) {root : Path}
    {config : Config} {documents : List Document} {c c' : Controller σ} {t t' : Tree}
    (run : Reached (Honest sound (WatchService.live service))
      (new root config service documents) c)
    (step : InStep (WatchService.live service) t c)
    (rounds : Rounds (WatchService.live service) t c t' c') :
    InStep (WatchService.live service) t' c' := by
  suffices both : Watching sound (WatchService.live service) c' ∧
      InStep (WatchService.live service) t' c' from both.2
  induction rounds with
  | none => exact ⟨(orderly_reached law hs run).watching run.idle, step⟩
  | round _ r ih => exact round_in_step law ih.1 ih.2 r

/-! ### A report that changes -/

/-- Where the report of the first source of `pair` stands. -/
def pairReport : Location := [['w'], "a.su".toList]

/-- `pair` with another report of its first source. -/
def pairAfter : Tree :=
  pair.put pairReport (.file (some "a.c:1:5:f\t64\tdynamic\na.c:9:1:k\t4\tstatic"))

/-- The change of `pair` hits the first report alone. -/
def ChangesFirst (c : Controller Roster) : Prop :=
  (∀ manifest ∈ (Resolution.resolve pair c.location).toOption,
    ∀ target ∈ manifest.path?, (pair.find target).toOption.map (·.1) ≠ some pairReport) ∧
  ∀ w ∈ WatchService.live c.service, w.route.unit?.isSome = true →
    (pair.find w.path).toOption.map (·.1) = some pairReport → w.route = .report 1 (pairUnit "a")

/-- The controller watches what a snapshot of `pair` names, and has its index. -/
def Matches (c : Controller Roster) : Prop :=
  ∃ s ∈ (Snapshot.load pair c.config c.root).toOption, watchedUnits [] c = s.units ∧
    (s.units.map fun unit : ReportUnit => unit.sourceKey).Nodup ∧ c.index = s.index

instance (c : Controller Roster) : Decidable (ChangesFirst c) :=
  inferInstanceAs (Decidable ((∀ _ ∈ _, ∀ _ ∈ _, _ ≠ _) ∧ ∀ _ ∈ _, _ → _ → _))

instance (c : Controller Roster) : Decidable (Matches c) :=
  inferInstanceAs (Decidable (∃ _ ∈ _, _ ∧ _ ∧ _))

def pairWatching : Controller Roster := (pairNew []).turn (.call (.still pair) .start)

theorem pairWatching_started :
    ChangesFirst pairWatching ∧ Matches pairWatching ∧
    ∃ w ∈ WatchService.live pairWatching.service, w.route = .report 1 (pairUnit "a") :=
  calls_of_callsIn 9 [(.still pair, .start)] (pairNew [])
    (P := fun c => ChangesFirst c ∧ Matches c ∧
      ∃ w ∈ WatchService.live c.service, w.route = .report 1 (pairUnit "a")) (by decide +kernel)

theorem not_denotes {p : Path} (h : (pair.find p).toOption.map (·.1) ≠ some pairReport) :
    ¬ pair.Denotes p (· = pairReport) := by
  rintro ⟨loc, text, hf, rfl⟩
  rw [hf] at h
  exact h rfl

/-- One report changes, and its route is handled once. -/
theorem rounds_stay_in_step_pair :
    InStep [] pair pairWatching ∧
    InStep [] pairAfter
      (pairWatching.call (.still pairAfter) (.handle (.report 1 (pairUnit "a")))).1 := by
  obtain ⟨⟨manifest, reports⟩, ⟨s, hs, watched, distinct, index⟩, w, hw, hr⟩ :=
    pairWatching_started
  have run : Reached (Honest Roster.Sound []) (pairNew []) pairWatching := .turn .first trivial
  have step : InStep [] pair pairWatching :=
    ⟨s, Snapshot.eq_ok_of_toOption hs, .of_eq watched, distinct, fun key => by rw [index]⟩
  have pending : (pairWatching.enqueue [.report 1 (pairUnit "a")]).pending =
      [.report 1 (pairUnit "a")] := by
    rw [enqueue, run.idle.pending]
    rfl
  have round : Round [] pair pairWatching pairAfter
      (pairWatching.call (.still pairAfter) (.handle (.report 1 (pairUnit "a")))).1 := by
    have file : pair.node? pairReport = some (.file (some "a.c:1:5:f\t16\tstatic")) := by
      decide +kernel
    refine ⟨(· = pairReport), _, Tree.rewritten_put file _, ?_, .call .none rfl ?_, ?_⟩
    · intro m target hm ht
      exact not_denotes (manifest m (by rw [hm]; rfl) target ht)
    · rw [pending]
      intro route hroute
      rw [List.mem_singleton.1 hroute]
      exact ⟨rfl, w, ⟨hw, List.not_mem_nil⟩, hr⟩
    · intro v hv report denoted
      rw [pending, reports v hv.1 report (not_not.1 fun h => not_denotes h denoted)]
      exact List.mem_cons_self
  exact ⟨step, rounds_stay_in_step Roster.lawful Roster.sound_empty run step (.round .none round)⟩

end Controller

end StackUsage
