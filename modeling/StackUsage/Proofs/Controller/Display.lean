import StackUsage.Proofs.Annotation
import StackUsage.Proofs.Controller.Frame
import StackUsage.Proofs.Controller.Run
import StackUsage.Proofs.Snapshot
import StackUsage.Watch.Roster

/-! No document is left stale. As long as the visible documents stay what they are and keep their
real paths, after every call each of them shows what rendering everything anew would send it,
whatever the reports, the manifest and the watch service do. The invariant compares the index with
what was sent last. It says nothing while a clearing of the index waits for its rendering, and the
end of the call renders everything then. -/

namespace StackUsage.Controller

open Annotation

variable {σ : Type}

/-- All that the host was sent, in order. -/
def sent (c : Controller σ) : List (Path × List Decoration) := c.journal.filterMap Notice.sent?

/-- The decorations that a document was last sent; a document that was sent none shows none. -/
def shown (c : Controller σ) (path : Path) : List Decoration := (lastFor path c.sent).getD []

theorem sent_announce (news : List (Path × List Decoration)) (paths : Option (List String))
    (c : Controller σ) : (c.announce news paths).sent = c.sent ++ news := by
  have hn : news.filterMap (Notice.sent? ∘ fun s => Notice.decorated s.1 s.2) = news :=
    List.filterMap_some
  simp only [sent, announce, note, List.filterMap_append, List.filterMap_map, hn]
  simp [Notice.sent?]

/-! ### Steps that leave the display alone -/

/-- Nothing that bears on the display has changed. -/
structure SameDisplay (c c' : Controller σ) : Prop where
  config : c'.config = c.config
  documents : c'.documents = c.documents
  index : c'.index = c.index
  renderAll : c'.renderAll = c.renderAll
  sent : c'.sent = c.sent

namespace SameDisplay

theorem refl (c : Controller σ) : SameDisplay c c := ⟨rfl, rfl, rfl, rfl, rfl⟩

theorem trans {c₁ c₂ c₃ : Controller σ} (h : SameDisplay c₁ c₂) (h' : SameDisplay c₂ c₃) :
    SameDisplay c₁ c₃ :=
  ⟨h'.config.trans h.config, h'.documents.trans h.documents, h'.index.trans h.index,
    h'.renderAll.trans h.renderAll, h'.sent.trans h.sent⟩

end SameDisplay

theorem sameDisplay_heard (s : σ) {notices : List Notice} (h : ∀ n ∈ notices, n.sent? = none)
    (c : Controller σ) : SameDisplay c (c.heard s notices) := by
  refine ⟨rfl, rfl, rfl, rfl, ?_⟩
  have hn : notices.filterMap Notice.sent? = [] := List.filterMap_eq_nil_iff.2 h
  simp only [sent, heard, List.filterMap_append, hn, List.append_nil]

theorem sameDisplay_withPending (routes : List Route) (c : Controller σ) :
    SameDisplay c (c.withPending routes) := ⟨rfl, rfl, rfl, rfl, rfl⟩

theorem sameDisplay_warn (warnings : List Warning) (c : Controller σ) :
    SameDisplay c (c.warn warnings) := by
  rw [warn_eq]
  apply sameDisplay_heard
  simp [Notice.sent?]

variable [WatchService σ]

theorem sameDisplay_disposeAll (handles : List Handle) (c : Controller σ) :
    SameDisplay c (c.disposeAll handles) := by
  rw [disposeAll_eq]
  apply sameDisplay_heard
  simp [Notice.sent?]

theorem sameDisplay_attach (t : Tree) (path : Path) (route : Route) (c : Controller σ) :
    SameDisplay c (c.attach t path route).1 := by
  obtain ⟨id, -, he⟩ | ⟨refusal, -, he⟩ := attach_cases t path route c
  · rw [he]
    apply sameDisplay_heard
    simp only [List.mem_append, List.mem_map, List.mem_singleton]
    rintro n (⟨_, -, rfl⟩ | rfl) <;> rfl
  · rw [he]
    apply sameDisplay_heard
    simp [Notice.sent?]

theorem sameDisplay_dropTarget (c : Controller σ) : SameDisplay c c.dropTarget :=
  (sameDisplay_disposeAll _ c).trans ⟨rfl, rfl, rfl, rfl, rfl⟩

theorem sameDisplay_dropReports (c : Controller σ) : SameDisplay c c.dropReports :=
  (sameDisplay_disposeAll _ c).trans ⟨rfl, rfl, rfl, rfl, rfl⟩

theorem sameDisplay_attachReports (units : List ReportUnit) (d : Disk) (generation : Nat)
    (c : Controller σ) : SameDisplay c (attachReports d generation c units).1 := by
  induction units generalizing d c with
  | nil => exact .refl c
  | cons unit rest ih =>
    have ha := sameDisplay_attach (d 0) unit.reportPath (.report generation unit) c
    rw [attachReports]
    split
    · next hq =>
      rw [hq] at ha
      exact ha.trans (ih _ _)
    · next hq =>
      rw [hq] at ha
      exact (ha.trans (sameDisplay_warn _ _)).trans (ih _ _)

theorem sameDisplay_followManifest (d : Disk) (c : Controller σ) :
    SameDisplay c (c.followManifest d).controller := by
  unfold followManifest
  split
  · exact .refl c
  · split
    · exact sameDisplay_warn _ c
    · exact ((sameDisplay_attachReports ..).trans (sameDisplay_disposeAll _ _)).trans
        ⟨rfl, rfl, rfl, rfl, rfl⟩

omit [WatchService σ] in
theorem sent_applyReport (unit : ReportUnit) (report : Report) (c : Controller σ) :
    (c.applyReport unit report).sent = c.sent := by
  have warned := sameDisplay_warn report.warnings
    { c with index := c.index.apply unit.sourceKey report.usages }
  exact (sameDisplay_heard _ (by simp [Notice.sent?]) _).sent.trans warned.sent

/-! ### Steps that put the rendering off -/

/-- The index may have changed, and everything will be rendered. -/
structure PutOff (c c' : Controller σ) : Prop where
  config : c'.config = c.config
  documents : c'.documents = c.documents
  renderAll : c'.renderAll = true
  sent : c'.sent = c.sent

omit [WatchService σ] in
theorem PutOff.within {c c₁ c₂ c' : Controller σ} (h : SameDisplay c c₁) (hp : PutOff c₁ c₂)
    (h' : SameDisplay c₂ c') : PutOff c c' :=
  ⟨h'.config.trans (hp.config.trans h.config), h'.documents.trans (hp.documents.trans h.documents),
    h'.renderAll.trans hp.renderAll, h'.sent.trans (hp.sent.trans h.sent)⟩

omit [WatchService σ] in
theorem putOff_clearIndex (c : Controller σ) : PutOff c c.clearIndex := by
  refine ⟨rfl, rfl, rfl, ?_⟩
  simp [sent, clearIndex, note, Notice.sent?]

theorem putOff_resetTiers (c : Controller σ) : PutOff c c.resetTiers := by
  have h : SameDisplay c { c.dropTarget.dropReports with target := none } :=
    ((sameDisplay_dropTarget c).trans (sameDisplay_dropReports _)).trans ⟨rfl, rfl, rfl, rfl, rfl⟩
  exact .within h (putOff_clearIndex _) (.refl _)

theorem putOff_rebuildReports (d : Disk) (c : Controller σ) :
    PutOff c (c.rebuildReports d).controller :=
  .within (sameDisplay_dropReports c) (putOff_clearIndex _) (sameDisplay_followManifest d _)

theorem display_watchTarget (t : Tree) (target : Path) (c : Controller σ) :
    SameDisplay c (c.watchTarget t target).controller ∨
      PutOff c (c.watchTarget t target).controller := by
  have ha := sameDisplay_attach t target (.target c.targetGeneration) c
  unfold watchTarget
  split
  · next hq =>
    rw [hq] at ha
    exact .inl ((ha.trans (sameDisplay_disposeAll _ _)).trans ⟨rfl, rfl, rfl, rfl, rfl⟩)
  · next hq =>
    rw [hq] at ha
    exact .inr (.within ha (putOff_resetTiers _) (.refl _))

theorem display_updateTarget (d : Disk) (c : Controller σ) :
    SameDisplay c (c.updateTarget d).controller ∨ PutOff c (c.updateTarget d).controller := by
  unfold updateTarget
  split
  · exact .inl (.refl c)
  · split
    · exact .inr (putOff_resetTiers c)
    · next target _ =>
      have hd := sameDisplay_dropTarget c
      obtain h | h := display_watchTarget (d 1) target c.dropTarget
      · exact .inl (hd.trans h)
      · exact .inr (.within hd h (.refl _))

/-- What one service of the queue does to the display: nothing, or it puts the rendering off, or it
takes in one report. -/
theorem serve_display (d : Disk) (route : Route) (rest : List Route) (c : Controller σ) :
    SameDisplay c (c.serve d route rest).1 ∨ PutOff c (c.serve d route rest).1 ∨
      ∃ unit c₁, SameDisplay c c₁ ∧
        SameDisplay (c₁.processReport d unit) (c.serve d route rest).1 := by
  have outer : SameDisplay ((c.withPending rest).dispatch d route).controller
      (c.serve d route rest).1 := by
    rw [serve]
    generalize (c.withPending rest).dispatch d route = handled
    have pending := sameDisplay_withPending (rest ++ handled.attached) handled.controller
    cases handled.failure with
    | none => exact pending
    | some failure => exact pending.trans (sameDisplay_warn _ _)
  have noted : SameDisplay c ((c.withPending rest).note [.dispatched route]) := by
    exact (sameDisplay_withPending rest c).trans
      (sameDisplay_heard c.service (by simp [Notice.sent?]) _)
  generalize (c.serve d route rest).1 = c' at outer ⊢
  cases route with
  | location =>
    obtain h | h := display_updateTarget d ((c.withPending rest).note [.dispatched .location])
    · exact .inl ((noted.trans h).trans outer)
    · exact .inr (.inl (.within noted h outer))
  | target generation =>
    simp only [dispatch] at outer
    split at outer
    · exact .inr (.inl (.within noted (putOff_rebuildReports d _) outer))
    · exact .inl (noted.trans outer)
  | report generation unit =>
    simp only [dispatch] at outer
    split at outer
    · exact .inr (.inr ⟨unit, _, noted, outer⟩)
    · exact .inl (noted.trans outer)

/-! ### The invariant -/

/-- The host was sent nothing but sources, and, unless a rendering is put off, each visible source
shows what the index says. -/
structure Fresh (real : Path → Path) (config : Config) (documents : List Document)
    (c : Controller σ) : Prop where
  config_eq : c.config = config
  documents_eq : c.documents = documents
  sources : ∀ s ∈ c.sent, config.isSource s.1 = true
  current : c.renderAll = false → ∀ doc ∈ documents, config.isSource doc.path = true →
    lastFor doc.path (view real config c.index .all documents) = some (c.shown doc.path)

namespace Fresh

variable {real : Path → Path} {config : Config} {documents : List Document} {c c' : Controller σ}

omit [WatchService σ] in
theorem same (h : Fresh real config documents c) (hs : SameDisplay c c') :
    Fresh real config documents c' where
  config_eq := hs.config.trans h.config_eq
  documents_eq := hs.documents.trans h.documents_eq
  sources := by
    rw [hs.sent]
    exact h.sources
  current hr := by
    simp only [hs.index, shown, hs.sent]
    exact h.current (hs.renderAll.symm.trans hr)

omit [WatchService σ] in
theorem putOff (h : Fresh real config documents c) (hp : PutOff c c') :
    Fresh real config documents c' where
  config_eq := hp.config.trans h.config_eq
  documents_eq := hp.documents.trans h.documents_eq
  sources := by
    rw [hp.sent]
    exact h.sources
  current hr := by cases hp.renderAll.symm.trans hr

omit [WatchService σ] in
/-- After an announcement nothing is stale if every visible source either is sent what the index
says or is sent nothing and was not stale before. -/
theorem announce {news : List (Path × List Decoration)} (paths : Option (List String))
    (hconfig : c.config = config) (hdocuments : c.documents = documents)
    (hsources : ∀ s ∈ c.sent, config.isSource s.1 = true)
    (hnews : ∀ s ∈ news, config.isSource s.1 = true)
    (hcurrent : ∀ doc ∈ documents, config.isSource doc.path = true →
      lastFor doc.path news = lastFor doc.path (view real config c.index .all documents) ∨
      lastFor doc.path news = none ∧ (c.renderAll = false →
        lastFor doc.path (view real config c.index .all documents) = some (c.shown doc.path))) :
    Fresh real config documents (c.announce news paths) where
  config_eq := hconfig
  documents_eq := hdocuments
  sources := by
    rw [sent_announce]
    intro s hs
    exact (List.mem_append.1 hs).elim (hsources s) (hnews s)
  current hr doc hd hs := by
    have hr : c.renderAll = false := hr
    rw [shown, sent_announce, lastFor_append]
    change lastFor doc.path (view real config c.index .all documents) = _
    obtain hn | ⟨hn, hc⟩ := hcurrent doc hd hs
    · obtain ⟨e, -, -, he⟩ := exists_lastFor_view real c.index hd hs
      rw [hn, he]
      rfl
    · rw [hn, hc hr]
      rfl

omit [WatchService σ] in
/-- A publication need not concern a document that is not stale. -/
theorem publish {d : Disk} {affected : Affected} (hplaced : Placed real documents d)
    (hconfig : c.config = config) (hdocuments : c.documents = documents)
    (hsources : ∀ s ∈ c.sent, config.isSource s.1 = true)
    (hcurrent : ∀ doc ∈ documents, config.isSource doc.path = true →
      affected.includes (real doc.path) = false → c.renderAll = false →
        lastFor doc.path (view real config c.index .all documents) = some (c.shown doc.path)) :
    Fresh real config documents (c.publish d affected) := by
  have hr : c.rendered d affected c.documents = view real config c.index affected documents := by
    rw [rendered, hconfig, hdocuments, publish_eq_view hplaced]
  rw [Controller.publish, hr]
  refine announce _ hconfig hdocuments hsources (fun s hs => isSource_of_mem_view hs) ?_
  intro doc hd hs
  by_cases hi : affected.includes (real doc.path) = true
  · exact .inl (lastFor_view_of_includes hi)
  · have hi : affected.includes (real doc.path) = false := by simpa using hi
    exact .inr ⟨lastFor_view_of_excludes hi, hcurrent doc hd hs hi⟩

/-! ### Calls keep it -/

omit [WatchService σ] in
theorem processReport {d : Disk} (h : Fresh real config documents c)
    (hplaced : Placed real documents d) (unit : ReportUnit) :
    Fresh real config documents (c.processReport d unit) := by
  have applied := sent_applyReport unit (unit.read d c.config) c
  have sources := h.sources
  rw [← applied] at sources
  rw [Controller.processReport]
  split
  · next hr =>
    refine ⟨h.config_eq, h.documents_eq, sources, fun hr' => ?_⟩
    cases hr.symm.trans hr'
  · refine publish (fun doc hd k => hplaced doc hd _) h.config_eq h.documents_eq sources ?_
    -- What the update leaves out has the same records before and after it.
    intro doc hd hs hi hr
    rw [shown, applied, ← shown, ← h.current hr doc hd hs]
    exact lastFor_view_apply hi

theorem serve {d : Disk} (h : Fresh real config documents c) (hplaced : Placed real documents d)
    (route : Route) (rest : List Route) :
    Fresh real config documents (c.serve d route rest).1 := by
  obtain hs | hp | ⟨unit, c₁, before, after⟩ := serve_display d route rest c
  · exact h.same hs
  · exact h.putOff hp
  · exact ((h.same before).processReport hplaced unit).same after

omit [WatchService σ] in
theorem flush {d : Disk} (h : Fresh real config documents c) (hplaced : Placed real documents d) :
    Fresh real config documents (c.flush d) ∧ (c.flush d).renderAll = false := by
  rw [Controller.flush]
  split
  · refine ⟨publish hplaced h.config_eq h.documents_eq h.sources ?_, rfl⟩
    intro doc _ _ hi
    cases hi
  · next hr => exact ⟨h, by simpa using hr⟩

theorem drain {w : World} (h : Fresh real config documents c)
    (hplaced : ∀ n, Placed real documents (w n)) (n : Nat) (first : Option Failure) :
    Fresh real config documents (c.drain w n first).1 ∧
      (c.drain w n first).1.renderAll = false := by
  obtain ⟨m, c', -, h', he⟩ := drain_rule (w := w) (P := fun _ _ c => Fresh real config documents c)
    (fun _ h => h.serve (hplaced _) _ _) n first h
  rw [he]
  exact h'.flush (hplaced m)

theorem start {w : World} (h : Fresh real config documents c) (hr : c.renderAll = false)
    (hplaced : ∀ n, Placed real documents (w n)) :
    Fresh real config documents (c.start w).1 ∧ (c.start w).1.renderAll = false := by
  have ha := sameDisplay_attach (w 0 0) c.location .location c
  unfold Controller.start
  split
  · next hq =>
    rw [hq] at ha
    exact ⟨h.same ha, ha.renderAll.trans hr⟩
  · next c₁ handle hq =>
    rw [hq] at ha
    have held : SameDisplay c₁ ((c₁.setLocationWatch (c₁.locationWatch.set handle)).enqueue
        [.location]) := (sameDisplay_disposeAll _ c₁).trans ⟨rfl, rfl, rfl, rfl, rfl⟩
    exact (h.same (ha.trans held)).drain hplaced 1 none

theorem handleEvent {w : World} (h : Fresh real config documents c)
    (hplaced : ∀ n, Placed real documents (w n)) (event : Except String FileEvent) :
    Fresh real config documents (c.handleEvent w event).1 ∧
      (c.handleEvent w event).1.renderAll = false := by
  have received : SameDisplay c (c.receive (w 0 0) event) := by
    obtain ⟨warnings, routes, he⟩ := receive_eq (w 0 0) event c
    rw [he]
    exact (sameDisplay_heard _ (by simp [Notice.sent?]) c).trans (sameDisplay_withPending _ _)
  have caught : SameDisplay (c.receive (w 0 0) event) (c.receive (w 0 0) event).catchUp := by
    rw [catchUp_eq]
    split
    · exact (sameDisplay_heard _ (by simp [Notice.sent?]) _).trans (sameDisplay_withPending _ _)
    · exact sameDisplay_heard _ (by simp) _
  exact (h.same (received.trans caught)).drain hplaced 1 none

omit [WatchService σ] in
/-- The host makes other documents visible and asks for all paths where they are not what they were.
From then on none of them is stale. -/
theorem revealed {d : Disk} {visible : List Document} (h : Fresh real config documents c)
    (hplaced : Placed real visible d) (paths : List Path)
    (kept : ∀ doc ∈ visible, (paths.any fun p => p.same doc.path) = false →
      visible.filter (·.path = doc.path) = documents.filter (·.path = doc.path)) :
    Fresh real config visible (({ c with documents := visible }).documentsShown d paths).1 := by
  have hr : ({ c with documents := visible }).rendered d .all
      (({ c with documents := visible }).documentsAt paths) = view real config c.index .all
        (visible.filter fun doc => paths.any fun p => p.same doc.path) := by
    rw [rendered, documentsAt, h.config_eq, publish_eq_view]
    intro doc hd k
    exact hplaced doc (List.mem_filter.1 hd).1 k
  rw [Controller.documentsShown, hr]
  refine announce _ h.config_eq rfl h.sources (fun s hs => isSource_of_mem_view hs) ?_
  intro doc hd hs
  rw [lastFor_view_filter fun q => paths.any fun p => p.same q]
  split
  · exact .inl rfl
  · next unasked =>
    refine .inr ⟨rfl, fun hr => ?_⟩
    have same := kept doc hd (by simpa using unasked)
    have old : doc ∈ documents.filter (·.path = doc.path) := by
      rw [← same]
      exact List.mem_filter.2 ⟨hd, decide_eq_true rfl⟩
    rw [lastFor_view_all hs, same, ← lastFor_view_all hs]
    exact h.current hr doc (List.mem_filter.1 old).1 hs

omit [WatchService σ] in
theorem documentsShown {d : Disk} (h : Fresh real config documents c)
    (hplaced : Placed real documents d) (paths : List Path) :
    Fresh real config documents (c.documentsShown d paths).1 := by
  have asked := h.revealed hplaced paths fun _ _ _ => rfl
  rwa [← h.documents_eq] at asked ⊢

omit [WatchService σ] in
theorem refresh {d : Disk} (h : Fresh real config documents c)
    (hplaced : Placed real documents d) : Fresh real config documents (c.refresh d).1 :=
  publish hplaced h.config_eq h.documents_eq h.sources fun _ _ _ hi => by cases hi

/-- A call that finds the documents in place leaves none stale and puts nothing off. -/
theorem call {w : World} (h : Fresh real config documents c) (hr : c.renderAll = false)
    (hplaced : ∀ n, Placed real documents (w n)) (call : Call) :
    Fresh real config documents (c.call w call).1 ∧ (c.call w call).1.renderAll = false := by
  cases call with
  | start => exact h.start hr hplaced
  | handle route =>
    have queued : SameDisplay c (c.enqueue [route]) := sameDisplay_withPending _ c
    exact (h.same queued).drain hplaced 1 none
  | handleEvent event => exact h.handleEvent hplaced event
  | documentsShown paths => exact ⟨h.documentsShown (hplaced 0) paths, hr⟩
  | refresh => exact ⟨h.refresh (hplaced 0), hr⟩

omit [WatchService σ] in
theorem new (real : Path → Path) (root : Path) (config : Config) (service : σ)
    (documents : List Document) :
    Fresh real config documents (new root config service documents) where
  config_eq := rfl
  documents_eq := rfl
  sources := by simp [sent, Controller.new]
  current _ doc hd hs := lastFor_view_empty hd hs

end Fresh

/-! ### Runs -/

/-- Turns that find each of the documents at its real path and leave just these visible. Everything
else on the disk may change, and so may the service. -/
def Steady (real : Path → Path) (documents : List Document) (_ : Controller σ) : Turn σ → Prop
  | .call w _ => ∀ n, Placed real documents (w n)
  | .change _ => True
  | .visible shown => shown = documents

/-- After any run, refreshing sends every visible source what it shows already, and nothing but
sources was ever sent anything. -/
theorem refresh_sends_shown {real : Path → Path} {root : Path} {config : Config} {service : σ}
    {documents : List Document} {c : Controller σ} {d : Disk}
    (run : Reached (Steady real documents) (new root config service documents) c)
    (placed : Placed real documents d) :
    (∃ resent, (c.refresh d).1.sent = c.sent ++ resent ∧
      ∀ doc ∈ documents, config.isSource doc.path = true →
        lastFor doc.path resent = some (c.shown doc.path)) ∧
    ∀ s ∈ c.sent, config.isSource s.1 = true := by
  have fresh : Fresh real config documents c ∧ c.renderAll = false := by
    refine run.induct (P := fun c => Fresh real config documents c ∧ c.renderAll = false)
      ⟨.new real root config service documents, rfl⟩ ?_
    intro c t ⟨h, hr⟩ steady
    cases t with
    | call w call => exact h.call hr steady call
    | change service =>
      have same : SameDisplay c (c.turn (.change service)) := ⟨rfl, rfl, rfl, rfl, rfl⟩
      exact ⟨h.same same, hr⟩
    | visible shown =>
      have same : SameDisplay c (c.turn (.visible shown)) :=
        ⟨rfl, steady.trans h.documents_eq.symm, rfl, rfl, rfl⟩
      exact ⟨h.same same, hr⟩
  obtain ⟨h, hr⟩ := fresh
  refine ⟨⟨view real config c.index .all documents, ?_, h.current hr⟩, h.sources⟩
  rw [Controller.refresh, Controller.publish, sent_announce, rendered, h.config_eq,
    h.documents_eq, publish_eq_view placed]

/-- A document at the path of the source that has two records in `twins`. -/
def twinDocument : Document := .ofText ⟨"/w/b/m.c"⟩ "int f;\nint g;\nint h;"

theorem placed_twinDocument (t : Tree) (h : t.realPath ⟨"/w/b/m.c"⟩ = ⟨"/w/b/m.c"⟩) :
    Placed id [twinDocument] (.still t) := by
  intro doc hd _
  rw [List.mem_singleton.1 hd]
  exact h

/-- The document is shown its records, and then the manifest goes. -/
def twinRun : Controller Roster :=
  ((new ⟨"/w"⟩ .default .empty [twinDocument]).turn (.call (.still Snapshot.twins) .start)).turn
    (.call (.still Snapshot.bare) (.handle .location))

theorem refresh_sends_shown_twins :
    Reached (Steady id [twinDocument]) (new ⟨"/w"⟩ .default .empty [twinDocument]) twinRun ∧
    Placed id [twinDocument] (.still Snapshot.bare) ∧
    ∃ resent, (twinRun.refresh (.still Snapshot.bare)).1.sent = twinRun.sent ++ resent ∧
      lastFor ⟨"/w/b/m.c"⟩ resent = some (twinRun.shown ⟨"/w/b/m.c"⟩) := by
  have hold := placed_twinDocument Snapshot.twins (by decide +kernel)
  have hnew := placed_twinDocument Snapshot.bare (by decide +kernel)
  have run : Reached (Steady id [twinDocument]) (new ⟨"/w"⟩ .default .empty [twinDocument])
      twinRun := .turn (.turn .first fun _ => hold) fun _ => hnew
  obtain ⟨⟨resent, hs, hd⟩, -⟩ := refresh_sends_shown run hnew
  exact ⟨run, hnew, resent, hs, hd twinDocument (by simp) (by decide +kernel)⟩

end StackUsage.Controller
