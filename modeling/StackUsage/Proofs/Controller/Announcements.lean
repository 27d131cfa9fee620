import StackUsage.Proofs.Controller.Moments
import StackUsage.Proofs.Controller.Writing

/-! The host never sees a half-rebuilt index. Until a call clears the index, each report that it
takes in is announced on the spot; from then on nothing is sent or announced until the queue is
empty, and the call ends with one announcement of everything. If the manifest was missing on the way
and nothing was rebuilt after that, this announcement leaves nothing shown. -/

namespace StackUsage

/-- Whether the notice tells of a granted watch on a report. -/
def Notice.isOfReport : Notice → Bool
  | .attached _ _ (.report _ _) => true
  | _ => false

namespace Controller

variable {σ : Type}

/-! ### The log of a call -/

/-- A log in which every report that the index takes in is followed by its announcement, and the
host is told nothing else. -/
inductive Piecemeal : List Notice → Prop
  | nil : Piecemeal []
  | aside {n : Notice} {log : List Notice} :
    n.isAside = true → Piecemeal log → Piecemeal (n :: log)
  | report {key : String} {sent : List (Path × List Decoration)} {paths : List String}
    {index : Index} {log : List Notice} :
    Piecemeal log → Piecemeal (.indexed key :: (announcement sent (some paths) index ++ log))

theorem piecemeal_of_aside {log : List Notice} (h : ∀ n ∈ log, n.isAside = true) :
    Piecemeal log := by
  induction log with
  | nil => exact .nil
  | cons n rest ih =>
    exact .aside (h n List.mem_cons_self) (ih fun m hm => h m (List.mem_cons_of_mem _ hm))

theorem Piecemeal.append {log log' : List Notice} (h : Piecemeal log) (h' : Piecemeal log') :
    Piecemeal (log ++ log') := by
  induction h with
  | nil => exact h'
  | aside hn _ ih => exact .aside hn ih
  | report _ ih =>
    rw [List.cons_append, List.append_assoc]
    exact .report ih

/-- What a queue has written so far: a log up to the first clearing of the index, and what follows
that unseen. -/
inductive Written : Bool → List Notice → Prop
  | piecemeal {log : List Notice} : Piecemeal log → Written false log
  | cleared {early late : List Notice} : Piecemeal early → (∀ n ∈ late, n.isUnseen = true) →
    Written true (early ++ .cleared :: late)

theorem Written.aside {renderAll : Bool} {log notices : List Notice} (h : Written renderAll log)
    (hn : ∀ n ∈ notices, n.isAside = true) : Written renderAll (log ++ notices) := by
  cases h with
  | piecemeal early => exact .piecemeal (early.append (piecemeal_of_aside hn))
  | cleared early late =>
    rw [List.append_assoc, List.cons_append]
    refine .cleared early fun n hm => ?_
    exact (List.mem_append.1 hm).elim (late n) fun hm => Notice.isUnseen_of_isAside (hn n hm)

theorem Written.clear {renderAll : Bool} {log : List Notice} (h : Written renderAll log) :
    Written true (log ++ [.cleared]) := by
  cases h with
  | piecemeal early => exact .cleared early (by simp)
  | cleared early late =>
    rw [List.append_assoc, List.cons_append]
    refine .cleared early fun n hm => ?_
    rcases List.mem_append.1 hm with hm | hm
    · exact late n hm
    · rw [List.mem_singleton.1 hm]
      rfl

theorem Written.report {renderAll : Bool} {log : List Notice} (h : Written renderAll log)
    (key : String) (sent : List (Path × List Decoration)) (paths : List String) (index : Index) :
    Written renderAll (log ++ (.indexed key ::
      if renderAll then [] else announcement sent (some paths) index)) := by
  cases h with
  | piecemeal early =>
    have last : Piecemeal (.indexed key :: (announcement sent (some paths) index ++ [])) :=
      .report .nil
    rw [List.append_nil] at last
    exact .piecemeal (early.append last)
  | cleared early late =>
    rw [List.append_assoc, List.cons_append]
    refine .cleared early fun n hm => ?_
    rcases List.mem_append.1 hm with hm | hm
    · exact late n hm
    · rw [List.mem_singleton.1 hm]
      rfl

variable [WatchService σ]

omit [WatchService σ] in
theorem same_processReport (d : Disk) (unit : ReportUnit) (c : Controller σ) :
    (c.processReport d unit).config = c.config ∧
      (c.processReport d unit).documents = c.documents ∧
      (c.processReport d unit).renderAll = c.renderAll := by
  unfold processReport
  split <;> exact ⟨rfl, rfl, rfl⟩

theorem same_serve (d : Disk) (route : Route) (rest : List Route) (c : Controller σ) :
    (c.serve d route rest).1.config = c.config ∧
      (c.serve d route rest).1.documents = c.documents := by
  obtain h | h | ⟨unit, c₁, before, after⟩ := serve_display d route rest c
  · exact ⟨h.config, h.documents⟩
  · exact ⟨h.config, h.documents⟩
  · have same := same_processReport d unit c₁
    exact ⟨after.config.trans (same.1.trans before.config),
      after.documents.trans (same.2.1.trans before.documents)⟩

/-! ### What a call writes -/

/-- The workspace is as given, and the journal has grown by what a queue has written so far. -/
structure Journaled (base : List Notice) (config : Config) (documents : List Document)
    (c : Controller σ) : Prop where
  config_eq : c.config = config
  documents_eq : c.documents = documents
  written : ∃ log, c.journal = base ++ log ∧ Written c.renderAll log

namespace Journaled

variable {base : List Notice} {config : Config} {documents : List Document} {c c' : Controller σ}

omit [WatchService σ] in
theorem aside (h : Journaled base config documents c) (ha : Aside c c') :
    Journaled base config documents c' := by
  obtain ⟨log, hj, hw⟩ := h.written
  obtain ⟨notices, hn, kind⟩ := ha.writes.journal
  refine ⟨ha.config.trans h.config_eq, ha.documents.trans h.documents_eq, log ++ notices, ?_, ?_⟩
  · rw [hn, hj, List.append_assoc]
  · rw [ha.renderAll]
    exact hw.aside fun n hm => (kind n hm).1

omit [WatchService σ] in
theorem clear (h : Journaled base config documents c) :
    Journaled base config documents c.clearIndex := by
  obtain ⟨log, hj, hw⟩ := h.written
  have cleared : Written c.clearIndex.renderAll (log ++ [.cleared]) := hw.clear
  refine ⟨h.config_eq, h.documents_eq, log ++ [.cleared], ?_, cleared⟩
  rw [← List.append_assoc, ← hj]
  rfl

omit [WatchService σ] in
theorem processReport (h : Journaled base config documents c) (d : Disk) (unit : ReportUnit) :
    Journaled base config documents (c.processReport d unit) := by
  obtain ⟨log, hj, hw⟩ := h.written
  obtain ⟨sent, paths, hp⟩ := journal_processReport d unit c
  have same := same_processReport d unit c
  have warned : Written c.renderAll (log ++ (unit.read d c.config).warnings.map .warned) :=
    hw.aside (by simp [Notice.isAside])
  have taken := warned.report unit.sourceKey sent paths (c.processReport d unit).index
  rw [← same.2.2] at taken
  refine ⟨same.1.trans h.config_eq, same.2.1.trans h.documents_eq, _, ?_, taken⟩
  rw [hp, hj, same.2.2]
  simp only [List.append_assoc, List.cons_append, List.nil_append]

theorem serve (h : Journaled base config documents c) (d : Disk) (route : Route)
    (rest : List Route) : Journaled base config documents (c.serve d route rest).1 := by
  obtain ha | ⟨c₁, before, -, after⟩ | ⟨unit, c₁, before, after⟩ := serve_writes d route rest c
  · exact h.aside ha
  · exact (h.aside before).clear.aside after
  · exact ((h.aside before).processReport d unit).aside after

omit [WatchService σ] in
/-- The rendering that was put off ends the log. -/
theorem flush (h : Journaled base config documents c) (d : Disk) :
    ∃ log, (c.flush d).journal = base ++ log ∧
      (Piecemeal log ∨ ∃ early late sent,
        log = early ++ .cleared :: (late ++ announcement sent none (c.flush d).index) ∧
        sent = Annotation.publish d config (c.flush d).index .all documents ∧
        Piecemeal early ∧ ∀ n ∈ late, n.isUnseen = true) := by
  obtain ⟨log, hj, hw⟩ := h.written
  unfold Controller.flush
  cases hr : c.renderAll with
  | false =>
    rw [hr] at hw
    cases hw with
    | piecemeal early => exact ⟨log, hj, .inl early⟩
  | true =>
    rw [hr] at hw
    cases hw with
    | @cleared early late he hl =>
      refine ⟨_, ?_, .inr ⟨early, late, _, rfl, rfl, he, hl⟩⟩
      simp only [if_true]
      rw [journal_publish, hj, ← h.config_eq, ← h.documents_eq]
      simp only [List.append_assoc, List.cons_append]
      rfl

end Journaled

/-! ### Routes of generations that have been reached -/

/-- Every route that was issued or waits in the queue is of a generation that has been reached. -/
structure Dated (c : Controller σ) : Prop where
  issued : ∀ route, c.Issued route → route.Due c.targetGeneration c.reportGeneration
  pending : ∀ route ∈ c.pending, route.Due c.targetGeneration c.reportGeneration

omit [WatchService σ] in
theorem Dated.move {p : Notice → Prop} {c c' : Controller σ} (h : Dated c) (hw : Writes p c c')
    (hp : ∀ route ∈ c'.pending, route ∈ c.pending ∨ c.Issued route ∨
      route.Due c'.targetGeneration c'.reportGeneration) : Dated c' where
  issued := by
    rintro route ⟨id, path, hm⟩
    obtain ⟨notices, hj, hn⟩ := hw.journal
    rw [hj] at hm
    rcases List.mem_append.1 hm with hm | hm
    · exact (h.issued route ⟨id, path, hm⟩).mono hw.target hw.report
    · exact (hn _ hm).2
  pending route hr := by
    obtain hr | hr | hr := hp route hr
    · exact (h.pending route hr).mono hw.target hw.report
    · exact (h.issued route hr).mono hw.target hw.report
    · exact hr

/-- What a handler attaches is of the generation that it has reached. -/
theorem Outcome.attached_due {d : Disk} {route : Route} {c : Controller σ} {handled : Handled σ}
    (outcome : Outcome d c route handled) : ∀ q ∈ handled.attached,
      q.Due handled.controller.targetGeneration handled.controller.reportGeneration := by
  cases outcome with
  | @moved _ target handle c₁ _ _ ha =>
    have attached := aside_attach_dropTarget (d 1) target c
    rw [ha] at attached
    intro q hq
    rw [List.mem_singleton.1 hq]
    exact (attached.trans (aside_holdTarget target handle c₁)).writes.target
  | followed _ _ =>
    rename_i units _ _
    have attached := aside_attachReports units (d.after 3) (c := c.dropReports.clearIndex)
      (Nat.le_refl _)
    intro q hq
    obtain ⟨x, -, rfl⟩ := List.mem_map.1 hq
    exact (attached.trans (aside_holdReports _ _)).writes.report
  | _ => exact fun q hq => absurd hq List.not_mem_nil

omit [WatchService σ] in
theorem writes_announced {c c' : Controller σ} {sent : List (Path × List Decoration)}
    {paths : Option (List String)} {index : Index}
    (hj : c'.journal = c.journal ++ announcement sent paths index)
    (ht : c'.targetGeneration = c.targetGeneration)
    (hr : c'.reportGeneration = c.reportGeneration) : Writes (fun _ => True) c c' := by
  refine ⟨⟨_, hj, fun n hn => ⟨trivial, ?_⟩⟩, Nat.le_of_eq ht.symm,
    Nat.le_of_eq hr.symm⟩
  simp only [announcement, List.mem_append, List.mem_map, List.mem_singleton] at hn
  obtain ⟨_, -, rfl⟩ | rfl := hn <;> trivial

omit [WatchService σ] in
theorem writes_processReport (d : Disk) (unit : ReportUnit) (c : Controller σ) :
    Writes (fun _ => True) c (c.processReport d unit) := by
  have applied : Writes (fun _ => True) c (c.applyReport unit (unit.read d c.config)) := by
    refine ⟨⟨_, journal_applyReport _ _ _, fun n hn => ⟨trivial, ?_⟩⟩, Nat.le_refl _, Nat.le_refl _⟩
    simp only [List.mem_append, List.mem_map, List.mem_singleton] at hn
    obtain ⟨_, -, rfl⟩ | rfl := hn <;> trivial
  unfold processReport
  split
  · exact applied
  · exact applied.trans (writes_announced (journal_publish _ _ _) rfl rfl)

omit [WatchService σ] in
theorem Clears.writes {c c' : Controller σ} (h : Clears c c') : Writes (fun _ => True) c c' := by
  obtain ⟨c₁, before, -, after⟩ := h
  have cleared : Writes (fun _ => True) c₁ c₁.clearIndex :=
    ⟨⟨[.cleared], rfl, by simp [Notice.Due]⟩, Nat.le_refl _, Nat.le_refl _⟩
  exact ((before.writes.mono fun _ _ => trivial).trans cleared).trans
    (after.writes.mono fun _ _ => trivial)

theorem writes_serve (d : Disk) (route : Route) (rest : List Route) (c : Controller σ) :
    Writes (fun _ => True) c (c.serve d route rest).1 := by
  obtain ha | hc | ⟨unit, c₁, before, after⟩ := serve_writes d route rest c
  · exact ha.writes.mono fun _ _ => trivial
  · exact hc.writes
  · exact ((before.writes.mono fun _ _ => trivial).trans (writes_processReport d unit c₁)).trans
      (after.writes.mono fun _ _ => trivial)

theorem Dated.serve {d : Disk} {route : Route} {rest : List Route} {c : Controller σ}
    (h : Dated c) (hp : c.pending = route :: rest) : Dated (c.serve d route rest).1 := by
  obtain ⟨c₁, handled, -, -, -, -, -, -, outcome, warnings, he⟩ := serve_within d route rest c
  have moved := writes_serve d route rest c
  rw [he] at moved ⊢
  refine h.move moved fun q hq => ?_
  rcases List.mem_append.1 hq with hq | hq
  · exact .inl (hp ▸ List.mem_cons_of_mem route hq)
  · exact .inr (.inr (outcome.attached_due q hq))

theorem Dated.drain {w : World} {n : Nat} {first : Option Failure} {c : Controller σ}
    (h : Dated c) : Dated (c.drain w n first).1 := by
  obtain ⟨m, c', -, h', he⟩ := drain_rule (w := w) (P := fun _ _ c => Dated c)
    (fun hp h => h.serve hp) n first h
  rw [he, flush]
  split
  · exact h'.move (writes_announced (journal_publish (w m) .all { c' with renderAll := false })
      rfl rfl) fun route hr => .inl hr
  · exact h'

/-! ### Runs -/

/-- Calls with routes that were issued to the controller at some time, their watches live or not.
The service may change on its own, and so may what the host shows. -/
def Issuing (c : Controller σ) : Turn σ → Prop
  | .call _ (.handle route) => c.Issued route
  | .call w (.handleEvent (.ok event)) =>
    ∀ route ∈ (WatchService.route (w 0 0) event c.service).routes, c.Issued route
  | _ => True

/-- A call opens with a log that tells the host nothing, and asks for the location or for routes
that were issued. -/
theorem opening_writes {w : World} {call : Call} {c c₁ : Controller σ}
    (ho : c.opening w call = some c₁) :
    Aside c c₁ ∧ (Issuing c (.call w call) → ∀ route ∈ c₁.pending,
      route ∈ c.pending ∨ c.Issued route ∨ route = .location) := by
  cases call with
  | start =>
    simp only [opening] at ho
    have attached : Aside c (c.attach (w 0 0) c.location .location).1 := aside_attach _ _ trivial
    obtain ⟨id, -, he⟩ | ⟨refusal, -, he⟩ := attach_cases (w 0 0) c.location .location c
    · rw [he] at ho attached
      cases ho
      refine ⟨(attached.trans (aside_disposeAll _ _)).advance ⟨rfl, rfl, rfl, rfl, rfl⟩ rfl
        (Nat.le_refl _) (Nat.le_refl _), fun _ q hq => ?_⟩
      simp only [enqueue, setLocationWatch, disposeAll_eq] at hq
      exact (List.mem_append.1 hq).imp_right fun hq => .inr (List.mem_singleton.1 hq)
    · rw [he] at ho
      cases ho
  | handle route =>
    cases ho
    refine ⟨aside_withPending _ c, fun issuing q hq => ?_⟩
    rcases List.mem_append.1 hq with hq | hq
    · exact .inl hq
    · rw [List.mem_singleton.1 hq]
      exact .inr (.inl issuing)
  | handleEvent event =>
    cases ho
    have received : Aside c (c.receive (w 0 0) event) ∧ (Issuing c (.call w (.handleEvent event)) →
        ∀ q ∈ (c.receive (w 0 0) event).pending, q ∈ c.pending ∨ c.Issued q) := by
      cases event with
      | ok event =>
        refine ⟨(aside_heard_warned _ _ c).trans (aside_withPending _ _), fun issuing q hq => ?_⟩
        exact (List.mem_append.1 hq).imp_right (issuing q)
      | error text => exact ⟨aside_warn _ c, fun _ q hq => .inl hq⟩
    rw [catchUp_eq]
    split
    · refine ⟨received.1.trans ((aside_heard_warned _ [.overflow] _).trans
        (aside_withPending _ _)), fun issuing q hq => ?_⟩
      rcases List.mem_append.1 hq with hq | hq
      · exact (received.2 issuing q hq).imp_right .inl
      · exact .inr (.inr (List.mem_singleton.1 hq))
    · exact ⟨received.1.trans (aside_heard_warned _ [] _),
        fun issuing q hq => (received.2 issuing q hq).imp_right .inl⟩
  | documentsShown paths => cases ho
  | refresh => cases ho

theorem Dated.opening {w : World} {call : Call} {c c₁ : Controller σ} (h : Dated c)
    (ho : c.opening w call = some c₁) (issuing : Issuing c (.call w call)) : Dated c₁ := by
  obtain ⟨aside, asked⟩ := opening_writes ho
  refine h.move aside.writes fun q hq => ?_
  obtain hq | hq | rfl := asked issuing q hq
  · exact .inl hq
  · exact .inr (.inl hq)
  · exact .inr (.inr trivial)

theorem Dated.call {w : World} {call : Call} {c : Controller σ} (h : Dated c)
    (issuing : Issuing c (.call w call)) : Dated (c.call w call).1 := by
  cases ho : c.opening w call with
  | some c₁ =>
    rw [call_eq_drain ho]
    exact (h.opening ho issuing).drain
  | none =>
    cases call with
    | start =>
      obtain ⟨s, notices, he⟩ := attach_heard (w 0 0) c.location .location c
      have attached : Aside c (c.attach (w 0 0) c.location .location).1 := aside_attach _ _ trivial
      rw [call_start_of_unopened ho]
      refine h.move attached.writes fun q hq => .inl ?_
      rw [he] at hq
      exact hq
    | handle route => cases ho
    | handleEvent event => cases ho
    | documentsShown paths =>
      have writes : Writes (fun _ => True) c (c.documentsShown (w 0) paths).1 :=
        writes_announced rfl rfl rfl
      exact h.move writes fun q hq => .inl hq
    | refresh =>
      exact h.move (writes_announced (journal_publish (w 0) .all c) rfl rfl) fun q hq => .inl hq

theorem dated_reached {root : Path} {config : Config} {service : σ} {documents : List Document}
    {c : Controller σ} (run : Reached Issuing (new root config service documents) c) :
    Dated c := by
  refine run.induct ⟨by simp [Issued, new], by simp [new]⟩ fun {c t} h issuing => ?_
  cases t with
  | call w call => exact h.call issuing
  | change service => exact ⟨h.issued, h.pending⟩
  | visible documents => exact ⟨h.issued, h.pending⟩

/-! ### After a missing manifest -/

/-- Whether the watch of a report was granted. -/
def Rebuilt (notices : List Notice) : Prop := ∃ n ∈ notices, n.isOfReport = true

instance (notices : List Notice) : Decidable (Rebuilt notices) :=
  inferInstanceAs (Decidable (∃ n ∈ notices, n.isOfReport = true))

theorem Rebuilt.mono {notices more : List Notice} (h : Rebuilt notices)
    (hm : ∀ n ∈ notices, n ∈ more) : Rebuilt more := by
  obtain ⟨n, hn, hr⟩ := h
  exact ⟨n, hm n hn, hr⟩

theorem granted_of_mem_attachReports (units : List ReportUnit) (d : Disk) (generation : Nat)
    (c : Controller σ) :
    ∃ notices, (attachReports d generation c units).1.journal = c.journal ++ notices ∧
      ((attachReports d generation c units).2 = [] ∨ Rebuilt notices) := by
  induction units generalizing d c with
  | nil => exact ⟨[], (List.append_nil _).symm, .inl rfl⟩
  | cons unit rest ih =>
    obtain ⟨id, -, he⟩ | ⟨refusal, -, he⟩ :=
      attach_cases (d 0) unit.reportPath (.report generation unit) c
    · rw [attachReports, he]
      obtain ⟨notices, hj, -⟩ := ih (d.after 1) (c.heard _ _)
      refine ⟨_, hj.trans (List.append_assoc _ _ _),
        .inr ⟨.attached id unit.reportPath (.report generation unit), ?_, rfl⟩⟩
      simp
    · rw [attachReports, he]
      simp only [warn_eq, heard_heard]
      obtain ⟨notices, hj, hn⟩ := ih (d.after 1) (c.heard _ _)
      refine ⟨_, hj.trans (List.append_assoc _ _ _), hn.imp_right fun h => h.mono ?_⟩
      exact fun n hn => List.mem_append_right _ hn

/-- The index is empty, no report is watched, and everything will be rendered; no route of a report
comes to anything. -/
structure Barren (c : Controller σ) : Prop where
  index : c.index = .empty
  items : c.reportWatches.items = []
  renderAll : c.renderAll = true
  passed : ∀ generation unit, .report generation unit ∈ c.pending → generation < c.reportGeneration

/-- The reports were given up and none is watched again. -/
structure Emptied (c : Controller σ) (handled : Handled σ) : Prop where
  index : handled.controller.index = .empty
  items : handled.controller.reportWatches.items = []
  renderAll : handled.controller.renderAll = true
  report : c.reportGeneration < handled.controller.reportGeneration
  attached : handled.attached = []

theorem emptied_resetTiers (c : Controller σ) (failure : Option Failure) :
    Emptied c ⟨c.resetTiers, [], failure⟩ := by
  have he : c.resetTiers.reportWatches = .empty ∧
      c.resetTiers.reportGeneration = c.reportGeneration + 1 := by
    rw [resetTiers, dropReports_eq, dropTarget_eq]
    exact ⟨rfl, rfl⟩
  exact ⟨rfl, by rw [he.1]; rfl, rfl, he.2 ▸ Nat.lt_succ_self _, rfl⟩

theorem forgotten (c : Controller σ) :
    c.dropReports.clearIndex.reportWatches.items = [] ∧
      c.reportGeneration < c.dropReports.clearIndex.reportGeneration := by
  rw [dropReports_eq]
  exact ⟨rfl, Nat.lt_succ_self _⟩

/-- Nothing that bears on the reports has changed, and no report is to be taken in. -/
structure Spared (c : Controller σ) (handled : Handled σ) : Prop where
  index : handled.controller.index = c.index
  reportWatches : handled.controller.reportWatches = c.reportWatches
  renderAll : handled.controller.renderAll = c.renderAll
  report : c.reportGeneration ≤ handled.controller.reportGeneration
  attached : ∀ generation unit, .report generation unit ∉ handled.attached

/-- A route spares the reports, or gives them up for good, or gets a report watched, or takes one
in. -/
theorem Outcome.reports {d : Disk} {route : Route} {c : Controller σ} {handled : Handled σ}
    (outcome : Outcome d c route handled) :
    Spared c handled ∨ Emptied c handled ∨
      (∃ notices, handled.controller.journal = c.journal ++ notices ∧ Rebuilt notices) ∨
      ∃ unit, route = .report c.reportGeneration unit := by
  have gone := forgotten c
  cases outcome with
  | ignored _ => exact .inl ⟨rfl, rfl, rfl, Nat.le_refl _, by simp⟩
  | unresolved _ => exact .inl ⟨rfl, rfl, rfl, Nat.le_refl _, by simp⟩
  | missing _ _ => exact .inr (.inl (emptied_resetTiers c none))
  | @moved _ target handle c₁ _ _ ha =>
    refine .inl ?_
    have attached := aside_attach_dropTarget (d 1) target c
    have same : c₁.reportWatches = c.reportWatches := by
      obtain ⟨id, -, he⟩ | ⟨refusal, -, he⟩ := attach_cases (d 1) target
        (.target (c.targetGeneration + 1)) c.dropTarget
      · cases ha.symm.trans he
        rw [dropTarget_eq]
        rfl
      · cases ha.symm.trans he
    rw [ha] at attached
    have held := ((aside_dropTarget c).trans attached).trans (aside_holdTarget target handle c₁)
    refine ⟨held.index, ?_, held.renderAll, held.writes.report, by simp⟩
    rw [← same, holdTarget, setTargetWatch, disposeAll_eq]
    rfl
  | @refused _ target failure c₁ _ _ ha =>
    have attached := aside_attach_dropTarget (d 1) target c
    rw [ha] at attached
    have reset := emptied_resetTiers c₁ (some failure)
    have report := ((aside_dropTarget c).trans attached).writes.report
    exact .inr (.inl { reset with report := Nat.lt_of_le_of_lt report reset.report })
  | lost _ => exact .inr (.inl ⟨rfl, gone.1, rfl, gone.2, rfl⟩)
  | unread _ _ => exact .inr (.inl ⟨rfl, gone.1, rfl, gone.2, rfl⟩)
  | followed _ _ =>
    rename_i units _ _
    refine .inr ?_
    have aside := aside_attachReports units (d.after 3) (c := c.dropReports.clearIndex)
      (Nat.le_refl _)
    obtain ⟨notices, hj, hn⟩ := granted_of_mem_attachReports units (d.after 3)
      c.dropReports.clearIndex.reportGeneration c.dropReports.clearIndex
    have held := aside_holdReports
      ((attachReports (d.after 3) c.dropReports.clearIndex.reportGeneration
        c.dropReports.clearIndex units).2.map (·.1))
      (attachReports (d.after 3) c.dropReports.clearIndex.reportGeneration
        c.dropReports.clearIndex units).1
    obtain hn | hn := hn
    · refine .inl ⟨held.index.trans aside.index, ?_, held.renderAll.trans aside.renderAll,
        Nat.lt_of_lt_of_le gone.2 (aside.trans held).writes.report, ?_⟩
      · simp [watchReports, hn, holdReports, setReportWatches, Batch.set]
      · simp [watchReports, hn]
    · obtain ⟨early, he, -⟩ := (clears_forget c).writes.journal
      obtain ⟨late, hl, -⟩ := held.writes.journal
      refine .inr (.inl ⟨early ++ notices ++ late, ?_, hn.mono (by simp +contextual)⟩)
      rw [watchReports, hl, hj, he]
      simp only [List.append_assoc]
  | taken unit => exact .inr (.inr (.inr ⟨unit, rfl⟩))

/-- Nothing is rebuilt, or the watch of a report is granted. -/
theorem Barren.serve {d : Disk} {route : Route} {rest : List Route} {c : Controller σ}
    (h : Barren c) (hp : c.pending = route :: rest) :
    Barren (c.serve d route rest).1 ∨ ∃ notices, (c.serve d route rest).1.journal =
      c.journal ++ notices ∧ Rebuilt notices := by
  obtain ⟨c₁, handled, aside, rg, -, -, rw', hj, outcome, warnings, he⟩ :=
    serve_within d route rest c
  have passed : ∀ generation unit, .report generation unit ∈ rest →
      generation < c₁.reportGeneration := fun generation unit hm =>
    rg ▸ h.passed generation unit (hp ▸ List.mem_cons_of_mem route hm)
  rw [he]
  obtain same | gone | ⟨notices, hn, rebuilt⟩ | ⟨unit, rfl⟩ := outcome.reports
  · refine .inl ⟨same.index.trans (aside.index.trans h.index), ?_, same.renderAll.trans
      (aside.renderAll.trans h.renderAll), fun generation unit hm => ?_⟩
    · exact (congrArg (·.items) (same.reportWatches.trans rw')).trans h.items
    · rcases List.mem_append.1 hm with hm | hm
      · exact Nat.lt_of_lt_of_le (passed generation unit hm) same.report
      · exact absurd hm (same.attached generation unit)
  · refine .inl ⟨gone.index, gone.items, gone.renderAll, fun generation unit hm => ?_⟩
    rw [gone.attached, List.append_nil] at hm
    exact Nat.lt_trans (passed generation unit hm) gone.report
  · refine .inr ⟨[.dispatched route] ++ notices ++ warnings.map .warned, ?_,
      rebuilt.mono (by simp +contextual)⟩
    change handled.controller.journal ++ _ = _
    rw [hn, hj]
    simp only [List.append_assoc]
  · have := h.passed c₁.reportGeneration unit (hp ▸ List.mem_cons_self)
    omega

/-- A manifest that is missing leaves no report to be taken in. -/
theorem barren_of_missing {d : Disk} {route : Route} {rest : List Route} {c : Controller σ}
    (h : Dated c) (hp : c.pending = route :: rest)
    (hr : route = .location ∨ route = .target c.targetGeneration)
    (hm : Resolution.resolve (d 0) c.location = .ok .missing) :
    Barren (c.serve d route rest).1 := by
  obtain ⟨c₁, handled, aside, rg, tg, loc, rw', hj, outcome, warnings, he⟩ :=
    serve_within d route rest c
  rw [← loc] at hm
  rw [← tg] at hr
  have found : ∀ {manifest : Resolution}, Resolution.resolve (d 0) c₁.location = .ok manifest →
      manifest = .missing := fun h => Except.ok.inj (h.symm.trans hm)
  have emptied : Emptied c₁ handled := by
    cases outcome with
    | ignored passed =>
      rcases hr with rfl | rfl
      · cases passed
      · exact absurd rfl passed
    | unresolved hf => cases hf.symm.trans hm
    | missing _ _ => exact emptied_resetTiers c₁ none
    | moved hf hpath _ =>
      cases found hf
      cases hpath
    | refused hf hpath _ =>
      cases found hf
      cases hpath
    | lost hf => cases hf.symm.trans hm
    | unread hf hu =>
      cases found hf
      cases hu
    | followed hf hu =>
      cases found hf
      cases hu
      have gone := forgotten c₁
      refine ⟨rfl, ?_, rfl, gone.2, rfl⟩
      simp [watchReports, attachReports, holdReports, setReportWatches, Batch.set]
    | taken unit => simp at hr
  rw [he]
  refine ⟨emptied.index, emptied.items, emptied.renderAll, fun generation unit hq => ?_⟩
  rw [emptied.attached, List.append_nil] at hq
  have due := h.pending _ (hp ▸ List.mem_cons_of_mem route hq)
  exact Nat.lt_of_le_of_lt (rg ▸ due) emptied.report

open Annotation (decorations_empty) in
/-- By an empty index each visible source is sent an empty list, and nothing else is sent. -/
theorem publish_empty (d : Disk) (config : Config) (documents : List Document) :
    Annotation.publish d config .empty .all documents =
      (documents.filter fun doc => config.isSource doc.path).map fun doc => (doc.path, []) := by
  have render : ∀ k doc, Annotation.render? (d k) config .empty .all doc =
      if config.isSource doc.path then some (doc.path, []) else none := by
    intro k doc
    unfold Annotation.render?
    rw [decorations_empty]
    simp [Affected.includes]
  unfold Annotation.publish
  simp only [render]
  generalize config.isSource = isSource
  clear render
  induction documents with
  | nil => rfl
  | cons doc rest ih =>
    rw [List.mapIdx_cons]
    by_cases hs : isSource doc.path = true
    · simpa [hs] using ih
    · simpa [hs] using ih

/-- Once nothing can be taken in, the rest of a pass gets a report watched or ends with everything
cleared away. -/
theorem Barren.drain (w : World) (n : Nat) (first : Option Failure) {c : Controller σ}
    (h : Barren c) :
    ∃ later, (c.drain w n first).1.journal = c.journal ++ later ∧ (Rebuilt later ∨
      (c.drain w n first).1.index = .empty ∧ (c.drain w n first).1.reportWatches.items = [] ∧
        ∃ earlier, later = earlier ++ announcement ((c.documents.filter fun doc =>
          c.config.isSource doc.path).map fun doc => (doc.path, [])) none .empty) := by
  obtain ⟨m, c', -, ⟨log, hlog, config, documents, barren⟩, he⟩ := drain_rule (w := w)
    (P := fun _ _ c' => ∃ log, c'.journal = c.journal ++ log ∧ c'.config = c.config ∧
      c'.documents = c.documents ∧ (Barren c' ∨ Rebuilt log))
    (fun {k _ c' route rest} hp ⟨log, hlog, config, documents, h⟩ => by
      obtain ⟨notices, hn, -⟩ := (writes_serve (w k) route rest c').journal
      have same := same_serve (w k) route rest c'
      refine ⟨log ++ notices, by rw [hn, hlog, List.append_assoc], same.1.trans config,
        same.2.trans documents, ?_⟩
      obtain h | h := h
      · refine (h.serve hp).imp_right fun ⟨more, hm, rebuilt⟩ => ?_
        rw [List.append_cancel_left (hn.symm.trans hm)]
        exact rebuilt.mono fun n hn => List.mem_append_right _ hn
      · exact .inr (h.mono fun n hn => List.mem_append_left _ hn)) n first
    ⟨[], (List.append_nil _).symm, rfl, rfl, .inl h⟩
  rw [he]
  have published := journal_publish (w m) .all { c' with renderAll := false }
  have ending := published.trans
    ((congrArg (· ++ announcement _ _ _) hlog).trans (List.append_assoc _ _ _))
  unfold flush
  obtain barren | rebuilt := barren
  · rw [if_pos barren.renderAll]
    refine ⟨_, ending, .inr ⟨barren.index, barren.items, log, ?_⟩⟩
    rw [← publish_empty (w m), ← config, ← documents, ← barren.index]
    rfl
  · split
    · exact ⟨_, ending, .inl (rebuilt.mono fun n hn => List.mem_append_left _ hn)⟩
    · exact ⟨log, hlog, .inl rebuilt⟩

/-! ### Announcements -/

/-- Whether the call works through a queue. -/
def Call.isPass : Call → Bool
  | .start => true
  | .handle _ => true
  | .handleEvent _ => true
  | _ => false

theorem journaled_call {w : World} {call : Call} (pass : call.isPass = true) {c : Controller σ}
    (idle : Idle c) :
    ∃ log, (c.call w call).1.journal = c.journal ++ log ∧
      (Piecemeal log ∨ ∃ early late sent n,
        log = early ++ .cleared :: (late ++ announcement sent none (c.call w call).1.index) ∧
        sent = Annotation.publish (w n) c.config (c.call w call).1.index .all c.documents ∧
        Piecemeal early ∧ ∀ n ∈ late, n.isUnseen = true) := by
  cases ho : c.opening w call with
  | some c₁ =>
    have first : Journaled c.journal c.config c.documents c := by
      refine ⟨rfl, rfl, [], (List.append_nil _).symm, ?_⟩
      rw [idle.renderAll]
      exact .piecemeal .nil
    obtain ⟨m, c', -, h, he⟩ := drain_rule (w := w)
      (P := fun _ _ c' => Journaled c.journal c.config c.documents c')
      (fun _ h => h.serve _ _ _) 1 none (first.aside (opening_writes ho).1)
    rw [call_eq_drain ho, he]
    obtain ⟨log, hj, hl⟩ := h.flush (w m)
    exact ⟨log, hj, hl.imp_right fun ⟨early, late, sent, h⟩ => ⟨early, late, sent, m, h⟩⟩
  | none =>
    cases call with
    | start =>
      have attached : Aside c (c.attach (w 0 0) c.location .location).1 := aside_attach _ _ trivial
      obtain ⟨log, hj, hn⟩ := attached.writes.journal
      rw [call_start_of_unopened ho]
      refine ⟨log, hj, .inl ?_⟩
      exact piecemeal_of_aside fun n hm => (hn n hm).1
    | handle route => cases ho
    | handleEvent event => cases ho
    | documentsShown paths => cases pass
    | refresh => cases pass

/-- The host never sees a half-rebuilt index. What a call writes that works through a queue is
piecemeal up to the first clearing of the index, where each report taken in is announced on the
spot. From there on the host is told nothing, and the call ends with one announcement of everything,
whose numbers are those of the index that it leaves. If a route of the location or a current one of
the real manifest finds the manifest missing and no report is watched after that, the index and the
tier of the reports end empty, and the last that the host is told is an empty list for every visible
source. -/
theorem calls_announce_whole_index {root : Path} {config : Config} {service : σ}
    {documents : List Document} {c : Controller σ}
    (run : Reached Issuing (new root config service documents) c) {w : World} {call : Call}
    (pass : call.isPass = true) (issuing : Issuing c (.call w call)) :
    (∃ log, (c.call w call).1.journal = c.journal ++ log ∧
      (Piecemeal log ∨ ∃ early late sent n,
        log = early ++ .cleared :: (late ++ announcement sent none (c.call w call).1.index) ∧
        sent = Annotation.publish (w n) c.config (c.call w call).1.index .all c.documents ∧
        Piecemeal early ∧ ∀ n ∈ late, n.isUnseen = true)) ∧
    ∀ c₁ n c₂ route rest later, c.opening w call = some c₁ → Serves w 1 c₁ n c₂ →
      c₂.pending = route :: rest → route = .location ∨ route = .target c₂.targetGeneration →
      Resolution.resolve (w n 0) c₂.location = .ok .missing →
      (c.call w call).1.journal = c₂.journal ++ later → ¬ Rebuilt later →
        (c.call w call).1.index = .empty ∧ (c.call w call).1.reportWatches.items = [] ∧
        ∃ earlier, later = earlier ++ announcement ((c.documents.filter fun doc =>
          c.config.isSource doc.path).map fun doc => (doc.path, [])) none .empty := by
  refine ⟨journaled_call pass run.idle, ?_⟩
  intro c₁ n c₂ route rest later ho serves hp hr missing hj quiet
  obtain ⟨aside, asked⟩ := opening_writes ho
  obtain ⟨dated, config, documents⟩ : Dated c₂ ∧ c₂.config = c.config ∧
      c₂.documents = c.documents :=
    serves.keeps (P := fun c' => Dated c' ∧ c'.config = c.config ∧ c'.documents = c.documents)
      ⟨(dated_reached run).opening ho issuing, aside.config, aside.documents⟩
      fun {c' d route rest} hp ⟨dated, config, documents⟩ =>
        have same := same_serve d route rest c'
        ⟨dated.serve hp, same.1.trans config, same.2.trans documents⟩
  obtain ⟨notices, hn, -⟩ := (writes_serve (w n) route rest c₂).journal
  obtain ⟨first, hd⟩ := serves.drain none
  obtain ⟨more, hm, ending⟩ := (barren_of_missing dated hp hr missing).drain w (n + 1)
    (first.or (c₂.serve (w n) route rest).2)
  rw [call_eq_drain ho, hd, drain_cons hp] at hj ⊢
  rw [hm, hn, List.append_assoc] at hj
  obtain rfl := List.append_cancel_left hj
  obtain rebuilt | ⟨index, items, earlier, rfl⟩ := ending
  · exact absurd (rebuilt.mono fun n hn => List.mem_append_right _ hn) quiet
  · have same := same_serve (w n) route rest c₂
    refine ⟨index, items, notices ++ earlier, ?_⟩
    rw [same.1, same.2, config, documents, List.append_assoc]

/-- Once both reports are in, the location is looked at again, and nothing is left. -/
theorem pairStarted_missing :
    .attached 1 ⟨"/w/m"⟩ .location ∈ pairStarted.journal ∧
    (Resolution.resolve Snapshot.bare pairStarted.location).toOption = some .missing ∧
    (pairStarted.documents.filter fun doc => pairStarted.config.isSource doc.path) =
      [pairDocument] ∧
    ∃ result ∈ pairStarted.callIn 9 (.still Snapshot.bare) (.handle .location),
      result.1.journal = pairStarted.journal ++ result.1.journal.drop pairStarted.journal.length ∧
      ¬ Rebuilt (result.1.journal.drop pairStarted.journal.length) :=
  calls_of_callsIn 9 [(.still pair, .start)] (pairNew [pairDocument])
    (P := fun c => .attached 1 ⟨"/w/m"⟩ .location ∈ c.journal ∧
      (Resolution.resolve Snapshot.bare c.location).toOption = some .missing ∧
      (c.documents.filter fun doc => c.config.isSource doc.path) = [pairDocument] ∧
      ∃ result ∈ c.callIn 9 (.still Snapshot.bare) (.handle .location),
        result.1.journal = c.journal ++ result.1.journal.drop c.journal.length ∧
        ¬ Rebuilt (result.1.journal.drop c.journal.length)) (by decide +kernel)

/-- The document showed a record of its report; it ends up with an empty list. -/
theorem calls_announce_whole_index_missing :
    Reached Issuing (pairNew [pairDocument]) pairStarted ∧
    Issuing pairStarted (.call (.still Snapshot.bare) (.handle .location)) ∧
    (pairStarted.call (.still Snapshot.bare) (.handle .location)).1.index = .empty ∧
    ∃ earlier, (pairStarted.call (.still Snapshot.bare) (.handle .location)).1.journal =
      earlier ++ [.decorated ⟨"/w/a.c"⟩ [], .published ⟨none, 1, 0, 0⟩] := by
  obtain ⟨granted, missing, sources, result, hr, hj, quiet⟩ := pairStarted_missing
  have run : Reached Issuing (pairNew [pairDocument]) pairStarted := .turn .first trivial
  have issuing : Issuing pairStarted (.call (.still Snapshot.bare) (.handle .location)) :=
    ⟨1, ⟨"/w/m"⟩, granted⟩
  obtain ⟨-, cleared⟩ := calls_announce_whole_index run rfl issuing
  have pending : (pairStarted.enqueue [.location]).pending = [.location] := by
    rw [enqueue, run.idle.pending]
    rfl
  rw [← call_eq_of_callIn hr] at hj quiet
  obtain ⟨index, -, earlier, he⟩ := cleared _ 1 _ _ _ _ rfl .refl pending (.inl rfl)
    (Snapshot.eq_ok_of_toOption missing) hj quiet
  refine ⟨run, issuing, index, pairStarted.journal ++ earlier, ?_⟩
  rw [sources] at he
  rw [hj, he, List.append_assoc]
  rfl

end Controller

end StackUsage
