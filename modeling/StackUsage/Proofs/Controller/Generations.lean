import StackUsage.Proofs.Controller.Outcome
import StackUsage.Proofs.Controller.Upkeep

/-! Generations separate live watches from released ones. A watch on the real manifest or on a
report is granted under the current generation of its tier, and the generation moves on whenever
the tier is torn down. So at every moment of a run a granted watch is live or its route is of an
earlier generation, and once it is released its route stays so for good. -/

namespace StackUsage

/-- Whether the notice tells of a watch that comes or goes. -/
def Notice.isOfWatch : Notice → Bool
  | .attached _ _ _ => true
  | .released _ => true
  | _ => false

namespace Controller

open WatchService (Lawful Holding)

/-! ### Granted and released watches -/

/-- A watch with this number and route was granted, and released after that. -/
def TornDown (id : Nat) (route : Route) (journal : List Notice) : Prop :=
  ∃ path before after, journal = before ++ .attached id path route :: after ∧ .released id ∈ after

theorem TornDown.attached {id : Nat} {route : Route} {journal : List Notice}
    (h : TornDown id route journal) : ∃ path, .attached id path route ∈ journal := by
  obtain ⟨path, before, after, rfl, -⟩ := h
  exact ⟨path, List.mem_append_right before List.mem_cons_self⟩

theorem TornDown.released {id : Nat} {route : Route} {journal : List Notice}
    (h : TornDown id route journal) : .released id ∈ journal := by
  obtain ⟨path, before, after, rfl, hr⟩ := h
  exact List.mem_append_right before (List.mem_cons_of_mem _ hr)

theorem tornDown_append {id : Nat} {route : Route} {journal notices : List Notice}
    (h : TornDown id route (journal ++ notices)) :
    TornDown id route journal ∨
      (∃ path, .attached id path route ∈ journal ∧ .released id ∈ notices) ∨
      TornDown id route notices := by
  obtain ⟨path, before, after, he, hr⟩ := h
  obtain ⟨middle, -, hn⟩ | ⟨middle, hj, hm⟩ := List.append_eq_append_iff.1 he
  · exact .inr (.inr ⟨path, middle, after, hn, hr⟩)
  · cases middle with
    | nil => exact .inr (.inr ⟨path, [], after, hm.symm, hr⟩)
    | cons first middle =>
      obtain ⟨rfl, rfl⟩ := List.cons.inj hm
      rcases List.mem_append.1 hr with hr | hr
      · exact .inl ⟨path, before, middle, hj, hr⟩
      · exact .inr (.inl ⟨path, by simp [hj], hr⟩)

/-- What the generations say about the watches that a journal tells of: a watch below the location
is live or of an earlier generation, and one that was released is of an earlier generation. -/
structure Tags (target report : Nat) (live : List LiveWatch) (journal : List Notice) : Prop where
  granted : ∀ {id : Nat} {path : Path} {route : Route}, .attached id path route ∈ journal →
    route ≠ .location → ⟨id, path, route⟩ ∈ live ∨ Before target report route
  released : ∀ {id : Nat} {route : Route}, TornDown id route journal → route ≠ .location →
    Before target report route

namespace Tags

variable {target report target' report' : Nat} {live live' : List LiveWatch}
  {journal notices : List Notice}

theorem quiet (h : Tags target report live journal) (ht : target ≤ target')
    (hr : report ≤ report') (hl : ∀ w ∈ live, w ∈ live')
    (hn : ∀ n ∈ notices, n.isOfWatch = false) :
    Tags target' report' live' (journal ++ notices) where
  granted hm hd := by
    rcases List.mem_append.1 hm with hm | hm
    · exact (h.granted hm hd).imp (hl _) fun hb => hb.mono ht hr
    · cases hn _ hm
  released hd hl := by
    obtain hd | ⟨-, -, hm⟩ | hd := tornDown_append hd
    · exact (h.released hd hl).mono ht hr
    · cases hn _ hm
    · cases hn _ hd.released

/-- A granted watch joins the live ones. -/
theorem grant (h : Tags target report live journal) (warnings : List Warning) (id : Nat)
    (path : Path) (route : Route) (hl : live'.Perm (live ++ [⟨id, path, route⟩])) :
    Tags target report live' (journal ++ (warnings.map .warned ++ [.attached id path route])) where
  granted hm hd := by
    simp only [List.mem_append, List.mem_map, List.mem_singleton, reduceCtorEq, and_false,
      exists_false, false_or] at hm
    rcases hm with hm | hm
    · refine (h.granted hm hd).imp_left fun hm => ?_
      exact hl.mem_iff.2 (List.mem_append_left _ hm)
    · cases hm
      exact .inl (hl.mem_iff.2 (by simp))
  released hd hl := by
    have silent : ∀ gone, Notice.released gone ∉
        warnings.map .warned ++ [.attached id path route] := by simp
    obtain hd | ⟨-, -, hm⟩ | hd := tornDown_append hd
    · exact h.released hd hl
    · exact absurd hm (silent _)
    · exact absurd hd.released (silent _)

/-- Watches of the location, or of a generation that has passed, are released. -/
theorem release {σ : Type} [WatchService σ] {sound : σ → Prop} {s s' : σ}
    {others own gone : List LiveWatch} (h : Tags target report (WatchService.live s) journal)
    (before : Holding sound others (gone ++ own) s) (after : Holding sound others own s')
    (ht : target ≤ target') (hr : report ≤ report')
    (passed : ∀ w ∈ gone, w.route = .location ∨ Before target' report' w.route) :
    Tags target' report' (WatchService.live s')
      (journal ++ (gone.map (·.id)).map .released) where
  granted hm hd := by
    have hm := (List.mem_append.1 hm).resolve_right (by simp)
    refine (h.granted hm hd).elim (fun hw => ?_) fun hb => .inr (hb.mono ht hr)
    rcases List.mem_append.1 (before.live.mem_iff.1 hw) with hw | hw
    · exact .inl (after.live.mem_iff.2 (List.mem_append_left _ hw))
    · rcases List.mem_append.1 hw with hw | hw
      · exact .inr ((passed _ hw).resolve_left hd)
      · exact .inl (after.live.mem_iff.2 (List.mem_append_right _ hw))
  released hd hl := by
    obtain hd | ⟨path, hm, hg⟩ | hd := tornDown_append hd
    · exact (h.released hd hl).mono ht hr
    · refine (h.granted hm hl).elim (fun hw => ?_) fun hb => hb.mono ht hr
      -- The number was released for a watch that is gone, and live numbers are not shared.
      simp only [List.map_map, List.mem_map, Function.comp_apply, Notice.released.injEq] at hg
      obtain ⟨w, hgone, rfl⟩ := hg
      have same := before.eq_of_id hw (List.mem_append_left own hgone) rfl
      have past := passed w hgone
      rw [← same] at past
      exact past.resolve_left hl
    · obtain ⟨path, hm⟩ := hd.attached
      simp at hm

end Tags

/-! ### What a controller keeps -/

variable {σ : Type} [WatchService σ] {sound : σ → Prop}

/-- The generations of a controller tell its live watches from those that were released. -/
def Tagged (c : Controller σ) : Prop :=
  Tags c.targetGeneration c.reportGeneration (WatchService.live c.service) c.journal

section

variable {others : List LiveWatch} {queue : List Route} {held : List (Handle × ReportUnit)}
  {c c' : Controller σ}

theorem Tagged.quiet {notices : List Notice} (h : Tagged c)
    (hj : c'.journal = c.journal ++ notices) (hn : ∀ n ∈ notices, n.isOfWatch = false)
    (ht : c'.targetGeneration = c.targetGeneration) (hr : c'.reportGeneration = c.reportGeneration)
    (hl : (WatchService.live c'.service).Perm (WatchService.live c.service)) : Tagged c' := by
  rw [Tagged, hj, ht, hr]
  exact Tags.quiet h (Nat.le_refl _) (Nat.le_refl _) (fun _ hw => hl.mem_iff.2 hw) hn

theorem Tagged.note (h : Tagged c) {notices : List Notice}
    (hn : ∀ n ∈ notices, n.isOfWatch = false) : Tagged (c.note notices) :=
  h.quiet rfl hn rfl rfl (.refl _)

theorem Tagged.warn (h : Tagged c) (warnings : List Warning) : Tagged (c.warn warnings) :=
  h.note (by simp [Notice.isOfWatch])

/-- Disposing of handles whose watches are of the location, or of a generation that passes. -/
theorem tags_disposeAll (law : Lawful σ sound) (tags : Tagged c) {own gone : List LiveWatch}
    {handles : List Handle} (before : Holding sound others (gone ++ own) c.service)
    (alive : ∀ x ∈ handles, x.live = true) (ids : handles.map (·.id) = gone.map (·.id))
    {target report : Nat} (ht : c.targetGeneration ≤ target) (hr : c.reportGeneration ≤ report)
    (passed : ∀ w ∈ gone, w.route = .location ∨ Before target report w.route) :
    Tags target report (WatchService.live (releaseAll (released handles) c.service))
      (c.journal ++ (released handles).map .released) := by
  have after := holding_released law before alive ids
  have journal := Tags.release tags before after ht hr passed
  rwa [← ids, ← released_eq alive] at journal

theorem tagged_dropTarget (law : Lawful σ sound) (h : Kept sound others queue held c)
    (tags : Tagged c) : Tagged c.dropTarget := by
  have before : Holding sound others
      (c.targetPart ++ (c.locationPart ++ reportPart c.reportGeneration held)) c.service := by
    refine h.holding.perm ?_
    rw [own, ← List.append_assoc, ← List.append_assoc]
    exact List.perm_append_comm.append_right _
  rw [dropTarget_eq]
  refine tags_disposeAll law tags before h.alive_target (ids_targetPart h.placed)
    (Nat.le_succ _) (Nat.le_refl _) fun w hw => .inr ?_
  rw [route_of_mem_targetPart hw]
  exact Nat.lt_succ_self c.targetGeneration

theorem tagged_forget (law : Lawful σ sound) (h : Kept sound others queue held c)
    (tags : Tagged c) : Tagged c.dropReports.clearIndex := by
  have before : Holding sound others
      (reportPart c.reportGeneration held ++ (c.locationPart ++ c.targetPart)) c.service := by
    refine h.holding.perm ?_
    rw [own, ← List.append_assoc]
    exact List.perm_append_comm
  have dropped : Tagged c.dropReports := by
    rw [dropReports_eq]
    refine tags_disposeAll law tags before h.alive_reports h.ids_reportPart (Nat.le_refl _)
      (Nat.le_succ _) fun w hw => .inr ?_
    obtain ⟨x, -, rfl⟩ := List.mem_map.1 hw
    exact Nat.lt_succ_self _
  exact dropped.note (by simp [Notice.isOfWatch])

theorem tagged_resetTiers (law : Lawful σ sound) (h : Kept sound others queue held c)
    (tags : Tagged c) : Tagged c.resetTiers := by
  have forgotten := tagged_forget law (h.dropTarget law) (tagged_dropTarget law h tags)
  refine forgotten.quiet (List.append_nil _).symm ?_ rfl rfl (.refl _)
  simp

theorem tagged_attach (law : Lawful σ sound) (hs : sound c.service) (tags : Tagged c) (t : Tree)
    (path : Path) (route : Route) : Tagged (c.attach t path route).1 := by
  obtain ⟨id, ho, he⟩ | ⟨refusal, ho, he⟩ := attach_cases t path route c
  · rw [he]
    exact Tags.grant tags _ id path route (law.live_granted hs ho)
  · rw [he]
    exact tags.quiet rfl (by simp [Notice.isOfWatch]) rfl rfl (law.live_refused hs ho)

theorem tagged_attachReports (law : Lawful σ sound) (generation : Nat) (units : List ReportUnit)
    (d : Disk) (h : Holding sound others (c.own held) c.service) (tags : Tagged c) :
    Tagged (attachReports d generation c units).1 := by
  suffices run : ∀ (own : List LiveWatch) (d : Disk) (c : Controller σ),
      Holding sound others own c.service → Tagged c →
        Tagged (attachReports d generation c units).1 from run _ d c h tags
  clear h tags
  induction units with
  | nil => exact fun _ _ _ _ tags => tags
  | cons unit rest ih =>
    intro own d c h tags
    have attached := tagged_attach law h.sound tags (d 0) unit.reportPath (.report generation unit)
    rw [attachReports]
    obtain ⟨id, c₁, he, hg⟩ | ⟨failure, c₁, he, hg⟩ :=
      granted_attach law h (d 0) unit.reportPath (.report generation unit)
    · rw [he] at attached ⊢
      exact ih _ _ _ hg.holding attached
    · rw [he] at attached ⊢
      exact ih _ _ _ hg.holding (attached.warn _)

theorem tagged_holdTarget (tags : Tagged c) (hs : c.targetWatch = .empty) (target : Path)
    (handle : Handle) : Tagged (c.holdTarget target handle) := by
  have empty : c.targetWatch.current.toList = [] := congrArg (·.current.toList) hs
  rw [holdTarget, setTargetWatch, Slot.set, empty, disposeAll_nil]
  exact tags

theorem tagged_holdReports (tags : Tagged c) (hs : c.reportWatches.items = [])
    (handles : List Handle) : Tagged (c.holdReports handles) := by
  rw [holdReports, setReportWatches, Batch.set, hs, disposeAll_nil]
  exact tags

omit [WatchService σ] in
theorem isOfWatch_announcement (sent : List (Path × List Decoration))
    (paths : Option (List String)) (index : Index) :
    ∀ n ∈ announcement sent paths index, n.isOfWatch = false := by
  simp only [announcement, List.mem_append, List.mem_map, List.mem_singleton]
  rintro n (⟨_, -, rfl⟩ | rfl) <;> rfl

theorem Tagged.publish (h : Tagged c) (d : Disk) (affected : Affected) :
    Tagged (c.publish d affected) := h.note (isOfWatch_announcement _ _ _)

theorem tagged_processReport (tags : Tagged c) (d : Disk) (unit : ReportUnit) :
    Tagged (c.processReport d unit) := by
  have applied : Tagged (c.applyReport unit (unit.read d c.config)) :=
    (Tagged.warn (c := { c with index := _ }) tags _).note (by simp [Notice.isOfWatch])
  unfold processReport
  split
  · exact applied
  · exact applied.publish _ _

/-! ### Runs -/

theorem tagged_outcome (law : Lawful σ sound) (h : Tended sound others queue held c)
    (tags : Tagged c) {d : Disk} {route : Route} {handled : Handled σ}
    (outcome : Outcome d c route handled) : Tagged handled.controller := by
  have kept := h.toKept.dropTarget law
  have dropped := tagged_dropTarget law h.toKept tags
  have forgotten := tagged_forget law h.toKept tags
  cases outcome with
  | ignored _ => exact tags
  | unresolved _ => exact tags
  | missing _ _ => exact tagged_resetTiers law h.toKept tags
  | @moved _ target handle c₁ _ _ ha =>
    have attached := tagged_attach law kept.holding.sound dropped (d 1) target
      (.target (c.targetGeneration + 1))
    obtain ⟨id, c₂, he, hg⟩ | ⟨failure, c₂, he, -⟩ := granted_attach law kept.holding (d 1) target
      (.target (c.targetGeneration + 1))
    · cases ha.symm.trans he
      rw [ha] at attached
      obtain ⟨s, notices, rfl⟩ := hg.heard
      refine tagged_holdTarget attached ?_ target _
      rw [dropTarget_eq]
      rfl
    · cases ha.symm.trans he
  | @refused _ target failure c₁ _ _ ha =>
    have attached := tagged_attach law kept.holding.sound dropped (d 1) target
      (.target (c.targetGeneration + 1))
    obtain ⟨id, c₂, he, -⟩ | ⟨failure, c₂, he, hg⟩ := granted_attach law kept.holding (d 1) target
      (.target (c.targetGeneration + 1))
    · cases ha.symm.trans he
    · cases ha.symm.trans he
      rw [ha] at attached
      exact tagged_resetTiers law (kept.refused hg) attached
  | lost _ => exact forgotten
  | unread _ _ => exact forgotten.warn _
  | followed _ _ =>
    rename_i units _ _
    have cleared := h.toKept.forget law
    have attached := tagged_attachReports law c.dropReports.clearIndex.reportGeneration units
      (d.after 3) cleared.holding forgotten
    obtain ⟨hg, -⟩ := granted_attachReports law c.dropReports.clearIndex.reportGeneration units
      (d.after 3) cleared.holding
    obtain ⟨s, notices, he⟩ := hg.heard
    refine tagged_holdReports attached ?_ _
    rw [he]
    exact cleared.reports
  | taken unit => exact tagged_processReport tags d unit

theorem tagged_opening (law : Lawful σ sound) (h : Tended sound others c.pending held c)
    (tags : Tagged c) {w : World} {call : Call} {c₁ : Controller σ}
    (ho : c.opening w call = some c₁) : Tagged c₁ := by
  cases call with
  | start =>
    simp only [opening] at ho
    have attached := tagged_attach law h.holding.sound tags (w 0 0) c.location .location
    obtain ⟨id, c₂, he, hg⟩ | ⟨failure, c₂, he, -⟩ :=
      granted_attach law h.holding (w 0 0) c.location .location
    · rw [he] at ho attached
      cases ho
      obtain ⟨s, notices, rfl⟩ := hg.heard
      have before := hg.holding
      rw [own, List.append_assoc] at before
      change Tagged ((c.heard s notices).setLocationWatch _)
      rw [setLocationWatch, disposeAll_eq]
      refine tags_disposeAll law attached before h.alive_location (ids_locationPart c)
        (Nat.le_refl _) (Nat.le_refl _) fun w hw => .inl ?_
      obtain ⟨handle, -, rfl⟩ := List.mem_map.1 hw
      rfl
    · rw [he] at ho
      cases ho
  | handle route =>
    cases ho
    exact tags
  | handleEvent event =>
    cases ho
    have received : Tagged (c.receive (w 0 0) event) ∧ sound (c.receive (w 0 0) event).service := by
      cases event with
      | ok event =>
        exact ⟨tags.quiet rfl (by simp [Notice.isOfWatch]) rfl rfl
          (law.live_route (w 0 0) event h.holding.sound), law.sound_route _ _ h.holding.sound⟩
      | error text => exact ⟨tags.warn _, h.holding.sound⟩
    have live := law.live_takeOverflow received.2
    rw [catchUp_eq]
    split
    · exact received.1.quiet rfl (by simp [Notice.isOfWatch]) rfl rfl live
    · exact received.1.quiet rfl (by simp) rfl rfl live
  | documentsShown paths => cases ho
  | refresh => cases ho

theorem tagged_unopened (law : Lawful σ sound) (hs : sound c.service) (tags : Tagged c) {w : World}
    {call : Call} (ho : c.opening w call = none) : Tagged (c.call w call).1 := by
  cases call with
  | start =>
    rw [call_start_of_unopened ho]
    exact tagged_attach law hs tags (w 0 0) c.location .location
  | handle route => cases ho
  | handleEvent event => cases ho
  | documentsShown paths => exact tags.note (isOfWatch_announcement _ _ _)
  | refresh => exact tags.publish _ _

/-- The watches are accounted for, and the generations tell the live ones from the released. -/
structure Orderly (sound : σ → Prop) (others : List LiveWatch) (c : Controller σ) : Prop where
  tended : ∃ held, Tended sound others c.pending held c
  tagged : Tagged c

theorem orderly_serve (law : Lawful σ sound) (h : Orderly sound others c) {d : Disk}
    {route : Route} {rest : List Route} (hp : c.pending = route :: rest) :
    Orderly sound others (c.serve d route rest).1 := by
  obtain ⟨held, tended⟩ := h.tended
  refine ⟨tended_serve law tended hp d, ?_⟩
  obtain ⟨handled, outcome, -, warnings, he⟩ := serve_outcome d route rest c
  have tagged := tagged_outcome law (tended.dispatched hp)
    (Tagged.note h.tagged (by simp [Notice.isOfWatch])) outcome
  rw [he]
  exact Tagged.warn (c := withPending _ _) tagged warnings

theorem orderly_drain (law : Lawful σ sound) (h : Orderly sound others c) (w : World) (n : Nat)
    (first : Option Failure) : Orderly sound others (c.drain w n first).1 := by
  obtain ⟨held, tended⟩ := h.tended
  obtain ⟨held', tended', hp⟩ := tended_drain law tended w n first
  rw [← hp] at tended'
  refine ⟨⟨held', tended'⟩, ?_⟩
  obtain ⟨m, c', -, h', he⟩ := drain_rule (w := w) (P := fun _ _ c => Orderly sound others c)
    (fun hp h => orderly_serve law h hp) n first h
  rw [he, flush]
  split
  · exact Tagged.publish (c := { c' with renderAll := false }) h'.tagged _ _
  · exact h'.tagged

theorem orderly_opening (law : Lawful σ sound) (h : Orderly sound others c) {w : World}
    {call : Call} (honest : Honest sound others c (.call w call)) {c₁ : Controller σ}
    (ho : c.opening w call = some c₁) : Orderly sound others c₁ := by
  obtain ⟨held, tended⟩ := h.tended
  exact ⟨⟨held, tended_opening law tended honest ho⟩, tagged_opening law tended h.tagged ho⟩

theorem orderly_turn (law : Lawful σ sound) (h : Orderly sound others c) {t : Turn σ}
    (honest : Honest sound others c t) : Orderly sound others (c.turn t) := by
  obtain ⟨held, tended⟩ := h.tended
  cases t with
  | change s =>
    have kept : Kept sound others c.pending held (c.turn (.change s)) :=
      { tended.toKept with holding := tended.holding.move honest.1 honest.2 }
    exact ⟨⟨held, kept, tended.watched⟩, h.tagged.quiet (List.append_nil _).symm (by simp) rfl rfl
      honest.2⟩
  | visible documents =>
    have kept : Kept sound others c.pending held (c.turn (.visible documents)) :=
      { tended.toKept with }
    exact ⟨⟨held, kept, tended.watched⟩, h.tagged.quiet (List.append_nil _).symm (by simp) rfl rfl
      (.refl _)⟩
  | call w call =>
    simp only [turn]
    cases ho : c.opening w call with
    | some c₁ =>
      rw [call_eq_drain ho]
      exact orderly_drain law (orderly_opening law h honest ho) w 1 none
    | none =>
      obtain ⟨tended', hp⟩ := tended_unopened law tended ho
      rw [← hp] at tended'
      exact ⟨⟨held, tended'⟩, tagged_unopened law tended.holding.sound h.tagged ho⟩

theorem orderly_new {service : σ} (hs : sound service) (root : Path) (config : Config)
    (documents : List Document) :
    Orderly sound (WatchService.live service) (new root config service documents) :=
  ⟨⟨[], tended_new hs root config documents⟩, by simp [new],
    fun h => by simpa [new] using h.released⟩

theorem orderly_reached (law : Lawful σ sound) {service : σ} (hs : sound service) {root : Path}
    {config : Config} {documents : List Document}
    (run : Reached (Honest sound (WatchService.live service))
      (new root config service documents) c) :
    Orderly sound (WatchService.live service) c :=
  run.induct (orderly_new hs root config documents) fun h honest => orderly_turn law h honest

theorem orderly_moment (law : Lawful σ sound) {service : σ} (hs : sound service) {root : Path}
    {config : Config} {documents : List Document}
    (moment : Moment (Honest sound (WatchService.live service))
      (new root config service documents) c) :
    Orderly sound (WatchService.live service) c := by
  cases moment with
  | idle run => exact orderly_reached law hs run
  | inside run honest ho serves =>
    exact serves.keeps (orderly_opening law (orderly_reached law hs run) honest ho)
      fun hp h => orderly_serve law h hp

end

/-! ### Live and released watches -/

omit [WatchService σ] in
theorem current_own {held : List (Handle × ReportUnit)} {c : Controller σ} {w : LiveWatch}
    (h : w ∈ c.own held) : Current c w.route := by
  rw [own, List.mem_append, List.mem_append] at h
  rcases h with h | h | h
  · obtain ⟨handle, -, rfl⟩ := List.mem_map.1 h
    trivial
  · rw [route_of_mem_targetPart h]
    exact rfl
  · obtain ⟨x, -, rfl⟩ := List.mem_map.1 h
    exact rfl

/-- Hands in the same route again and again, each time in a world of its own. -/
def handleEach (route : Route) : List World → Controller σ → Controller σ × List (Option Failure)
  | [], c => (c, [])
  | w :: rest, c =>
    let first := c.handle w route
    let others := handleEach route rest first.1
    (others.1, first.2 :: others.2)

/-- A route of an old generation that is handed in between calls is written down, and that is all.
-/
theorem handle_ignored {c : Controller σ} (idle : Idle c) {route : Route} (h : Ignored c route)
    (w : World) : c.handle w route = (c.note [.dispatched route], none) := by
  have hp : (c.enqueue [route]).pending = [route] := by simp [enqueue, idle.pending]
  have hd : (c.enqueue [route]).serve (w 1) route [] = (c.note [.dispatched route], none) := by
    have ignored : Ignored ((c.enqueue [route]).withPending []) route := h
    rw [serve, dispatch_ignored ignored]
    simp [note, withPending, enqueue, idle.pending]
  have nothing : (c.note [.dispatched route]).renderAll = false := idle.renderAll
  rw [handle, drain_cons hp, hd, drain_nil (c := c.note [.dispatched route]) idle.pending, flush,
    nothing]
  rfl

theorem handleEach_before {c : Controller σ} (idle : Idle c) {route : Route}
    (h : Before c.targetGeneration c.reportGeneration route) (ws : List World) :
    c.handleEach route ws = (c.note (List.replicate ws.length (.dispatched route)),
      List.replicate ws.length none) := by
  induction ws generalizing c with
  | nil => simp [handleEach, note]
  | cons w rest ih =>
    have idle' : Idle (c.note [.dispatched route]) := ⟨idle.pending, idle.renderAll⟩
    rw [handleEach, handle_ignored idle h.ignored, ih idle' h]
    simp [note, List.replicate_succ]

/-- Generations separate live watches from released ones. At every moment of a run of honest
turns, between calls and inside them, the route of each watch that the controller holds is of the
current generation of its tier, so it is not passed over; a route below the location whose watch was
granted and released since is passed over. Handed in between calls, at any later time and any number
of times, such a route does not fail and changes nothing but that it is written down. -/
theorem generations_tell_watches_apart (law : Lawful σ sound) {service : σ} (hs : sound service)
    (root : Path) (config : Config) (documents : List Document) :
    (∀ c, Moment (Honest sound (WatchService.live service))
        (new root config service documents) c →
      (∃ held : List (Handle × ReportUnit), c.reportWatches.items = held.map (·.1) ∧
        (WatchService.live c.service).Perm (WatchService.live service ++ c.own held) ∧
        ∀ w ∈ c.own held, Current c w.route ∧
          ∀ d, c.dispatch d w.route = (c.note [.dispatched w.route]).perform d w.route) ∧
      ∀ id route, TornDown id route c.journal → route ≠ .location →
        ∀ d, c.dispatch d route = ⟨c.note [.dispatched route], [], none⟩) ∧
    ∀ c, Reached (Honest sound (WatchService.live service))
        (new root config service documents) c →
      ∀ id route, TornDown id route c.journal → route ≠ .location → ∀ ws,
        c.handleEach route ws = (c.note (List.replicate ws.length (.dispatched route)),
          List.replicate ws.length none) := by
  refine ⟨fun c moment => ⟨?_, ?_⟩, fun c run id route gone hl ws => ?_⟩
  · obtain ⟨held, tended⟩ := (orderly_moment law hs moment).tended
    refine ⟨held, tended.reports, tended.holding.live, fun w hw => ?_⟩
    exact ⟨current_own hw, dispatch_current (current_own hw)⟩
  · intro id route gone hl d
    exact dispatch_ignored ((orderly_moment law hs moment).tagged.released gone hl).ignored d
  · exact handleEach_before run.idle ((orderly_reached law hs run).tagged.released gone hl) ws

/-- Two reports are watched; then everything is removed, and an event tells of it. -/
def pairRemoval : List (World × Call) :=
  [(.still pair, .start),
    (.still Snapshot.bare, .handleEvent (.ok ⟨.removeFile, [⟨"/w/m"⟩]⟩))]

def pairRemoved : Controller Roster :=
  ((pairNew []).turn (.call (.still pair) .start)).turn
    (.call (.still Snapshot.bare) (.handleEvent (.ok ⟨.removeFile, [⟨"/w/m"⟩]⟩)))

theorem journal_pairRemoval : ∃ c ∈ callsIn 9 pairRemoval (pairNew []),
    c.journal = c.journal.take 5 ++
      .attached 3 ⟨"/w/a.su"⟩ (.report 1 (pairUnit "a")) :: c.journal.drop 6 ∧
    .released 3 ∈ c.journal.drop 6 := by
  decide +kernel

/-- The watch on a report is gone with the manifest, and its route is passed over. -/
theorem generations_tell_watches_apart_removal :
    Roster.Sound .empty ∧
    (∃ held, pairRemoved.reportWatches.items = held.map (·.1) ∧
      (WatchService.live pairRemoved.service).Perm (pairRemoved.own held) ∧
      ∀ w ∈ pairRemoved.own held, Current pairRemoved w.route) ∧
    TornDown 3 (.report 1 (pairUnit "a")) pairRemoved.journal ∧
    pairRemoved.handleEach (.report 1 (pairUnit "a")) [.still pair, .still Snapshot.bare] =
      (pairRemoved.note [.dispatched (.report 1 (pairUnit "a")),
        .dispatched (.report 1 (pairUnit "a"))], [none, none]) := by
  obtain ⟨moments, calls⟩ := generations_tell_watches_apart Roster.lawful Roster.sound_empty
    ⟨"/w"⟩ pairConfig []
  have run : Reached (Honest Roster.Sound []) (pairNew []) pairRemoved := by
    refine .turn (.turn .first trivial) ?_
    rintro route - ⟨v, hv, -⟩
    cases hv
  have gone : TornDown 3 (.report 1 (pairUnit "a")) pairRemoved.journal := by
    have journal := calls_of_callsIn 9 pairRemoval (pairNew []) journal_pairRemoval
    simp only [pairRemoval, List.foldl_cons, List.foldl_nil] at journal
    exact ⟨_, _, _, journal⟩
  obtain ⟨⟨held, items, live, current⟩, -⟩ := moments pairRemoved (.idle run)
  exact ⟨Roster.sound_empty, ⟨held, items, live, fun w hw => (current w hw).1⟩, gone,
    calls pairRemoved run 3 _ gone (by simp) _⟩

end Controller

end StackUsage
