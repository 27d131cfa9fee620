import StackUsage.Controller

/-! How a controller works through routes. Every attached watch is followed by one run of its own
route, put at the end of the queue; since handling a route attaches only deeper ones, the queue
runs dry. A failing handler stops nothing: the first failure is the result of the pass. At the end
of a pass everything is rendered once if the index was cleared on the way.

A tree may change while a pass runs: read `k` of the `n`-th handler finds the tree `w n k`. -/

namespace StackUsage

/-- What the reads of one call find. -/
abbrev World := Nat → Disk

/-- A tree that stays as it is during the call. -/
def World.still (t : Tree) : World := fun _ => .still t

/-- The state after handling one route, what was attached on the way, and the failure. -/
structure Handled (σ : Type) where
  controller : Controller σ
  attached : List Route
  failure : Option Failure

namespace Controller

variable {σ : Type} [WatchService σ]

/-! ### The tier of the real manifest -/

/-- Gives up the watch on the real manifest; routes of that watch are old from now on. -/
def dropTarget (c : Controller σ) : Controller σ :=
  { c.setTargetWatch c.targetWatch.dispose with targetGeneration := c.targetGeneration + 1 }

/-- Gives up the watches on the reports; routes of these watches are old from now on. -/
def dropReports (c : Controller σ) : Controller σ :=
  { c.setReportWatches c.reportWatches.dispose with reportGeneration := c.reportGeneration + 1 }

/-- Tears down the two lower tiers and forgets all that they brought. -/
def resetTiers (c : Controller σ) : Controller σ :=
  { c.dropTarget.dropReports with target := none }.clearIndex

def holdTarget (target : Path) (handle : Handle) (c : Controller σ) : Controller σ :=
  { c.setTargetWatch (c.targetWatch.set handle) with target := some target }

/-- Watches the real manifest under the current generation. -/
def watchTarget (t : Tree) (target : Path) (c : Controller σ) : Handled σ :=
  match c.attach t target (.target c.targetGeneration) with
  | (next, .ok handle) => ⟨next.holdTarget target handle, [.target c.targetGeneration], none⟩
  | (next, .error failure) => ⟨next.resetTiers, [], some failure⟩

/-- Follows the manifest's location to the real manifest and watches that one. -/
def updateTarget (d : Disk) (c : Controller σ) : Handled σ :=
  match Resolution.resolve (d 0) c.location with
  | .error failure => ⟨c, [], some failure⟩
  | .ok manifest =>
    match manifest.path? with
    | none => ⟨c.resetTiers, [], none⟩
    | some target => c.dropTarget.watchTarget (d 1) target

/-! ### The tier of the reports -/

/-- Watches the reports one after another. A refused one is passed over with a warning. -/
def attachReports (d : Disk) (generation : Nat) (c : Controller σ) :
    List ReportUnit → Controller σ × List (Handle × ReportUnit)
  | [] => (c, [])
  | unit :: rest =>
    match c.attach (d 0) unit.reportPath (.report generation unit) with
    | (next, .ok handle) =>
      let attached := attachReports (d.after 1) generation next rest
      (attached.1, (handle, unit) :: attached.2)
    | (next, .error failure) =>
      attachReports (d.after 1) generation (next.warn [.unwatched unit.reportPath failure]) rest

def holdReports (handles : List Handle) (c : Controller σ) : Controller σ :=
  c.setReportWatches (c.reportWatches.set handles)

/-- Watches the reports of the units under the current generation. -/
def watchReports (d : Disk) (units : List ReportUnit) (c : Controller σ) : Handled σ :=
  let attached := attachReports d c.reportGeneration c units
  ⟨attached.1.holdReports (attached.2.map (·.1)),
    attached.2.map fun held => .report c.reportGeneration held.2, none⟩

/-- Reads the manifest and watches the reports that it names. A manifest that cannot be read is a
warning and names none. -/
def followManifest (d : Disk) (c : Controller σ) : Handled σ :=
  match Resolution.resolve (d 0) c.location with
  | .error failure => ⟨c, [], some failure⟩
  | .ok manifest =>
    match Snapshot.unitsOf d c.config manifest with
    | .error failure => ⟨c.warn [.manifest failure], [], none⟩
    | .ok units => c.watchReports (d.after 3) units

/-- Starts the reports over: what they brought is forgotten, and the manifest is read anew. -/
def rebuildReports (d : Disk) (c : Controller σ) : Handled σ :=
  c.dropReports.clearIndex.followManifest d

/-- Puts the records of a report into the index. -/
def applyReport (unit : ReportUnit) (report : Report) (c : Controller σ) : Controller σ :=
  ({ c with index := c.index.apply unit.sourceKey report.usages }.warn report.warnings).note
    [.indexed unit.sourceKey]

/-- Puts a report into the index and renders what that changes, unless everything will be rendered
anyway. -/
def processReport (d : Disk) (unit : ReportUnit) (c : Controller σ) : Controller σ :=
  let report := unit.read d c.config
  if c.renderAll then c.applyReport unit report
  else
    (c.applyReport unit report).publish (d.after (2 + report.usages.length))
      (.paths (c.index.affected unit.sourceKey report.usages))

/-! ### Handling one route -/

/-- Handles one route; one of an old generation is ignored. -/
def dispatch (d : Disk) (route : Route) (c : Controller σ) : Handled σ :=
  match route with
  | .location => (c.note [.dispatched route]).updateTarget d
  | .target generation =>
    if generation = c.targetGeneration then (c.note [.dispatched route]).rebuildReports d
    else ⟨c.note [.dispatched route], [], none⟩
  | .report generation unit =>
    if generation = c.reportGeneration then
      ⟨(c.note [.dispatched route]).processReport d unit, [], none⟩
    else ⟨c.note [.dispatched route], [], none⟩

theorem depth_of_mem_updateTarget {d : Disk} {c : Controller σ} {q : Route}
    (h : q ∈ (c.updateTarget d).attached) : q.depth = 1 := by
  unfold updateTarget watchTarget at h
  split at h
  · cases h
  · split at h
    · cases h
    · split at h
      · rw [List.mem_singleton.1 h]
        rfl
      · cases h

theorem depth_of_mem_rebuildReports {d : Disk} {c : Controller σ} {q : Route}
    (h : q ∈ (c.rebuildReports d).attached) : q.depth = 2 := by
  unfold rebuildReports followManifest at h
  split at h
  · cases h
  · split at h
    · cases h
    · obtain ⟨_, _, rfl⟩ := List.mem_map.1 h
      rfl

/-- Handling a route attaches only deeper ones. -/
theorem depth_lt_of_mem_attached {d : Disk} {route q : Route} {c : Controller σ}
    (h : q ∈ (c.dispatch d route).attached) : route.depth < q.depth := by
  unfold dispatch at h
  split at h
  · rw [depth_of_mem_updateTarget h]
    exact Nat.one_pos
  · split at h
    · rw [depth_of_mem_rebuildReports h]
      exact Nat.one_lt_two
    · cases h
  · split at h <;> cases h

/-! ### Working through the queue -/

/-- How many routes of a queue are at a depth. -/
def countAt (depth : Nat) (queue : List Route) : Nat := queue.countP fun q => q.depth = depth

/-- The routes of a queue at each depth; it falls, the upper depths first, with every route that
is handled. -/
def workLeft (queue : List Route) : Nat × Nat × Nat :=
  (countAt 0 queue, countAt 1 queue, countAt 2 queue)

theorem countAt_append (depth : Nat) (p q : List Route) :
    countAt depth (p ++ q) = countAt depth p + countAt depth q := List.countP_append

theorem countAt_eq_zero {depth : Nat} {queue : List Route} (h : ∀ q ∈ queue, depth < q.depth) :
    countAt depth queue = 0 := by
  rw [countAt, List.countP_eq_zero]
  intro q hq
  have := h q hq
  simp
  omega

theorem countAt_cons (depth : Nat) (route : Route) (rest : List Route) :
    countAt depth (route :: rest) =
      (if route.depth = depth then 1 else 0) + countAt depth rest := by
  simp [countAt, List.countP_cons, Nat.add_comm]

theorem workLeft_lt {route : Route} {rest attached : List Route}
    (deeper : ∀ q ∈ attached, route.depth < q.depth) :
    Prod.Lex (· < ·) (Prod.Lex (· < ·) (· < ·)) (workLeft (rest ++ attached))
      (workLeft (route :: rest)) := by
  have zero : ∀ depth ≤ route.depth, countAt depth attached = 0 := fun depth h =>
    countAt_eq_zero fun q hq => Nat.lt_of_le_of_lt h (deeper q hq)
  simp only [workLeft, countAt_append, countAt_cons, Prod.lex_def]
  cases route with
  | location =>
    have := zero 0 (by simp)
    simp [Route.depth]
    omega
  | target generation =>
    have := zero 0 (by simp)
    have := zero 1 (by simp [Route.depth])
    simp [Route.depth]
    omega
  | report generation unit =>
    have := zero 0 (by simp)
    have := zero 1 (by simp [Route.depth])
    have := zero 2 (by simp [Route.depth])
    simp [Route.depth]
    omega

/-- Renders everything if that was put off. -/
def flush (d : Disk) (c : Controller σ) : Controller σ :=
  if c.renderAll then { c with renderAll := false }.publish d .all else c

/-- Works until the queue is empty. The failure is the first one, an earlier one given included. -/
def drain (w : World) (n : Nat) (first : Option Failure) (c : Controller σ) :
    Controller σ × Option Failure :=
  match hq : c.pending with
  | [] => (c.flush (w n), first)
  | route :: rest =>
    let handled := { c with pending := rest }.dispatch (w n) route
    let next := { handled.controller with pending := rest ++ handled.attached }
    match handled.failure with
    | none => drain w (n + 1) first next
    | some failure =>
      drain w (n + 1) (some (first.getD failure)) (next.warn [.handlerFailed c.root failure])
termination_by workLeft c.pending
decreasing_by
  all_goals
    rw [hq]
    exact workLeft_lt fun q hq => depth_lt_of_mem_attached hq

/-! ### What a host and a watch service ask for -/

def enqueue (routes : List Route) (c : Controller σ) : Controller σ :=
  { c with pending := c.pending ++ routes }

/-- Watches the manifest's location and works down to the reports. -/
def start (w : World) (c : Controller σ) : Controller σ × Option Failure :=
  match c.attach (w 0 0) c.location .location with
  | (c, .error failure) => (c, some failure)
  | (c, .ok handle) =>
    let c := c.setLocationWatch (c.locationWatch.set handle)
    (c.enqueue [.location]).drain w 1 none

/-- Handles one route and everything that it attaches. -/
def handle (w : World) (route : Route) (c : Controller σ) : Controller σ × Option Failure :=
  (c.enqueue [route]).drain w 1 none

/-- Takes in an event through the watch service. One that could not be delivered is a warning. -/
def receive (t : Tree) (event : Except String FileEvent) (c : Controller σ) : Controller σ :=
  match event with
  | .ok event =>
    let routing := WatchService.route t event c.service
    ({ c with service := routing.service }.warn routing.warnings).enqueue routing.routes
  | .error text => c.warn [.eventFailed text]

/-- Lost events are made good by starting over from the location. -/
def catchUp (c : Controller σ) : Controller σ :=
  match WatchService.takeOverflow c.service with
  | (true, service) => ({ c with service }.warn [.overflow]).enqueue [.location]
  | (false, service) => { c with service }

/-- Hands an event to the watch service and handles the routes it yields. -/
def handleEvent (w : World) (event : Except String FileEvent) (c : Controller σ) :
    Controller σ × Option Failure :=
  (c.receive (w 0 0) event).catchUp.drain w 1 none

/-- Those visible documents that have one of the paths. -/
def documentsAt (paths : List Path) (c : Controller σ) : List Document :=
  c.documents.filter fun doc => paths.any fun p => p.same doc.path

/-- Renders documents that have just been shown. The result is how many were sent something. -/
def documentsShown (d : Disk) (paths : List Path) (c : Controller σ) : Controller σ × Nat :=
  let sent := c.rendered d .all (c.documentsAt paths)
  (c.announce sent none, sent.length)

/-- Renders every visible document. The result is how many were sent something. -/
def refresh (d : Disk) (c : Controller σ) : Controller σ × Nat :=
  (c.publish d .all, (c.rendered d .all c.documents).length)

/-- Releases every watch. The index stays for inspection. -/
def dispose (c : Controller σ) : Controller σ :=
  let c := c.setReportWatches c.reportWatches.dispose
  let c := c.setTargetWatch c.targetWatch.dispose
  let c := c.setLocationWatch c.locationWatch.dispose
  { c with pending := [] }

end Controller

end StackUsage
