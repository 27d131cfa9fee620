import StackUsage.Proofs.Controller.Run
import StackUsage.Watch.Roster

/-! The states inside a call. A call that works through a queue opens in one state, and from there
serves one route after another until the queue is empty. The moments of a run are its states
between calls and all the states that lie inside its calls. -/

namespace StackUsage.Controller

variable {σ : Type} [WatchService σ]

/-- Puts routes into the queue and works through it. -/
def process (w : World) (routes : List Route) (c : Controller σ) : Controller σ × Option Failure :=
  (c.enqueue routes).drain w 1 none

/-- An event comes to a list of routes: those that the service yields, and the location's if events
were lost. -/
theorem handleEvent_eq_process (w : World) (event : FileEvent) (c : Controller σ) :
    let routing := WatchService.route (w 0 0) event c.service
    let lost := (WatchService.takeOverflow routing.service).1
    ∃ s notices, c.handleEvent w (.ok event) =
      (c.heard s notices).process w (routing.routes ++ if lost then [.location] else []) := by
  intro routing lost
  have received : c.receive (w 0 0) (.ok event) =
      (c.heard routing.service (routing.warnings.map .warned)).withPending
        (c.pending ++ routing.routes) := rfl
  rw [handleEvent, catchUp_eq, received]
  by_cases h : lost = true
  · refine ⟨(WatchService.takeOverflow routing.service).2,
      routing.warnings.map .warned ++ [.warned .overflow],
      (congrArg (drain w 1 none) (if_pos h)).trans ?_⟩
    rw [if_pos h, process, enqueue]
    simp only [heard, withPending, List.append_assoc]
  · refine ⟨(WatchService.takeOverflow routing.service).2, routing.warnings.map .warned,
      (congrArg (drain w 1 none) (if_neg h)).trans ?_⟩
    rw [if_neg h, process, enqueue]
    simp only [heard, withPending, List.append_nil]

/-! ### Openings -/

/-- The state in which a call begins to work through its queue. A start that is refused its watch
does not begin, and rendering asks for no queue. -/
def opening (w : World) (call : Call) (c : Controller σ) : Option (Controller σ) :=
  match call with
  | .start =>
    match c.attach (w 0 0) c.location .location with
    | (_, .error _) => none
    | (c, .ok handle) =>
      some ((c.setLocationWatch (c.locationWatch.set handle)).enqueue [.location])
  | .handle route => some (c.enqueue [route])
  | .handleEvent event => some (c.receive (w 0 0) event).catchUp
  | .documentsShown _ => none
  | .refresh => none

theorem call_eq_drain {w : World} {call : Call} {c c₁ : Controller σ}
    (h : c.opening w call = some c₁) : c.call w call = c₁.drain w 1 none := by
  cases call with
  | start =>
    simp only [opening] at h
    simp only [Controller.call, start]
    obtain ⟨id, -, he⟩ | ⟨refusal, -, he⟩ := attach_cases (w 0 0) c.location .location c
    · rw [he] at h ⊢
      cases h
      rfl
    · simp [he] at h
  | handle route =>
    cases h
    rfl
  | handleEvent event =>
    cases h
    rfl
  | documentsShown paths => cases h
  | refresh => cases h

/-- A start that does not begin has only asked for its watch. -/
theorem call_start_of_unopened {w : World} {c : Controller σ} (h : c.opening w .start = none) :
    (c.call w .start).1 = (c.attach (w 0 0) c.location .location).1 := by
  simp only [opening] at h
  simp only [Controller.call, start]
  obtain ⟨id, -, he⟩ | ⟨refusal, -, he⟩ := attach_cases (w 0 0) c.location .location c
  · simp [he] at h
  · rw [he]

/-! ### Bounded evaluation -/

/-- Works through the queue if so many services are enough. Unlike the unbounded loop it evaluates
by reduction. -/
def drainIn (w : World) :
    Nat → Nat → Option Failure → Controller σ → Option (Controller σ × Option Failure)
  | 0, _, _, _ => none
  | bound + 1, n, first, c =>
    match c.pending with
    | [] => some (c.flush (w n), first)
    | route :: rest =>
      let served := c.serve (w n) route rest
      drainIn w bound (n + 1) (first.or served.2) served.1

theorem drain_eq_of_drainIn {w : World} {bound n : Nat} {first : Option Failure}
    {c : Controller σ} {result : Controller σ × Option Failure}
    (h : drainIn w bound n first c = some result) : c.drain w n first = result := by
  induction bound generalizing n first c with
  | zero => cases h
  | succ bound ih =>
    rw [drainIn] at h
    split at h
    · next hp =>
      rw [drain_nil hp]
      exact Option.some.inj h
    · next hp =>
      rw [drain_cons hp]
      exact ih h

def callIn (bound : Nat) (w : World) (call : Call) (c : Controller σ) :
    Option (Controller σ × Option Failure) :=
  match c.opening w call with
  | none => some (c.call w call)
  | some c₁ => drainIn w bound 1 none c₁

theorem call_eq_of_callIn {bound : Nat} {w : World} {call : Call} {c : Controller σ}
    {result : Controller σ × Option Failure} (h : c.callIn bound w call = some result) :
    c.call w call = result := by
  unfold callIn at h
  split at h
  · exact Option.some.inj h
  · next ho => exact (call_eq_drain ho).trans (drain_eq_of_drainIn h)

/-- The state after calls, one after another, if so many services are enough for each. -/
def callsIn (bound : Nat) : List (World × Call) → Controller σ → Option (Controller σ)
  | [], c => some c
  | (w, call) :: rest, c =>
    (c.callIn bound w call).bind fun result => callsIn bound rest result.1

/-- What evaluation shows of the state after calls holds of it. -/
theorem calls_of_callsIn {P : Controller σ → Prop} (bound : Nat) (calls : List (World × Call))
    (c : Controller σ) (h : ∃ c' ∈ callsIn bound calls c, P c') :
    P (calls.foldl (fun c x => c.turn (.call x.1 x.2)) c) := by
  induction calls generalizing c with
  | nil =>
    obtain ⟨c', he, hp⟩ := h
    cases he
    exact hp
  | cons x rest ih =>
    obtain ⟨c', he, hp⟩ := h
    obtain ⟨result, hr, hc⟩ := Option.bind_eq_some_iff.1 he
    rw [List.foldl_cons, turn, call_eq_of_callIn hr]
    exact ih result.1 ⟨c', hc, hp⟩

/-- A workspace that is quick to evaluate: two sources with a report each. -/
def pair : Tree where
  workdir := [['w']]
  nodes :=
    [([['w']], .directory),
      ([['w'], ['m']], .file (some
        ("[\x7b\"directory\":\"\",\"command\":\"c -o a.o \",\"file\":\"a.c\"\x7d," ++
          "\x7b\"directory\":\"\",\"command\":\"c -o b.o \",\"file\":\"b.c\"\x7d]"))),
      ([['w'], "a.su".toList], .file (some "a.c:1:5:f\t16\tstatic")),
      ([['w'], "b.su".toList], .file (some "b.c:2:5:g\t8\tstatic"))]

/-- The settings of `pair`, whose manifest is called `m`. -/
def pairConfig : Config := { Config.default with manifestName := "m" }

def pairUnit (name : String) : ReportUnit where
  sourceKey := name ++ ".c"
  reportPath := ⟨"/w/" ++ name ++ ".su"⟩
  directory := ⟨"/w/"⟩
  sourcePath := ⟨"/w/" ++ name ++ ".c"⟩

/-- A controller of `pair` that has not started. -/
def pairNew (documents : List Document) : Controller Roster :=
  new ⟨"/w"⟩ pairConfig .empty documents

/-- The first source of `pair`, as the host shows it. -/
def pairDocument : Document := ⟨⟨"/w/a.c"⟩, ["int f;"]⟩

def pairStarted : Controller Roster :=
  (pairNew [pairDocument]).turn (.call (.still pair) .start)

/-! ### Between calls -/

/-- Nothing waits to be handled or rendered. -/
structure Idle (c : Controller σ) : Prop where
  pending : c.pending = []
  renderAll : c.renderAll = false

theorem idle_drain (w : World) (n : Nat) (first : Option Failure) (c : Controller σ) :
    Idle (c.drain w n first).1 := by
  obtain ⟨m, c', hp, -, he⟩ := drain_rule (w := w) (P := fun _ _ _ => True) (fun _ _ => trivial)
    n first (c := c) trivial
  rw [he, flush]
  split
  · exact ⟨hp, rfl⟩
  · next hr => exact ⟨hp, by simpa using hr⟩

theorem idle_call {c : Controller σ} (h : Idle c) (w : World) (call : Call) :
    Idle (c.call w call).1 := by
  cases ho : c.opening w call with
  | some c₁ =>
    rw [call_eq_drain ho]
    exact idle_drain w 1 none c₁
  | none =>
    cases call with
    | start =>
      obtain ⟨s, notices, he⟩ := attach_heard (w 0 0) c.location .location c
      rw [call_start_of_unopened ho, he]
      exact ⟨h.pending, h.renderAll⟩
    | handle route => cases ho
    | handleEvent event => cases ho
    | documentsShown paths => exact ⟨h.pending, h.renderAll⟩
    | refresh => exact ⟨h.pending, h.renderAll⟩

theorem Reached.idle {allowed : Controller σ → Turn σ → Prop} {root : Path} {config : Config}
    {service : σ} {documents : List Document} {c : Controller σ}
    (run : Reached allowed (new root config service documents) c) : Idle c := by
  refine run.induct ⟨rfl, rfl⟩ fun {c t} h _ => ?_
  cases t with
  | call w call => exact idle_call h w call
  | change service => exact ⟨h.pending, h.renderAll⟩
  | visible documents => exact ⟨h.pending, h.renderAll⟩

/-! ### Serving -/

/-- Serving the queue leads from the state before the `n`-th handler to the one before the
`m`-th. -/
inductive Serves (w : World) (n : Nat) (c : Controller σ) : Nat → Controller σ → Prop
  | refl : Serves w n c n c
  | serve {m : Nat} {c' : Controller σ} {route : Route} {rest : List Route} :
    Serves w n c m c' → c'.pending = route :: rest →
      Serves w n c (m + 1) (c'.serve (w m) route rest).1

/-- What every service of a route keeps holds in all the states that serving leads to. -/
theorem Serves.keeps {w : World} {n m : Nat} {c c' : Controller σ} {P : Controller σ → Prop}
    (h : Serves w n c m c') (first : P c)
    (step : ∀ {c : Controller σ} {d : Disk} {route : Route} {rest : List Route},
      c.pending = route :: rest → P c → P (c.serve d route rest).1) : P c' := by
  induction h with
  | refl => exact first
  | serve _ hp ih => exact step hp ih

/-- Working through the queue passes through every state that serving leads to. -/
theorem Serves.drain {w : World} {n m : Nat} {c c' : Controller σ} (h : Serves w n c m c')
    (first : Option Failure) : ∃ first', c.drain w n first = c'.drain w m first' := by
  induction h with
  | refl => exact ⟨first, rfl⟩
  | serve _ hp ih =>
    obtain ⟨first', ih⟩ := ih
    exact ⟨_, ih.trans (drain_cons hp)⟩

/-! ### Moments -/

/-- The states of a run between calls and inside them. -/
inductive Moment (allowed : Controller σ → Turn σ → Prop) (first : Controller σ) :
    Controller σ → Prop
  | idle {c : Controller σ} : Reached allowed first c → Moment allowed first c
  | inside {c c₁ c₂ : Controller σ} {w : World} {call : Call} {n : Nat} :
    Reached allowed first c → allowed c (.call w call) → c.opening w call = some c₁ →
      Serves w 1 c₁ n c₂ → Moment allowed first c₂

end StackUsage.Controller
