import MetalRuntime.Foundations.Runs
import MetalRuntime.Values

/-!
# GPU captures

`start_capture`, `stop_capture` and `is_capturing` on Metal's shared capture manager, which
other code in the process uses too. The runtime remembers by one flag that a capture is its
own. Other code may stop that capture and start another between any two steps, also while a
call holds `capture_mutex_`. The flag is then stale, and `stop_capture` stops a capture that
is not the runtime's.
-/

namespace MetalRuntime

open Foundations

/-- What the system offers to captures. -/
structure CaptureHost where
  supportsDocuments : Bool
  isUtf8 : ByteString → Bool

/-- How a call of the capture functions ends when it throws. -/
inductive CaptureFailure
  | captureError (what : ByteString)
  | thrown (failure : Failure)
  deriving DecidableEq

/-- What a call returns, with the answer of `is_capturing`, or throws. -/
abbrev CaptureOutcome := Except CaptureFailure (Option Bool)

/-- `MTL::CaptureManager`: captures are numbered as they start, and at most one runs. -/
structure CaptureManager where
  running : Option ℕ
  nextCapture : ℕ
  deriving DecidableEq

namespace CaptureManager

/-- `isCapturing`. -/
def isCapturing (manager : CaptureManager) : Bool := manager.running.isSome

/-- A capture starts. -/
def start (manager : CaptureManager) : CaptureManager :=
  ⟨some manager.nextCapture, manager.nextCapture + 1⟩

/-- `stopCapture`. -/
def stop (manager : CaptureManager) : CaptureManager := { manager with running := none }

end CaptureManager

/-- What the call that holds `capture_mutex_` does next. -/
inductive CapturePhase
  /-- `start_capture` asks the manager whether it is capturing. -/
  | starting (path : ByteString)
  /-- `start_capture` makes the descriptor and calls the manager's `startCapture`. -/
  | describing (path : ByteString)
  /-- `start_capture` sets `capture_started_`. -/
  | started
  /-- `stop_capture` tests `capture_started_`. -/
  | stopping
  /-- `stop_capture` asks the manager whether it is capturing. -/
  | owning
  /-- `stop_capture` calls the manager's `stopCapture`. -/
  | capturing
  /-- `stop_capture` clears `capture_started_`. -/
  | stopped
  /-- `is_capturing` asks the manager. -/
  | asking
  deriving DecidableEq

/-- The manager, the runtime's flag and the thread that holds its mutex. The last two fields
are an observer's: the capture begun by the latest successful `start_capture`, and whether
other code has called `stopCapture` since. -/
structure CaptureSystem where
  manager : CaptureManager
  captureStarted : Bool
  inside : Option (ℕ × CapturePhase)
  latest : Option ℕ
  stoppedOutside : Bool
  deriving DecidableEq

/-- A step of a thread or of other code. A thread that proceeds to the manager's `startCapture`
may be refused, with or without an error. -/
inductive CaptureEvent
  | startCapture (thread : ℕ) (path : ByteString)
  | stopCapture (thread : ℕ)
  | isCapturing (thread : ℕ)
  | proceed (thread : ℕ) (refusal : Option (Option ByteString))
  | otherStarts
  | otherStops
  deriving DecidableEq

namespace CaptureSystem

/-- No capture has been started. -/
def initial : CaptureSystem := ⟨⟨none, 0⟩, false, none, none, false⟩

/-- The call inside goes on. -/
def goOn (s : CaptureSystem) (thread : ℕ) (phase : CapturePhase) :
    Option CaptureOutcome × CaptureSystem :=
  (none, { s with inside := some (thread, phase) })

/-- The call inside unlocks and ends. -/
def finish (s : CaptureSystem) (outcome : CaptureOutcome) :
    Option CaptureOutcome × CaptureSystem :=
  (some outcome, { s with inside := none })

/-- A `CaptureError` leaves the call. -/
def fail (s : CaptureSystem) (what : String) : Option CaptureOutcome × CaptureSystem :=
  s.finish (.error (.captureError (ascii what)))

/-- The part of `start_capture` from the check of the destination to the manager's
`startCapture`, which refuses when a capture is running. -/
def performStart (host : CaptureHost) (s : CaptureSystem) (thread : ℕ) (path : ByteString)
    (refusal : Option (Option ByteString)) : Option (Option CaptureOutcome × CaptureSystem) :=
  if host.supportsDocuments = false then
    some (s.fail "this system does not support GPU trace document captures")
  else
    match toNsString host.isUtf8 path (ascii "capture path"), refusal with
    | .error failure, _ => some (s.finish (.error (.thrown failure)))
    | .ok _, some error => some (s.finish (.error (.captureError (
        ascii "failed to start Metal capture at " ++ path ++ ascii ": " ++ describe error))))
    | .ok _, none =>
      if s.manager.isCapturing then none
      else some (goOn { s with
        manager := s.manager.start
        latest := some s.manager.nextCapture
        stoppedOutside := false } thread .started)

/-- The next step of the call that holds the mutex. -/
def proceed (host : CaptureHost) (s : CaptureSystem) (thread : ℕ)
    (refusal : Option (Option ByteString)) :
    CapturePhase → Option (Option CaptureOutcome × CaptureSystem)
  | .starting path =>
    if s.manager.isCapturing then some (s.fail "a Metal capture is already in progress")
    else some (s.goOn thread (.describing path))
  | .describing path => s.performStart host thread path refusal
  | .started => some (finish { s with captureStarted := true } (.ok none))
  | .stopping =>
    if s.captureStarted then some (s.goOn thread .owning)
    else some (s.fail "no capture started by metal_runtime is active")
  | .owning =>
    if s.manager.isCapturing then some (s.goOn thread .capturing)
    else some (fail { s with captureStarted := false }
      "the Metal capture was stopped outside metal_runtime")
  | .capturing => some (goOn { s with manager := s.manager.stop } thread .stopped)
  | .stopped => some (finish { s with captureStarted := false } (.ok none))
  | .asking => some (s.finish (.ok (some s.manager.isCapturing)))

/-- A thread locks `capture_mutex_` when it is free. -/
def enter (s : CaptureSystem) (thread : ℕ) (phase : CapturePhase) :
    Option (Option CaptureOutcome × CaptureSystem) :=
  if s.inside = none then some (s.goOn thread phase) else none

/-- The next state after an event, with the outcome of the call that ends there, if the event
can happen. -/
def perform (host : CaptureHost) (s : CaptureSystem) :
    CaptureEvent → Option (Option CaptureOutcome × CaptureSystem)
  | .startCapture thread path =>
    if path = [] then some (some (.error (.thrown (.invalidArgument
      (ascii "start_capture: output path must not be empty")))), s)
    else s.enter thread (.starting path)
  | .stopCapture thread => s.enter thread .stopping
  | .isCapturing thread => s.enter thread .asking
  | .proceed thread refusal =>
    match s.inside with
    | some (holder, phase) =>
      if holder = thread then s.proceed host thread refusal phase else none
    | none => none
  | .otherStarts =>
    some (none, if s.manager.isCapturing then s else { s with manager := s.manager.start })
  | .otherStops => some (none, { s with manager := s.manager.stop, stoppedOutside := true })

end CaptureSystem

/-- One step of a run: the state before it, the event, the outcome of the call that ends there,
and the state after it. -/
structure CaptureStep where
  before : CaptureSystem
  event : CaptureEvent
  outcome : Option CaptureOutcome
  after : CaptureSystem
  deriving DecidableEq

/-- The system with its steps as what it shows. -/
def CaptureSystem.step (host : CaptureHost) (s : CaptureSystem) (event : CaptureEvent) :
    Option (CaptureStep × CaptureSystem) :=
  (s.perform host event).map fun result => (⟨s, event, result.1, result.2⟩, result.2)

/-- What the call that proceeds in the step does there. -/
def CaptureStep.phase (step : CaptureStep) : Option CapturePhase :=
  match step.event with
  | .proceed _ _ => step.before.inside.map Prod.snd
  | _ => none

/-- What is asked of each step of `stop_capture`: it stops only the capture that the runtime's
latest successful `start_capture` began; a call that does not come to stopping throws
`CaptureError`; and no other step of a call touches a capture. -/
structure CaptureStep.StopsOnlyOwn (step : CaptureStep) : Prop where
  stops_own : step.phase = some .capturing → ∃ capture, step.before.latest = some capture ∧
    step.before.manager.running = some capture
  throws : step.phase = some .stopping ∨ step.phase = some .owning →
    step.after.manager = step.before.manager ∧
      ∀ outcome, step.outcome = some outcome → ∃ what, outcome = .error (.captureError what)
  returns : step.phase = some .stopped →
    step.after.manager = step.before.manager ∧ step.outcome = some (.ok none)

namespace CaptureSystem

/-- What the call that holds the mutex does next. -/
def phase (s : CaptureSystem) : Option CapturePhase := s.inside.map Prod.snd

/-- The runtime takes the latest capture it began to be running: the flag is set and the
capture not just stopped, or the flag is about to be set. -/
def TakenForOwn (s : CaptureSystem) : Prop :=
  s.captureStarted = true ∧ s.phase ≠ some .stopped ∨ s.phase = some .started

/-- What holds at all times. -/
structure Invariant (s : CaptureSystem) : Prop where
  numbered : ∀ capture, s.latest = some capture → capture < s.manager.nextCapture
  flagged : s.phase = some .owning ∨ s.phase = some .capturing → s.captureStarted = true
  own : s.TakenForOwn → ∃ capture, s.latest = some capture ∧
    (s.stoppedOutside = false → s.manager.running = some capture)
  lost : s.stoppedOutside = true → ∀ capture, s.latest = some capture →
    s.manager.running ≠ some capture

/-- Nothing has been started. -/
theorem initial_invariant : initial.Invariant := by
  constructor <;> simp [initial, phase, TakenForOwn]

end CaptureSystem

/-- What one step can do to the state. -/
inductive CaptureMove (s : CaptureSystem) : CaptureSystem → Prop
  /-- Only the progress of calls changes, and no test that failed is passed over. -/
  | moves (inside : Option (ℕ × CapturePhase))
      (leaves : s.phase ≠ some .started ∧ s.phase ≠ some .stopped)
      (enters : inside.map Prod.snd ≠ some .started ∧ inside.map Prod.snd ≠ some .stopped)
      (tested : inside.map Prod.snd = some .owning ∨ inside.map Prod.snd = some .capturing →
        s.captureStarted = true) : CaptureMove s { s with inside }
  /-- The runtime begins a capture. -/
  | begins (thread : ℕ) : CaptureMove s { s with
      manager := s.manager.start
      latest := some s.manager.nextCapture
      stoppedOutside := false
      inside := some (thread, .started) }
  /-- The flag is set for the capture that the runtime has begun. -/
  | sets (started : s.phase = some .started) :
      CaptureMove s { s with captureStarted := true, inside := none }
  /-- The flag is cleared. -/
  | clears : CaptureMove s { s with captureStarted := false, inside := none }
  /-- The runtime stops what is running. -/
  | stops (thread : ℕ) :
      CaptureMove s { s with manager := s.manager.stop, inside := some (thread, .stopped) }
  /-- Other code starts a capture when none is running. -/
  | otherStarts (free : s.manager.running = none) :
      CaptureMove s { s with manager := s.manager.start }
  /-- Other code stops what is running. -/
  | otherStops : CaptureMove s { s with manager := s.manager.stop, stoppedOutside := true }
  /-- A call that is refused before the lock, or a capture that cannot start, changes nothing. -/
  | nothing : CaptureMove s s

namespace CaptureSystem

/-- Each move keeps the invariant. -/
theorem Invariant.move {s s' : CaptureSystem} (h : s.Invariant) (hmove : CaptureMove s s') :
    s'.Invariant := by
  cases hmove with
  | moves inside leaves enters tested =>
    refine ⟨h.numbered, tested, ?_, h.lost⟩
    intro hown
    refine h.own (Or.inl ⟨?_, leaves.2⟩)
    exact hown.elim And.left fun hstarted => absurd hstarted enters.1
  | begins thread =>
    refine ⟨?_, ?_, ?_, ?_⟩
    · intro capture hlatest
      cases hlatest
      exact Nat.lt_succ_self _
    · intro hphase
      rcases hphase with hphase | hphase <;> cases hphase
    · exact fun _ => ⟨_, rfl, fun _ => rfl⟩
    · intro hlost
      cases hlost
  | sets started =>
    refine ⟨h.numbered, ?_, fun _ => h.own (Or.inr started), h.lost⟩
    exact fun _ => rfl
  | clears =>
    refine ⟨h.numbered, ?_, ?_, h.lost⟩
    · intro hphase
      rcases hphase with hphase | hphase <;> cases hphase
    · intro hown
      rcases hown with hown | hown
      · cases hown.1
      · cases hown
  | stops thread =>
    refine ⟨h.numbered, ?_, ?_, ?_⟩
    · intro hphase
      rcases hphase with hphase | hphase <;> cases hphase
    · intro hown
      rcases hown with hown | hown
      · exact absurd rfl hown.2
      · cases hown
    · intro _ capture _ hrunning
      cases hrunning
  | otherStarts free =>
    refine ⟨?_, h.flagged, ?_, ?_⟩
    · intro capture hlatest
      exact Nat.lt_succ_of_lt (h.numbered capture hlatest)
    · intro hown
      obtain ⟨capture, hlatest, hrunning⟩ := h.own hown
      refine ⟨capture, hlatest, ?_⟩
      intro hheld
      -- A capture of the runtime's own would be running.
      have hsome := hrunning hheld
      rw [free] at hsome
      cases hsome
    · intro _ capture hlatest hrunning
      cases hrunning
      exact absurd (h.numbered _ hlatest) (lt_irrefl _)
  | otherStops =>
    refine ⟨h.numbered, h.flagged, ?_, ?_⟩
    · intro hown
      obtain ⟨capture, hlatest, -⟩ := h.own hown
      exact ⟨capture, hlatest, fun hheld => by cases hheld⟩
    · intro _ capture _ hrunning
      cases hrunning
  | nothing => exact h

/-- The next step of a call is one of the moves. -/
theorem move_of_proceed {host : CaptureHost} {s s' : CaptureSystem} {thread : ℕ}
    {refusal : Option (Option ByteString)} {phase : CapturePhase} {outcome : Option CaptureOutcome}
    (hs : s.Invariant) (hinside : s.phase = some phase)
    (h : s.proceed host thread refusal phase = some (outcome, s')) : CaptureMove s s' := by
  have hleaves : phase ≠ .started → phase ≠ .stopped →
      s.phase ≠ some .started ∧ s.phase ≠ some .stopped := by
    intro hstarted hstopped
    rw [hinside]
    exact ⟨fun heq => hstarted (Option.some.inj heq), fun heq => hstopped (Option.some.inj heq)⟩
  have hunlocks : phase ≠ .started → phase ≠ .stopped →
      CaptureMove s { s with inside := none } := by
    intro hstarted hstopped
    exact .moves none (hleaves hstarted hstopped) (by simp) (by simp)
  cases phase with
  | starting path =>
    simp only [proceed] at h
    split at h <;> cases h
    · exact hunlocks (by simp) (by simp)
    · exact .moves _ (hleaves (by simp) (by simp)) (by simp) (by simp)
  | describing path =>
    simp only [proceed, performStart] at h
    split at h
    · cases h
      exact hunlocks (by simp) (by simp)
    · split at h
      · cases h
        exact hunlocks (by simp) (by simp)
      · cases h
        exact hunlocks (by simp) (by simp)
      · split at h <;> cases h
        exact .begins thread
  | started =>
    cases h
    exact .sets hinside
  | stopping =>
    simp only [proceed] at h
    split at h <;> cases h
    · next hflag => exact .moves _ (hleaves (by simp) (by simp)) (by simp) fun _ => hflag
    · exact hunlocks (by simp) (by simp)
  | owning =>
    have hflag := hs.flagged (Or.inl hinside)
    simp only [proceed] at h
    split at h <;> cases h
    · exact .moves _ (hleaves (by simp) (by simp)) (by simp) fun _ => hflag
    · exact .clears
  | capturing =>
    cases h
    exact .stops thread
  | stopped =>
    cases h
    exact .clears
  | asking =>
    cases h
    exact hunlocks (by simp) (by simp)

/-- A thread that locks the mutex moves, as the mutex was free. -/
theorem move_of_enter {s s' : CaptureSystem} {thread : ℕ} {phase : CapturePhase}
    {outcome : Option CaptureOutcome} (h : s.enter thread phase = some (outcome, s'))
    (hphase : ∀ later ∈ [CapturePhase.started, .stopped, .owning, .capturing], phase ≠ later) :
    CaptureMove s s' := by
  simp only [enter] at h
  split at h
  · next hfree =>
    cases h
    simp only [List.mem_cons, List.not_mem_nil, or_false, forall_eq_or_imp, forall_eq] at hphase
    refine .moves _ ?_ ?_ ?_ <;> simp [CaptureSystem.phase, hfree, hphase]
  · cases h

/-- Every step is one of the moves. -/
theorem move_of_perform {host : CaptureHost} {s s' : CaptureSystem} {event : CaptureEvent}
    {outcome : Option CaptureOutcome} (hs : s.Invariant)
    (h : s.perform host event = some (outcome, s')) : CaptureMove s s' := by
  cases event with
  | startCapture thread path =>
    simp only [perform] at h
    split at h
    · cases h
      exact .nothing
    · exact move_of_enter h (by simp)
  | stopCapture thread => exact move_of_enter h (by simp)
  | isCapturing thread => exact move_of_enter h (by simp)
  | proceed thread refusal =>
    simp only [perform] at h
    split at h
    · next holder phase hinside =>
      split at h
      · exact move_of_proceed hs (by rw [CaptureSystem.phase, hinside]; rfl) h
      · cases h
    · cases h
  | otherStarts =>
    simp only [perform] at h
    split at h <;> cases h
    · exact .nothing
    · next hfree =>
      refine .otherStarts ?_
      simpa [CaptureManager.isCapturing] using hfree
  | otherStops =>
    cases h
    exact .otherStops

/-- A step is shown as it was performed. -/
theorem step_eq_some_iff {host : CaptureHost} {s s' : CaptureSystem} {event : CaptureEvent}
    {shown : CaptureStep} : s.step host event = some (shown, s') ↔
      ∃ outcome, s.perform host event = some (outcome, s') ∧ shown = ⟨s, event, outcome, s'⟩ := by
  simp only [step, Option.map_eq_some_iff, Prod.mk.injEq]
  constructor
  · intro h
    obtain ⟨⟨outcome, s''⟩, hperform, rfl, rfl⟩ := h
    exact ⟨outcome, hperform, rfl⟩
  · intro h
    obtain ⟨outcome, hperform, rfl⟩ := h
    exact ⟨(outcome, s'), hperform, rfl, rfl⟩

/-- A call that proceeds takes the step of its phase. -/
theorem proceed_of_phase {host : CaptureHost} {s s' : CaptureSystem} {event : CaptureEvent}
    {outcome : Option CaptureOutcome} {phase : CapturePhase}
    (h : s.perform host event = some (outcome, s'))
    (hphase : CaptureStep.phase ⟨s, event, outcome, s'⟩ = some phase) :
    s.phase = some phase ∧
      ∃ thread refusal, s.proceed host thread refusal phase = some (outcome, s') := by
  cases event with
  | proceed thread refusal =>
    obtain ⟨⟨holder, held⟩, hholder, hheld⟩ := Option.map_eq_some_iff.mp hphase
    have hinside : s.inside = some (holder, held) := hholder
    cases hheld
    simp only [perform, hinside] at h
    split at h
    · exact ⟨by rw [CaptureSystem.phase, hinside]; rfl, thread, refusal, h⟩
    · cases h
  | _ => cases hphase

/-- The tests of `stop_capture` touch nothing and throw `CaptureError` or let the call go on. -/
theorem untouched_of_testing {host : CaptureHost} {s s' : CaptureSystem} {thread : ℕ}
    {refusal : Option (Option ByteString)} {phase : CapturePhase} {outcome : Option CaptureOutcome}
    (hphase : phase = .stopping ∨ phase = .owning)
    (h : s.proceed host thread refusal phase = some (outcome, s')) :
    s'.manager = s.manager ∧
      ∀ result, outcome = some result → ∃ what, result = .error (.captureError what) := by
  rcases hphase with rfl | rfl
  all_goals
    simp only [proceed] at h
    split at h <;> cases h
  · exact ⟨rfl, fun result hresult => by cases hresult⟩
  · exact ⟨rfl, fun result hresult => by cases hresult; exact ⟨_, rfl⟩⟩
  · exact ⟨rfl, fun result hresult => by cases hresult⟩
  · exact ⟨rfl, fun result hresult => by cases hresult; exact ⟨_, rfl⟩⟩

/-- A step stops only the runtime's own capture exactly when, if it stops one, other code has
not stopped that capture before. -/
theorem stopsOnlyOwn_iff {host : CaptureHost} {s s' : CaptureSystem} {event : CaptureEvent}
    {outcome : Option CaptureOutcome} (hs : s.Invariant)
    (h : s.perform host event = some (outcome, s')) :
    CaptureStep.StopsOnlyOwn ⟨s, event, outcome, s'⟩ ↔
      (CaptureStep.phase ⟨s, event, outcome, s'⟩ = some .capturing →
        s.stoppedOutside = false) := by
  constructor
  · intro hown hphase
    obtain ⟨capture, hlatest, hrunning⟩ := hown.stops_own hphase
    by_contra hheld
    exact hs.lost (Bool.eq_true_of_not_eq_false hheld) capture hlatest hrunning
  · intro hheld
    refine ⟨?_, ?_, ?_⟩
    · intro hphase
      obtain ⟨hinside, -⟩ := proceed_of_phase h hphase
      have hown : s.TakenForOwn :=
        Or.inl ⟨hs.flagged (Or.inr hinside), by rw [hinside]; simp⟩
      obtain ⟨capture, hlatest, hrunning⟩ := hs.own hown
      exact ⟨capture, hlatest, hrunning (hheld hphase)⟩
    · intro hphase
      rcases hphase with hphase | hphase
      · obtain ⟨-, thread, refusal, hproceed⟩ := proceed_of_phase h hphase
        exact untouched_of_testing (Or.inl rfl) hproceed
      · obtain ⟨-, thread, refusal, hproceed⟩ := proceed_of_phase h hphase
        exact untouched_of_testing (Or.inr rfl) hproceed
    · intro hphase
      obtain ⟨-, thread, refusal, hproceed⟩ := proceed_of_phase h hphase
      cases hproceed
      exact ⟨rfl, rfl⟩

end CaptureSystem

/-- Over every run, every stop of the runtime hits the capture that its latest successful
`start_capture` began, and every other end of `stop_capture` throws and touches nothing,
exactly when other code has not stopped a capture between that start and any stop of the
runtime. -/
theorem stop_capture_stops_own_iff (host : CaptureHost) {events : List CaptureEvent}
    {steps : List CaptureStep} {s : CaptureSystem}
    (hrun : runSchedule (CaptureSystem.step host) .initial events = some (steps, s)) :
    (∀ step ∈ steps, step.StopsOnlyOwn) ↔
      ∀ step ∈ steps, step.phase = some .capturing → step.before.stoppedOutside = false := by
  have hsteps : ∀ step ∈ steps, step.StopsOnlyOwn ↔
      (step.phase = some .capturing → step.before.stoppedOutside = false) := by
    refine runSchedule_observed CaptureSystem.Invariant _ ?_ CaptureSystem.initial_invariant hrun
    intro s event shown s' hs hstep
    obtain ⟨outcome, hperform, rfl⟩ := CaptureSystem.step_eq_some_iff.mp hstep
    exact ⟨CaptureSystem.stopsOnlyOwn_iff hs hperform,
      hs.move (CaptureSystem.move_of_perform hs hperform)⟩
  exact forall₂_congr hsteps

/-- A system that captures to documents. -/
def traceHost : CaptureHost := ⟨true, fun _ => true⟩

/-- One thread starts a capture and stops it. -/
def ownStopEvents : List CaptureEvent :=
  [.startCapture 0 (ascii "a.gputrace"), .proceed 0 none, .proceed 0 none, .proceed 0 none,
    .stopCapture 0, .proceed 0 none, .proceed 0 none, .proceed 0 none, .proceed 0 none]

/-- In that run the runtime stops its own capture. -/
theorem own_capture_stopped : ∃ steps s,
    runSchedule (CaptureSystem.step traceHost) .initial ownStopEvents = some (steps, s) ∧
    (∃ step ∈ steps, step.phase = some .capturing) ∧ ∀ step ∈ steps, step.StopsOnlyOwn := by
  have hrun : runSchedule (CaptureSystem.step traceHost) .initial ownStopEvents = some (_, _) := rfl
  exact ⟨_, _, hrun, by decide, (stop_capture_stops_own_iff traceHost hrun).mpr (by decide)⟩

/-- Between the start and the stop, other code stops that capture and starts another. -/
def staleFlagEvents : List CaptureEvent :=
  [.startCapture 0 (ascii "a.gputrace"), .proceed 0 none, .proceed 0 none, .proceed 0 none,
    .otherStops, .otherStarts,
    .stopCapture 0, .proceed 0 none, .proceed 0 none, .proceed 0 none, .proceed 0 none]

/-- In that run `stop_capture` stops the capture of other code. -/
theorem stale_flag_stops_other_capture : ¬ ∀ host events steps s,
    runSchedule (CaptureSystem.step host) .initial events = some (steps, s) →
    ∀ step ∈ steps, step.StopsOnlyOwn := by
  intro hall
  have hrun : runSchedule (CaptureSystem.step traceHost) .initial staleFlagEvents = some (_, _) :=
    rfl
  have hsteps := hall traceHost staleFlagEvents _ _ hrun
  have hstep := (hsteps _ (List.getElem_mem (n := 9) (by decide))).stops_own (by decide)
  obtain ⟨capture, hlatest, hrunning⟩ := hstep
  cases hlatest
  cases hrunning

end MetalRuntime
