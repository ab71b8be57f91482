import MetalRuntime.Capture
import MetalRuntime.Foundations.Blocks

/-!
# Captures as contexts

`Capture(path)` starts a capture before its body and stops it after, also when the body raises.
A program that captures in this way only leaves Metal's capture manager as it found it, whatever
it does inside, and the work that a capture records is exactly the work inside its body. The
program runs in one thread. Other code may have left any capture or flag behind, but starts and
stops none meanwhile.
-/

namespace MetalRuntime

open Foundations

namespace CaptureSystem

/-- The rest of the call inside, in at most this many steps. -/
def finishCall (host : CaptureHost) (refusal : Option (Option ByteString)) :
    ℕ → CaptureSystem → Option (CaptureOutcome × CaptureSystem)
  | 0, _ => none
  | count + 1, s =>
    match s.perform host (.proceed 0 refusal) with
    | none => none
    | some (some outcome, s) => some (outcome, s)
    | some (none, s) => finishCall host refusal count s

/-- A call from its first step to its end; none has more than five. -/
def call (host : CaptureHost) (s : CaptureSystem) (event : CaptureEvent)
    (refusal : Option (Option ByteString)) : Option (CaptureOutcome × CaptureSystem) :=
  match s.perform host event with
  | none => none
  | some (some outcome, s) => some (outcome, s)
  | some (none, s) => s.finishCall host refusal 4

end CaptureSystem

/-- What a program does: it starts or stops a capture, or gives the device work. Metal may refuse
to start. -/
inductive CaptureAction
  | start (path : ByteString) (refusal : Option (Option ByteString))
  | stop
  | work (label : ℕ)

/-- What a program raises: what a call of the runtime raised, or an exception of its own. -/
inductive CaptureRaised
  | byRuntime (failure : CaptureFailure)
  | byBody (exception : ℕ)

/-- The captures in a program, with the work so far and the captures that recorded it. -/
structure CaptureTrace where
  system : CaptureSystem
  recorded : List (ℕ × Option ℕ) := []

theorem CaptureTrace.ext {s s' : CaptureTrace} (hsystem : s.system = s'.system)
    (hrecorded : s.recorded = s'.recorded) : s = s' := by
  cases s
  cases s'
  cases hsystem
  cases hrecorded
  rfl

/-- How a call ends for the program. -/
def CaptureOutcome.raised (outcome : CaptureOutcome) : Except CaptureRaised Unit :=
  match outcome with
  | .ok _ => .ok ()
  | .error failure => .error (.byRuntime failure)

/-- One action. -/
def CaptureTrace.Performs (host : CaptureHost) (action : CaptureAction) (s : CaptureTrace)
    (outcome : Except CaptureRaised Unit) (s' : CaptureTrace) : Prop :=
  match action with
  | .start path refusal => ∃ result,
      s.system.call host (.startCapture 0 path) refusal = some (result, s'.system) ∧
        outcome = result.raised ∧ s'.recorded = s.recorded
  | .stop => ∃ result, s.system.call host (.stopCapture 0) none = some (result, s'.system) ∧
      outcome = result.raised ∧ s'.recorded = s.recorded
  | .work label => outcome = .ok () ∧ s'.system = s.system ∧
      s'.recorded = s.recorded ++ [(label, s.system.manager.running)]

/-- A program that captures. -/
abbrev CaptureProgram := Block CaptureAction CaptureRaised

/-- What a program does to the captures. -/
abbrev CaptureRuns (host : CaptureHost) (program : CaptureProgram) (s : CaptureTrace)
    (outcome : Except CaptureRaised Unit) (s' : CaptureTrace) : Prop :=
  program.Runs (CaptureTrace.Performs host) s outcome s'

/-- `with Capture(path): body`. -/
def withCapture (path : ByteString) (refusal : Option (Option ByteString))
    (body : CaptureProgram) : CaptureProgram :=
  .within (.start path refusal) body .stop .stop

/-- The program starts and stops captures by `with` statements only. -/
inductive Structured : CaptureProgram → Prop
  | skip : Structured .skip
  | work (label : ℕ) : Structured (.act (.work label))
  | raise (error : CaptureRaised) : Structured (.raise error)
  | seq {first second : CaptureProgram} (hfirst : Structured first)
      (hsecond : Structured second) : Structured (.seq first second)
  | choice {first second : CaptureProgram} (hfirst : Structured first)
      (hsecond : Structured second) : Structured (.choice first second)
  | loop {body : CaptureProgram} (hbody : Structured body) : Structured (.loop body)
  | handle {body handler : CaptureProgram} (hbody : Structured body)
      (hhandler : Structured handler) : Structured (.handle body handler)
  | capture {body : CaptureProgram} (path : ByteString) (refusal : Option (Option ByteString))
      (hbody : Structured body) : Structured (withCapture path refusal body)

/-- The work of an action. -/
def CaptureAction.labels : CaptureAction → List ℕ
  | .work label => [label]
  | _ => []

/-- The work of a program outside its `with` statements. -/
def workOutside : CaptureProgram → List ℕ
  | .act action => action.labels
  | .seq first second => workOutside first ++ workOutside second
  | .choice first second => workOutside first ++ workOutside second
  | .loop body => workOutside body
  | .handle body handler => workOutside body ++ workOutside handler
  | _ => []

/-- The work inside its outermost `with` statements, but not further inside. -/
def workInside : CaptureProgram → List ℕ
  | .seq first second => workInside first ++ workInside second
  | .choice first second => workInside first ++ workInside second
  | .loop body => workInside body
  | .handle body handler => workInside body ++ workInside handler
  | .within _ body _ _ => workOutside body
  | _ => []

/-- A call of `start_capture` began a capture. -/
structure CaptureTrace.Began (s s' : CaptureTrace) : Prop where
  inside : s'.system.inside = none
  manager : s'.system.manager = s.system.manager.start
  own : s'.system.captureStarted = true
  recorded : s'.recorded = s.recorded

/-- A call of `stop_capture` stopped the capture. -/
structure CaptureTrace.Ended (s s' : CaptureTrace) : Prop where
  inside : s'.system.inside = none
  manager : s'.system.manager = s.system.manager.stop
  own : s'.system.captureStarted = false
  recorded : s'.recorded = s.recorded

section Calls

variable {host : CaptureHost} {s s' : CaptureTrace} {outcome : Except CaptureRaised Unit}

/-- While a capture runs, `start_capture` raises and changes nothing. -/
theorem start_of_running (hinside : s.system.inside = none)
    (hrunning : s.system.manager.running.isSome) {path : ByteString}
    {refusal : Option (Option ByteString)}
    (hperforms : s.Performs host (.start path refusal) outcome s') :
    (∃ failure, outcome = .error (.byRuntime failure)) ∧ s' = s := by
  obtain ⟨result, hcall, rfl, hrecorded⟩ := hperforms
  have hcapturing : s.system.manager.isCapturing = true := hrunning
  suffices hends : (∃ failure, result = .error failure) ∧ s'.system = s.system by
    obtain ⟨⟨failure, rfl⟩, hsystem⟩ := hends
    exact ⟨⟨failure, rfl⟩, CaptureTrace.ext hsystem hrecorded⟩
  by_cases hpath : path = []
  · simp only [CaptureSystem.call, CaptureSystem.perform, if_pos hpath, Option.some.injEq,
      Prod.mk.injEq] at hcall
    exact ⟨⟨_, hcall.1.symm⟩, hcall.2.symm⟩
  · simp only [CaptureSystem.call, CaptureSystem.perform, if_neg hpath, CaptureSystem.enter,
      hinside, if_true, CaptureSystem.goOn, CaptureSystem.finishCall, CaptureSystem.proceed,
      hcapturing, CaptureSystem.fail, CaptureSystem.finish, Option.some.injEq,
      Prod.mk.injEq] at hcall
    refine ⟨⟨_, hcall.1.symm⟩, ?_⟩
    rw [← hcall.2, ← hinside]

/-- When no capture runs, the manager's `startCapture` refuses or starts. -/
theorem performStart_of_idle {s : CaptureSystem} (host : CaptureHost)
    (hidle : s.manager.isCapturing = false) (thread : ℕ) (path : ByteString)
    (refusal : Option (Option ByteString)) :
    (∃ failure, s.performStart host thread path refusal =
        some (some (.error failure), { s with inside := none })) ∨
      s.performStart host thread path refusal = some (none, { s with
        manager := s.manager.start
        latest := some s.manager.nextCapture
        stoppedOutside := false
        inside := some (thread, .started) }) := by
  simp only [CaptureSystem.performStart, hidle]
  split
  · exact Or.inl ⟨_, rfl⟩
  · split
    · exact Or.inl ⟨_, rfl⟩
    · exact Or.inl ⟨_, rfl⟩
    · exact Or.inr rfl

/-- When no capture runs, `start_capture` raises and changes nothing, or begins a capture. -/
theorem start_of_idle (hinside : s.system.inside = none) (hidle : s.system.manager.running = none)
    {path : ByteString} {refusal : Option (Option ByteString)}
    (hperforms : s.Performs host (.start path refusal) outcome s') :
    (∃ failure, outcome = .error (.byRuntime failure)) ∧ s' = s ∨
      outcome = .ok () ∧ s.Began s' := by
  obtain ⟨result, hcall, rfl, hrecorded⟩ := hperforms
  have hcapturing : s.system.manager.isCapturing = false := by
    rw [CaptureManager.isCapturing, hidle, Option.isSome_none]
  suffices hends : (∃ failure, result = .error failure) ∧ s'.system = s.system ∨
      result = .ok none ∧ s'.system.inside = none ∧ s'.system.manager = s.system.manager.start ∧
        s'.system.captureStarted = true by
    rcases hends with ⟨⟨failure, rfl⟩, hsystem⟩ | ⟨rfl, hfree, hmanager, hown⟩
    · exact Or.inl ⟨⟨failure, rfl⟩, CaptureTrace.ext hsystem hrecorded⟩
    · exact Or.inr ⟨rfl, hfree, hmanager, hown, hrecorded⟩
  by_cases hpath : path = []
  · simp only [CaptureSystem.call, CaptureSystem.perform, if_pos hpath, Option.some.injEq,
      Prod.mk.injEq] at hcall
    exact Or.inl ⟨⟨_, hcall.1.symm⟩, hcall.2.symm⟩
  · simp only [CaptureSystem.call, CaptureSystem.perform, if_neg hpath, CaptureSystem.enter,
      hinside, if_true, CaptureSystem.goOn, CaptureSystem.finishCall, CaptureSystem.proceed,
      hcapturing, Bool.false_eq_true, if_false] at hcall
    have hstart := performStart_of_idle
      (s := { s.system with inside := some (0, .describing path) }) host hcapturing 0 path refusal
    rcases hstart with ⟨failure, hstart⟩ | hstart
    · simp only [hstart, Option.some.injEq, Prod.mk.injEq] at hcall
      refine Or.inl ⟨⟨failure, hcall.1.symm⟩, ?_⟩
      rw [← hcall.2, ← hinside]
    · simp only [hstart, CaptureSystem.finish, if_true, Option.some.injEq, Prod.mk.injEq] at hcall
      obtain ⟨hresult, hsystem⟩ := hcall
      refine Or.inr ⟨hresult.symm, ?_, ?_, ?_⟩ <;> rw [← hsystem]

/-- `stop_capture` stops what is running when the runtime takes it for its own. -/
theorem stop_of_own (hinside : s.system.inside = none)
    (hrunning : s.system.manager.running.isSome) (hown : s.system.captureStarted = true)
    (hperforms : s.Performs host .stop outcome s') : outcome = .ok () ∧ s.Ended s' := by
  obtain ⟨result, hcall, rfl, hrecorded⟩ := hperforms
  have hcapturing : s.system.manager.isCapturing = true := hrunning
  simp only [CaptureSystem.call, CaptureSystem.perform, CaptureSystem.enter, hinside, if_true,
    CaptureSystem.goOn, CaptureSystem.finishCall, CaptureSystem.proceed, hown, hcapturing,
    CaptureSystem.finish, Option.some.injEq, Prod.mk.injEq] at hcall
  obtain ⟨hresult, hsystem⟩ := hcall
  refine ⟨by rw [← hresult]; rfl, ⟨?_, ?_, ?_, hrecorded⟩⟩ <;> rw [← hsystem]

end Calls

/-- Between two statements: no call is going on, and the manager runs this capture or none. None
begins while one runs. The flag is as it was when `first` was the next capture, but cleared once
another one has begun: that one has ended. -/
structure CaptureTrace.Scoped (running : Option ℕ) (own : Bool) (first : ℕ) (s : CaptureTrace) :
    Prop where
  inside : s.system.inside = none
  running : s.system.manager.running = running
  first_le : first ≤ s.system.manager.nextCapture
  none_begins : s.system.manager.running.isSome → s.system.manager.nextCapture = first
  own : s.system.captureStarted = true ↔ own = true ∧ s.system.manager.nextCapture = first

section Scopes

variable {s s' : CaptureTrace} {running : Option ℕ} {own : Bool} {first : ℕ}

/-- A program starts between two statements. -/
theorem CaptureTrace.scoped_of_inside (h : s.system.inside = none) :
    s.Scoped s.system.manager.running s.system.captureStarted s.system.manager.nextCapture :=
  ⟨h, rfl, le_rfl, fun _ => rfl, by simp⟩

/-- The body of a statement starts with its capture. -/
theorem CaptureTrace.Scoped.begin (h : s.Began s') :
    s'.Scoped (some s.system.manager.nextCapture) true (s.system.manager.nextCapture + 1) := by
  refine ⟨h.inside, ?_, ?_, fun _ => ?_, ?_⟩
  · rw [h.manager]
    rfl
  · rw [h.manager]
    exact le_rfl
  · rw [h.manager]
    rfl
  · rw [h.manager]
    exact iff_of_true h.own ⟨rfl, rfl⟩

/-- Its end leaves the manager as it was before, and the flag cleared. -/
theorem CaptureTrace.Scoped.end {capture : ℕ} (hcapture : first ≤ capture)
    (h : s.Scoped (some capture) true (capture + 1)) (hended : s.Ended s') :
    s'.Scoped none own first := by
  have hnext : s'.system.manager.nextCapture = capture + 1 := by
    rw [hended.manager]
    exact h.none_begins (h.running ▸ rfl)
  have hrunning : s'.system.manager.running = none := by
    rw [hended.manager]
    rfl
  refine ⟨hended.inside, hrunning, ?_, ?_, ?_⟩
  · rw [hnext]
    exact Nat.le_succ_of_le hcapture
  · intro hsome
    rw [hrunning] at hsome
    cases hsome
  · rw [hended.own, hnext]
    refine iff_of_false Bool.false_ne_true fun hsame => ?_
    exact absurd hsame.2 (Nat.ne_of_gt (Nat.lt_succ_of_le hcapture))

end Scopes

/-- Work outside the `with` statements of the program may be recorded as the manager stands, and
work inside them by a capture that has begun since `first`. What may be recorded depends on the
next capture only in that more may be recorded later. -/
structure Recordable (keep : ℕ → List (ℕ × Option ℕ) → Prop) (running : Option ℕ) (first : ℕ)
    (program : CaptureProgram) : Prop where
  later : ∀ next after recorded, next ≤ after → keep next recorded → keep after recorded
  outside : ∀ label ∈ workOutside program, ∀ next recorded, first ≤ next → keep next recorded →
    keep next (recorded ++ [(label, running)])
  inside : running = none → ∀ label ∈ workInside program, ∀ capture next recorded,
    first ≤ capture → capture < next → keep next recorded →
      keep next (recorded ++ [(label, some capture)])

section Structure

variable {host : CaptureHost} {keep : ℕ → List (ℕ × Option ℕ) → Prop} {running : Option ℕ}
  {own : Bool} {first : ℕ} {program : CaptureProgram}

theorem Recordable.mono {part : CaptureProgram} (h : Recordable keep running first program)
    (houtside : workOutside part ⊆ workOutside program)
    (hinside : workInside part ⊆ workInside program) : Recordable keep running first part where
  later := h.later
  outside := fun label hlabel => h.outside label (houtside hlabel)
  inside := fun hnone label hlabel => h.inside hnone label (hinside hlabel)

/-- The work of a statement's body is work inside the statement. -/
theorem Recordable.body {path : ByteString} {refusal : Option (Option ByteString)}
    {body : CaptureProgram} (h : Recordable keep none first (withCapture path refusal body))
    {capture : ℕ} (hcapture : first ≤ capture) :
    Recordable keep (some capture) (capture + 1) body where
  later := h.later
  outside := fun label hlabel next recorded hnext =>
    h.inside rfl label hlabel capture next recorded hcapture hnext
  inside := fun hnone => by cases hnone

/-- Between two statements, and the record is as it should be. -/
def CaptureTrace.Kept (keep : ℕ → List (ℕ × Option ℕ) → Prop) (running : Option ℕ) (own : Bool)
    (first : ℕ) (s : CaptureTrace) : Prop :=
  s.Scoped running own first ∧ keep s.system.manager.nextCapture s.recorded

/-- Inside the body of a statement that began a capture of its own. -/
def CaptureTrace.InBody (keep : ℕ → List (ℕ × Option ℕ) → Prop) (first : ℕ)
    (s : CaptureTrace) : Prop :=
  ∃ capture : { capture // first ≤ capture },
    s.Kept keep (some capture.val) true (capture.val + 1)

/-- A `with` statement is refused, or its body starts with its capture. -/
theorem start_kept (hlater : ∀ next after recorded, next ≤ after → keep next recorded →
    keep after recorded) (path : ByteString) (refusal : Option (Option ByteString)) :
    Block.ActTriple (CaptureTrace.Performs host) (CaptureTrace.Kept keep none own first)
      (.start path refusal) (CaptureTrace.InBody keep first)
      fun _ => CaptureTrace.Kept keep none own first := by
  intro s outcome s' hs hperforms
  obtain ⟨hscoped, hrecord⟩ := hs
  rcases start_of_idle hscoped.inside hscoped.running hperforms with ⟨⟨failure, rfl⟩, rfl⟩ |
    ⟨rfl, hbegan⟩
  · exact ⟨hscoped, hrecord⟩
  · refine ⟨⟨_, hscoped.first_le⟩, .begin hbegan, ?_⟩
    rw [hbegan.recorded, hbegan.manager]
    exact hlater _ _ _ (Nat.le_succ _) hrecord

/-- The end of a `with` statement stops its capture, and the record is as it was. -/
theorem stop_kept (R : CaptureRaised → CaptureTrace → Prop) :
    Block.ActTriple (CaptureTrace.Performs host) (CaptureTrace.InBody keep first) .stop
      (CaptureTrace.Kept keep none own first) R := by
  intro s outcome s' hs hperforms
  obtain ⟨⟨capture, hcapture⟩, hscoped, hrecord⟩ := hs
  have hrunning : s.system.manager.running.isSome := hscoped.running ▸ rfl
  have hown : s.system.captureStarted = true :=
    hscoped.own.mpr ⟨rfl, hscoped.none_begins hrunning⟩
  obtain ⟨rfl, hended⟩ := stop_of_own hscoped.inside hrunning hown hperforms
  refine ⟨hscoped.end hcapture hended, ?_⟩
  rw [hended.recorded, hended.manager]
  exact hrecord

/-- A structured program leaves the manager as it is and records what may be recorded. -/
theorem Structured.kept (hprogram : Structured program)
    (hkeep : Recordable keep running first program) :
    Block.Triple (CaptureTrace.Performs host) (CaptureTrace.Kept keep running own first) program
      (CaptureTrace.Kept keep running own first)
      fun _ => CaptureTrace.Kept keep running own first := by
  induction hprogram generalizing running own first with
  | skip => exact .skip
  | work label =>
    refine .act ?_
    intro s outcome s' hs hperforms
    obtain ⟨hscoped, hrecord⟩ := hs
    obtain ⟨rfl, hsystem, hrecorded⟩ := hperforms
    have hscoped' : s'.Scoped running own first := by
      constructor <;> rw [hsystem]
      exacts [hscoped.inside, hscoped.running, hscoped.first_le, hscoped.none_begins, hscoped.own]
    refine ⟨hscoped', ?_⟩
    rw [hrecorded, hsystem, hscoped.running]
    exact hkeep.outside label (List.mem_singleton_self label) _ _ hscoped.first_le hrecord
  | raise error => exact .raise fun _ hs => hs
  | seq _ _ ih₁ ih₂ =>
    exact .seq
      (ih₁ (hkeep.mono (List.subset_append_left _ _) (List.subset_append_left _ _)))
      (ih₂ (hkeep.mono (List.subset_append_right _ _) (List.subset_append_right _ _)))
  | choice _ _ ih₁ ih₂ =>
    exact .choice
      (ih₁ (hkeep.mono (List.subset_append_left _ _) (List.subset_append_left _ _)))
      (ih₂ (hkeep.mono (List.subset_append_right _ _) (List.subset_append_right _ _)))
  | loop _ ih => exact .loop (ih (hkeep.mono (List.Subset.refl _) (List.Subset.refl _)))
  | handle _ _ ih₁ ih₂ =>
    refine .handle
      (ih₁ (hkeep.mono (List.subset_append_left _ _) (List.subset_append_left _ _)))
      (fun _ => ih₂ (hkeep.mono (List.subset_append_right _ _) (List.subset_append_right _ _))) ?_
    exact fun _ _ hs => hs
  | capture path refusal _ ih =>
    cases running with
    | none =>
      refine .within (M := CaptureTrace.InBody keep first) (N := CaptureTrace.InBody keep first)
        (S := fun _ => CaptureTrace.InBody keep first) (start_kept hkeep.later path refusal) ?_
        (stop_kept _) fun _ => stop_kept _
      exact .exists fun capture => ih (hkeep.body capture.property)
    | some capture =>
      -- The statement is refused, and its body does not begin.
      refine .within (M := fun _ => False) (N := fun _ => False) (S := fun _ _ => False)
        ?_ .of_false ?_ ?_
      · intro s outcome s' hs hperforms
        have hrunning : s.system.manager.running.isSome := hs.1.running ▸ rfl
        obtain ⟨⟨failure, rfl⟩, rfl⟩ := start_of_running hs.1.inside hrunning hperforms
        exact hs
      · exact fun _ _ _ hs => hs.elim
      · exact fun _ _ _ _ hs => hs.elim

/-- What a structured program adds to the record is what it may add. -/
theorem Structured.records (hprogram : Structured program) (may : ℕ → ℕ × Option ℕ → Prop)
    (hlater : ∀ next after entry, next ≤ after → may next entry → may after entry)
    (houtside : ∀ label ∈ workOutside program, ∀ next, first ≤ next → may next (label, running))
    (hinside : running = none → ∀ label ∈ workInside program, ∀ capture next, first ≤ capture →
      capture < next → may next (label, some capture))
    {s s' : CaptureTrace} {outcome : Except CaptureRaised Unit} (hs : s.Scoped running own first)
    (hruns : CaptureRuns host program s outcome s') :
    s'.Scoped running own first ∧ ∃ recorded, s'.recorded = s.recorded ++ recorded ∧
      ∀ entry ∈ recorded, may s'.system.manager.nextCapture entry := by
  have hadd : ∀ next entry, may next entry → ∀ recorded,
      (∃ rest, recorded = s.recorded ++ rest ∧ ∀ entry ∈ rest, may next entry) →
      ∃ rest, recorded ++ [entry] = s.recorded ++ rest ∧ ∀ entry ∈ rest, may next entry := by
    intro next entry hmay recorded hrecorded
    obtain ⟨rest, rfl, hrest⟩ := hrecorded
    refine ⟨rest ++ [entry], List.append_assoc _ _ _, ?_⟩
    simpa only [List.forall_mem_append, List.forall_mem_singleton] using ⟨hrest, hmay⟩
  have hkeep : Recordable (fun next recorded => ∃ rest, recorded = s.recorded ++ rest ∧
      ∀ entry ∈ rest, may next entry) running first program := by
    constructor
    · intro next after recorded hle hrecorded
      obtain ⟨rest, hrest, hmay⟩ := hrecorded
      exact ⟨rest, hrest, fun entry hentry => hlater next after entry hle (hmay entry hentry)⟩
    · exact fun label hlabel next recorded hnext =>
        hadd next _ (houtside label hlabel next hnext) recorded
    · exact fun hnone label hlabel capture next recorded hfirst hlt =>
        hadd next _ (hinside hnone label hlabel capture next hfirst hlt) recorded
  have hends := hprogram.kept hkeep s outcome s'
    ⟨hs, [], (List.append_nil _).symm, List.forall_mem_nil _⟩ hruns
  cases outcome with
  | ok _ => exact hends
  | error error => exact hends

end Structure

/-- A program that captures by `with` statements only, whatever raises and wherever, leaves the
mutex free and the capture manager as it found it. While a capture runs, none begins. The runtime's
flag is as it was, unless it was stale, set while nothing captures: the first capture that begins
and ends clears it. The program's work outside the statements is recorded by what was running
before or not at all, and its work directly inside them by captures that began and ended in
between. A statement inside another, or while other code captures, raises before its body. -/
theorem structured_captures_are_scopes (host : CaptureHost) {program : CaptureProgram}
    (hprogram : Structured program) {s s' : CaptureTrace} {outcome : Except CaptureRaised Unit}
    (hinside : s.system.inside = none) (hruns : CaptureRuns host program s outcome s') :
    s'.system.inside = none ∧
    s'.system.manager.running = s.system.manager.running ∧
    (s.system.manager.running.isSome →
      s'.system.manager.nextCapture = s.system.manager.nextCapture) ∧
    (s'.system.captureStarted = true ↔ s.system.captureStarted = true ∧
      s'.system.manager.nextCapture = s.system.manager.nextCapture) ∧
    ∃ recorded, s'.recorded = s.recorded ++ recorded ∧ ∀ entry ∈ recorded,
      entry.1 ∈ workOutside program ∧ entry.2 = s.system.manager.running ∨
      entry.1 ∈ workInside program ∧ s.system.manager.running = none ∧
        ∃ capture, entry.2 = some capture ∧ s.system.manager.nextCapture ≤ capture ∧
          capture < s'.system.manager.nextCapture := by
  have hrecords := hprogram.records (fun next entry =>
    entry.1 ∈ workOutside program ∧ entry.2 = s.system.manager.running ∨
    entry.1 ∈ workInside program ∧ s.system.manager.running = none ∧
      ∃ capture, entry.2 = some capture ∧ s.system.manager.nextCapture ≤ capture ∧
        capture < next) ?later ?outside ?inside (CaptureTrace.scoped_of_inside hinside) hruns
  case later =>
    intro next after entry hle hmay
    refine hmay.imp_right fun ⟨hlabel, hnone, capture, hentry, hfirst, hlt⟩ => ?_
    exact ⟨hlabel, hnone, capture, hentry, hfirst, hlt.trans_le hle⟩
  case outside => exact fun label hlabel _ _ => Or.inl ⟨hlabel, rfl⟩
  case inside =>
    exact fun hnone label hlabel capture next hfirst hlt =>
      Or.inr ⟨hlabel, hnone, capture, rfl, hfirst, hlt⟩
  obtain ⟨hscoped, hrecorded⟩ := hrecords
  refine ⟨hscoped.inside, hscoped.running, ?_, hscoped.own, hrecorded⟩
  rw [← hscoped.running]
  exact hscoped.none_begins

/-- A statement inside another, whose exception is handled, with work around it. -/
def nestedCaptures : CaptureProgram :=
  .seq (.act (.work 0)) (.seq
    (.handle (withCapture (ascii "a.gputrace") none
      (.seq (.act (.work 1)) (withCapture (ascii "b.gputrace") none (.act (.work 2))))) .skip)
    (.act (.work 3)))

/-- Other code has stopped the capture of the runtime, whose flag is still set. -/
def staleSystem : CaptureSystem := ⟨⟨none, 1⟩, true, none, some 0, true⟩

/-- The inner statement raises, its body does not begin, and the outer one stops its capture, which
clears the stale flag. -/
theorem nested_capture_is_refused : ∃ s',
    CaptureRuns traceHost nestedCaptures ⟨staleSystem, []⟩ (.ok ()) s' ∧
      s'.recorded = [(0, none), (1, some 1), (3, none)] ∧
      s'.system.manager.running = none ∧ s'.system.captureStarted ≠ true := by
  -- The states once the first work is done, in the body, and after the outer statement.
  set outside : CaptureTrace := ⟨staleSystem, [(0, none)]⟩
  set capturing : CaptureSystem := ⟨⟨some 1, 2⟩, true, none, some 1, false⟩
  set after : CaptureTrace :=
    ⟨⟨⟨none, 2⟩, false, none, some 1, false⟩, [(0, none), (1, some 1)]⟩
  set refused : CaptureRaised :=
    .byRuntime (.captureError (ascii "a Metal capture is already in progress"))
  have hstart : outside.Performs traceHost (.start (ascii "a.gputrace") none) (.ok ())
      ⟨capturing, [(0, none)]⟩ := ⟨.ok none, rfl, rfl, rfl⟩
  have hinner : CaptureTrace.Performs traceHost (.start (ascii "b.gputrace") none)
      ⟨capturing, [(0, none), (1, some 1)]⟩ (.error refused)
      ⟨capturing, [(0, none), (1, some 1)]⟩ := ⟨_, rfl, rfl, rfl⟩
  have hstop : CaptureTrace.Performs traceHost .stop ⟨capturing, [(0, none), (1, some 1)]⟩
      (.ok ()) after := ⟨.ok none, rfl, rfl, rfl⟩
  have houter : CaptureRuns traceHost (withCapture (ascii "a.gputrace") none
      (.seq (.act (.work 1)) (withCapture (ascii "b.gputrace") none (.act (.work 2)))))
      outside (.error refused) after := by
    refine .abandoned hstart (.seq (.act ?_) (.refused hinner)) hstop
    exact ⟨rfl, rfl, rfl⟩
  have hruns : CaptureRuns traceHost nestedCaptures ⟨staleSystem, []⟩ (.ok ())
      ⟨after.system, [(0, none), (1, some 1), (3, none)]⟩ := by
    refine .seq (.act ?_) (.seq (.handled houter .skip) (.act ⟨rfl, rfl, rfl⟩))
    exact ⟨rfl, rfl, rfl⟩
  have hstructured : Structured nestedCaptures :=
    .seq (.work 0) (.seq
      (.handle (.capture _ _ (.seq (.work 1) (.capture _ _ (.work 2)))) .skip) (.work 3))
  obtain ⟨-, hrunning, -, hflag, -⟩ :=
    structured_captures_are_scopes traceHost hstructured rfl hruns
  refine ⟨_, hruns, rfl, hrunning, fun hset => ?_⟩
  exact absurd (hflag.mp hset).2 (by decide)

/-- While nothing captures, a `with` statement is refused before its body, or ends as its body
does, all of whose work one new capture records. -/
theorem capture_records_its_body (host : CaptureHost) {body : CaptureProgram}
    (hbody : Structured body) {path : ByteString} {refusal : Option (Option ByteString)}
    {s s' : CaptureTrace} {outcome : Except CaptureRaised Unit}
    (hinside : s.system.inside = none) (hidle : s.system.manager.running = none)
    (hruns : CaptureRuns host (withCapture path refusal body) s outcome s') :
    (∃ failure, outcome = .error (.byRuntime failure)) ∧ s' = s ∨
      ∃ entered left, CaptureRuns host body entered outcome left ∧
        s'.recorded = left.recorded ∧ ∃ recorded, left.recorded = s.recorded ++ recorded ∧
          ∀ entry ∈ recorded, entry.1 ∈ workOutside body ∧
            entry.2 = some s.system.manager.nextCapture := by
  have hrecords : ∀ entered result left, s.Began entered →
      CaptureRuns host body entered result left →
      left.Scoped (some s.system.manager.nextCapture) true (s.system.manager.nextCapture + 1) ∧
        ∃ recorded, left.recorded = s.recorded ++ recorded ∧ ∀ entry ∈ recorded,
          entry.1 ∈ workOutside body ∧ entry.2 = some s.system.manager.nextCapture := by
    intro entered result left hbegan hrun
    rw [← hbegan.recorded]
    refine hbody.records (fun _ entry => entry.1 ∈ workOutside body ∧
      entry.2 = some s.system.manager.nextCapture) ?_ ?_ ?_ (.begin hbegan) hrun
    · exact fun _ _ _ _ hmay => hmay
    · exact fun label hlabel _ _ => ⟨hlabel, rfl⟩
    · intro hnone
      cases hnone
  -- After its body, the statement stops its own capture.
  have hstops : ∀ {left : CaptureTrace} {result : Except CaptureRaised Unit},
      left.Scoped (some s.system.manager.nextCapture) true (s.system.manager.nextCapture + 1) →
      left.Performs host .stop result s' → result = .ok () ∧ s'.recorded = left.recorded := by
    intro left result hleft hstop
    have hrunning : left.system.manager.running.isSome := hleft.running ▸ rfl
    have hown := hleft.own.mpr ⟨rfl, hleft.none_begins hrunning⟩
    obtain ⟨hok, hended⟩ := stop_of_own hleft.inside hrunning hown hstop
    exact ⟨hok, hended.recorded⟩
  rw [withCapture] at hruns
  cases hruns with
  | refused henter =>
    rcases start_of_idle hinside hidle henter with hrefused | ⟨hok, -⟩
    · exact Or.inl hrefused
    · cases hok
  | left henter hrun hleave =>
    rcases start_of_idle hinside hidle henter with ⟨⟨_, hraised⟩, -⟩ | ⟨-, hbegan⟩
    · cases hraised
    · obtain ⟨hleft, hrest⟩ := hrecords _ _ _ hbegan hrun
      obtain ⟨rfl, hsame⟩ := hstops hleft hleave
      exact Or.inr ⟨_, _, hrun, hsame, hrest⟩
  | abandoned henter hrun habandon =>
    rcases start_of_idle hinside hidle henter with ⟨⟨_, hraised⟩, -⟩ | ⟨-, hbegan⟩
    · cases hraised
    · obtain ⟨hleft, hrest⟩ := hrecords _ _ _ hbegan hrun
      exact Or.inr ⟨_, _, hrun, (hstops hleft habandon).2, hrest⟩
  | abandonRaised henter hrun habandon =>
    rcases start_of_idle hinside hidle henter with ⟨⟨_, hraised⟩, -⟩ | ⟨-, hbegan⟩
    · cases hraised
    · obtain ⟨hleft, -⟩ := hrecords _ _ _ hbegan hrun
      obtain ⟨hok, -⟩ := hstops hleft habandon
      cases hok

end MetalRuntime
