import MetalRuntime.BatchSchedules
import MetalRuntime.PyBatch

/-!
# The objects of a batch in flight

What keeps the Python objects of the launches in a batch alive. A launch is encoded and its
objects are pinned under `keepalive_mutex_`, the command buffer is committed under another
mutex, and `wait` drops the pins under the first one again. The pins are dropped only by a
call that has seen the command buffer finish without a fault, and from then on nothing is
encoded and no `add` has anything left to pin.
-/

namespace MetalRuntime

open Foundations

/-- The command buffer has finished without a fault. -/
def Succeeded (gpu : Option GpuResult) : Prop :=
  gpu.isSome = true ∧ gpu.bind GpuResult.fault = none

namespace PyCall

/-- What the `PreparedLaunch` of a running `add` holds of an encoded launch. -/
def unpinned : PyCall → List ℕ
  | .leaving (.add adding) (.ok _) => adding.prepared.keepalive
  | .pinning _ remaining => remaining
  | _ => []

/-- The call is an `add` in progress. -/
def isAdd : PyCall → Bool
  | .prepared _ | .entering (.add _) | .inside (.add _) | .leaving (.add _) _ | .pinning _ _
  | .unwinding _ _ => true
  | _ => false

/-- The call holds `keepalive_mutex_`. -/
def holdsKeepalive : PyCall → Bool
  | .entering (.add _) | .inside (.add _) | .leaving (.add _) _ | .pinning _ _
  | .unwinding _ _ | .swapping | .swapped _ => true
  | _ => false

/-- The call is a `wait` that has dropped the pins. -/
def hasReleased : PyCall → Bool
  | .swapped _ | .ended (some .waitFinish) (.ok _) => true
  | _ => false

/-- What a call of `wait` has seen of the GPU. -/
def HasSeen (gpu : Option GpuResult) : PyCall → Prop
  | .entering .waitFinish | .inside .waitFinish => gpu.isSome = true
  | .leaving .waitFinish outcome | .ended (some .waitFinish) outcome =>
    gpu.isSome = true ∧ (outcome = .ok () ↔ gpu.bind GpuResult.fault = none)
  | .releasing | .swapping | .swapped _ => Succeeded gpu
  | _ => True

/-- Only an `add` that holds `keepalive_mutex_` has something to pin. -/
theorem holds_of_unpinned {call : PyCall} (h : call.unpinned ≠ []) :
    call.holdsKeepalive = true ∧ call.isAdd = true := by
  cases call with
  | leaving sec outcome =>
    cases sec with
    | add adding => exact ⟨rfl, rfl⟩
    | _ => exact absurd rfl h
  | pinning adding remaining => exact ⟨rfl, rfl⟩
  | _ => exact absurd rfl h

/-- What a call has seen stays true when the GPU finishes. -/
theorem HasSeen.finish {call : PyCall} (h : call.HasSeen none) (result : GpuResult) :
    call.HasSeen (some result) := by
  unfold HasSeen at h ⊢
  split at h
  · cases h
  · cases h
  · cases h.1
  · cases h.1
  · cases h.1
  · cases h.1
  · cases h.1
  · trivial

/-- A `wait` that has dropped the pins has seen the GPU finish without a fault. -/
theorem succeeded_of_hasReleased {call : PyCall} {gpu : Option GpuResult}
    (h : call.HasSeen gpu) (hreleased : call.hasReleased = true) : Succeeded gpu := by
  unfold hasReleased at hreleased
  split at hreleased
  · exact h
  · exact ⟨h.1, h.2.mp rfl⟩
  · cases hreleased

end PyCall

namespace PyBatch

/-- What holds at all times. -/
structure Invariant (rt : Runtime) (s : PyBatch) : Prop where
  sound : BatchSystem.Sound rt s.commandBatch
  holder : ∀ call, (s.calls call).holdsKeepalive = true → s.keepaliveMutex = some call
  seen : ∀ call, (s.calls call).HasSeen s.world.gpu
  held : ¬ Succeeded s.world.gpu → ∀ launch ∈ s.encoded, ∀ object ∈ launch.adding.params.objects,
    object ∈ s.keepalive ∨ object ∈ (s.calls launch.call).unpinned
  empty : (s.encoded = [] ∨ ∃ call, (s.calls call).hasReleased = true) →
    s.keepalive = [] ∧ ∀ call, (s.calls call).unpinned = []

end PyBatch

/-- What one step can do to the pins. -/
inductive PyBatchMove (s : PyBatch) : PyBatch → Prop
  /-- A call goes on, and neither pins nor launches change. It keeps, takes or releases
  `keepalive_mutex_`. -/
  | goesOn (call : ℕ) (phase : PyCall) (world : BatchWorld) (keepaliveMutex stateMutex : Option ℕ)
      (gpu : world.gpu = s.world.gpu)
      (unpinned : phase.unpinned = (s.calls call).unpinned)
      (seen : phase.HasSeen s.world.gpu)
      (released : phase.hasReleased = true → (s.calls call).hasReleased = true)
      (mutex : (keepaliveMutex = s.keepaliveMutex ∧
          (phase.holdsKeepalive = true → (s.calls call).holdsKeepalive = true)) ∨
        (s.keepaliveMutex = none ∧ keepaliveMutex = some call) ∨
        ((s.calls call).holdsKeepalive = true ∧ phase.holdsKeepalive = false)) :
      PyBatchMove s ({ s with world, keepaliveMutex, stateMutex }.moveTo call phase)
  /-- `add` has encoded its launch, on a command buffer not yet committed. -/
  | encodes (call : ℕ) (adding : AddCall) (world : BatchWorld)
      (inside : s.calls call = .inside (.add adding)) (gpu : world.gpu = s.world.gpu)
      (running : s.world.gpu = none) :
      PyBatchMove s ({ s with world, encoded := s.encoded ++ [EncodedLaunch.mk call adding] }.moveTo
        call
        (.leaving (.add adding) (.ok ())))
  /-- `add` pins one object. -/
  | pins (call : ℕ) (adding : AddCall) (object : ℕ) (remaining : List ℕ)
      (pinning : s.calls call = .pinning adding (object :: remaining)) :
      PyBatchMove s ({ s with keepalive := s.keepalive.insert object }.moveTo call
        (.pinning adding remaining))
  /-- `wait` drops the pins. -/
  | releases (call : ℕ) (swapping : s.calls call = .swapping) :
      PyBatchMove s ({ s with keepalive := [] }.moveTo call (.swapped s.keepalive))
  /-- The GPU finishes. -/
  | finishes (result : GpuResult) (running : s.world.gpu = none) :
      PyBatchMove s { s with world := { s.world with gpu := some result } }

namespace PyBatch

/-- A statement about every call after one of them has moved. -/
theorem forall_moveTo {s : PyBatch} {call : ℕ} {phase : PyCall} {P : ℕ → PyCall → Prop}
    (hphase : P call phase) (hothers : ∀ other, other ≠ call → P other (s.calls other))
    (other : ℕ) :
    P other ((s.moveTo call phase).calls other) := by
  change P other (Function.update s.calls call phase other)
  by_cases hother : other = call
  · rw [hother, Function.update_self]
    exact hphase
  · rw [Function.update_of_ne hother]
    exact hothers other hother

variable {rt : Runtime} {s s' : PyBatch}

/-- A call that owns `keepalive_mutex_` may go on without releasing it. -/
theorem holder_moveTo (h : Invariant rt s) {call : ℕ} (phase : PyCall)
    (hcall : (s.calls call).holdsKeepalive = true) :
    ∀ other, ((s.moveTo call phase).calls other).holdsKeepalive = true →
      s.keepaliveMutex = some other := by
  refine forall_moveTo (P := fun other phase => phase.holdsKeepalive = true →
    s.keepaliveMutex = some other) ?_ fun other _ => h.holder other
  intro _
  exact h.holder call hcall

/-- At most the call that owns `keepalive_mutex_` is in its sections. -/
theorem holder_of_move (h : Invariant rt s) (hmove : PyBatchMove s s') :
    ∀ call, (s'.calls call).holdsKeepalive = true → s'.keepaliveMutex = some call := by
  cases hmove with
  | goesOn call phase world keepaliveMutex stateMutex gpu unpinned seen released mutex =>
    refine forall_moveTo (P := fun other phase => phase.holdsKeepalive = true →
      keepaliveMutex = some other) ?_ ?_
    · intro hholds
      rcases mutex with ⟨rfl, hheld⟩ | ⟨-, rfl⟩ | ⟨-, hleft⟩
      · exact h.holder call (hheld hholds)
      · rfl
      · rw [hleft] at hholds
        cases hholds
    · intro other hother hholds
      have howner := h.holder other hholds
      rcases mutex with ⟨rfl, -⟩ | ⟨hfree, -⟩ | ⟨hheld, -⟩
      · exact howner
      · rw [hfree] at howner
        cases howner
      · rw [h.holder call hheld] at howner
        cases howner
        exact absurd rfl hother
  | encodes call adding world inside gpu running => exact holder_moveTo h _ (by rw [inside]; rfl)
  | pins call adding object remaining pinning => exact holder_moveTo h _ (by rw [pinning]; rfl)
  | releases call swapping => exact holder_moveTo h _ (by rw [swapping]; rfl)
  | finishes result running => exact h.holder

/-- What calls have seen stays true. -/
theorem seen_of_move (h : Invariant rt s) (hmove : PyBatchMove s s') :
    ∀ call, (s'.calls call).HasSeen s'.world.gpu := by
  cases hmove with
  | goesOn call phase world keepaliveMutex stateMutex gpu unpinned seen released mutex =>
    refine forall_moveTo (P := fun _ phase => phase.HasSeen world.gpu) ?_ ?_
    · rwa [gpu]
    · intro other _
      rw [gpu]
      exact h.seen other
  | encodes call adding world inside gpu running =>
    refine forall_moveTo (P := fun _ phase => phase.HasSeen world.gpu) trivial ?_
    intro other _
    rw [gpu]
    exact h.seen other
  | pins call adding object remaining pinning =>
    exact forall_moveTo (P := fun _ phase => phase.HasSeen s.world.gpu) trivial
      fun other _ => h.seen other
  | releases call swapping =>
    have hseen := h.seen call
    rw [swapping] at hseen
    exact forall_moveTo (P := fun _ phase => phase.HasSeen s.world.gpu) hseen
      fun other _ => h.seen other
  | finishes result running =>
    intro call
    have hseen := h.seen call
    rw [running] at hseen
    exact hseen.finish result

/-- What is left to pin stays left when a call goes on with it. -/
theorem unpinned_moveTo {call other object : ℕ} {phase : PyCall}
    (hcall : object ∈ (s.calls call).unpinned → object ∈ phase.unpinned)
    (h : object ∈ (s.calls other).unpinned) :
    object ∈ ((s.moveTo call phase).calls other).unpinned := by
  revert h
  exact forall_moveTo (P := fun other phase => object ∈ (s.calls other).unpinned →
    object ∈ phase.unpinned) hcall (fun _ _ => id) other

/-- The objects of every launch stay held until the GPU has finished without a fault. -/
theorem held_of_move (h : Invariant rt s) (hmove : PyBatchMove s s') :
    ¬ Succeeded s'.world.gpu → ∀ launch ∈ s'.encoded,
      ∀ object ∈ launch.adding.params.objects,
        object ∈ s'.keepalive ∨ object ∈ (s'.calls launch.call).unpinned := by
  cases hmove with
  | goesOn call phase world keepaliveMutex stateMutex gpu unpinned seen released mutex =>
    intro hrunning launch hlaunch object hobject
    have hheld := h.held (by rwa [← gpu]) launch hlaunch object hobject
    exact hheld.imp id (unpinned_moveTo fun hmem => by rwa [unpinned])
  | encodes call adding world inside gpu running =>
    intro hrunning launch hlaunch object hobject
    rcases List.mem_append.mp hlaunch with hlaunch | hlaunch
    · have hheld := h.held (by rwa [← gpu]) launch hlaunch object hobject
      refine hheld.imp id (unpinned_moveTo ?_)
      rw [inside]
      exact fun hnone => absurd hnone List.not_mem_nil
    · cases List.mem_singleton.mp hlaunch
      refine Or.inr ?_
      change object ∈ (Function.update s.calls call _ call).unpinned
      rw [Function.update_self, PyCall.unpinned, (prepare_eq_ok adding.prepares).2]
      exact hobject
  | pins call adding pinned remaining pinning =>
    intro hrunning launch hlaunch object hobject
    have hheld := h.held hrunning launch hlaunch object hobject
    have hpinned : object ∈ s.keepalive → object ∈ s.keepalive.insert pinned :=
      fun hmem => List.mem_insert_of_mem hmem
    rcases hheld with hheld | hheld
    · exact Or.inl (hpinned hheld)
    · revert hheld
      refine forall_moveTo (P := fun other phase => object ∈ (s.calls other).unpinned →
        object ∈ s.keepalive.insert pinned ∨ object ∈ phase.unpinned) ?_ (fun _ _ => Or.inr)
        launch.call
      rw [pinning]
      intro hmem
      rcases List.mem_cons.mp hmem with rfl | hmem
      · exact Or.inl List.mem_insert_self
      · exact Or.inr hmem
  | releases call swapping =>
    intro hrunning
    have hseen := h.seen call
    rw [swapping] at hseen
    exact absurd hseen hrunning
  | finishes result running =>
    intro _ launch hlaunch object hobject
    refine h.held ?_ launch hlaunch object hobject
    rw [running]
    exact fun hsucceeded => by cases hsucceeded.1

/-- A call that moves on without dropping the pins leaves no new one that has dropped them. -/
theorem hasReleased_of_moveTo {call : ℕ} {phase : PyCall}
    (hphase : phase.hasReleased = true → (s.calls call).hasReleased = true)
    (h : ∃ other, ((s.moveTo call phase).calls other).hasReleased = true) :
    ∃ other, (s.calls other).hasReleased = true := by
  obtain ⟨other, hother⟩ := h
  refine ⟨other, ?_⟩
  revert hother
  exact forall_moveTo (P := fun other phase => phase.hasReleased = true →
    (s.calls other).hasReleased = true) hphase (fun _ _ => id) other

/-- Nothing is pinned before a launch is encoded, nor after the pins have been dropped. -/
theorem empty_of_move (h : Invariant rt s) (hmove : PyBatchMove s s') :
    (s'.encoded = [] ∨ ∃ call, (s'.calls call).hasReleased = true) →
      s'.keepalive = [] ∧ ∀ call, (s'.calls call).unpinned = [] := by
  cases hmove with
  | goesOn call phase world keepaliveMutex stateMutex gpu unpinned seen released mutex =>
    intro hempty
    obtain ⟨hkeepalive, hunpinned⟩ :=
      h.empty (hempty.imp id fun hreleased => hasReleased_of_moveTo released hreleased)
    refine ⟨hkeepalive, forall_moveTo (P := fun _ phase => phase.unpinned = []) ?_ ?_⟩
    · rw [unpinned, hunpinned call]
    · exact fun other _ => hunpinned other
  | encodes call adding world inside gpu running =>
    intro hempty
    rcases hempty with hempty | hreleased
    · exact absurd hempty (List.append_ne_nil_of_right_ne_nil _ (List.cons_ne_nil _ _))
    · obtain ⟨other, hother⟩ := hasReleased_of_moveTo (fun h => by cases h) hreleased
      have hsucceeded := PyCall.succeeded_of_hasReleased (h.seen other) hother
      rw [running] at hsucceeded
      cases hsucceeded.1
  | pins call adding object remaining pinning =>
    intro hempty
    obtain ⟨-, hunpinned⟩ := h.empty (hempty.imp id
      fun hreleased => hasReleased_of_moveTo (fun h => by cases h) hreleased)
    have hpinning := hunpinned call
    rw [pinning] at hpinning
    cases hpinning
  | releases call swapping =>
    intro _
    refine ⟨rfl, forall_moveTo (P := fun _ phase => phase.unpinned = []) rfl ?_⟩
    intro other hother
    by_contra hunpinned
    -- That call would hold the mutex that this one holds.
    have howner := h.holder other (PyCall.holds_of_unpinned hunpinned).1
    rw [h.holder call (by rw [swapping]; rfl)] at howner
    cases howner
    exact hother rfl
  | finishes result running => exact h.empty

/-- A section that throws or encodes no launch changes neither pins nor launches. -/
theorem encodedAfter_eq (s : PyBatch) (call : ℕ) {sec : StateSection}
    {outcome : Except Failure Unit} (h : ∀ adding, sec = .add adding → outcome ≠ .ok ()) :
    s.encodedAfter call sec outcome = s.encoded ∧ (PyCall.leaving sec outcome).unpinned = [] := by
  cases sec with
  | add adding =>
    cases outcome with
    | ok => exact absurd rfl (h adding rfl)
    | error failure => exact ⟨rfl, rfl⟩
  | _ => exact ⟨rfl, rfl⟩

/-- What the section of a call does to the GPU: nothing, and an `add` that returned met a
command buffer not yet committed. -/
theorem gpu_of_runSection (h : Invariant rt s) {call : ℕ} {sec : StateSection}
    (hphase : s.calls call = .inside sec) :
    (sec.method.exec s.world).2.gpu = s.world.gpu ∧
      ∀ adding, sec = .add adding → (sec.method.exec s.world).1 = .ok () → s.world.gpu = none := by
  obtain ⟨phase, commands, hinv⟩ := h.sound
  have hcase := BatchSystem.step_cases hinv (runSection_refines hphase)
  refine ⟨hcase.gpu_eq (by cases sec <;> simp [StateSection.event]), ?_⟩
  intro adding hadd hreturned
  subst hadd
  have hopened := hcase.opened_of_add hreturned
  exact hinv.lifecycle.gpu (by rw [hopened]; decide)

/-- The last section of `wait` returns exactly when the command buffer has not faulted. -/
theorem waitFinish_returns_iff (h : Invariant rt s) {call : ℕ}
    (hphase : s.calls call = .inside .waitFinish) :
    (CommandBatch.waitFinish.exec s.world).1 = .ok () ↔
      s.world.gpu.bind GpuResult.fault = none := by
  obtain ⟨phase, commands, hinv⟩ := h.sound
  have hwaits : s.commandBatch.waits call = .unblocked := congrArg PyCall.waitPhase hphase
  cases hinv.waits call (Or.inr hwaits)
  exact hinv.lifecycle.waitFinish_returns_iff

/-- The section of a call is one of the moves. -/
theorem move_of_runSection (h : Invariant rt s) {call : ℕ} {sec : StateSection}
    (hphase : s.calls call = .inside sec) : PyBatchMove s (s.runSection call sec) := by
  obtain ⟨hgpu, hopened⟩ := gpu_of_runSection h hphase
  by_cases hencodes : ∃ adding, sec = .add adding ∧ (sec.method.exec s.world).1 = .ok ()
  · obtain ⟨adding, rfl, hreturned⟩ := hencodes
    have hrunning := hopened adding rfl hreturned
    rw [runSection, hreturned]
    exact .encodes call adding _ hphase hgpu hrunning
  · have hsilent : ∀ adding, sec = .add adding → (sec.method.exec s.world).1 ≠ .ok () :=
      fun adding hadd hreturned => hencodes ⟨adding, hadd, hreturned⟩
    obtain ⟨hencoded, hunpinned⟩ := encodedAfter_eq s call hsilent
    rw [runSection, hencoded]
    refine .goesOn call (.leaving sec _) _ s.keepaliveMutex s.stateMutex hgpu ?_ ?_ ?_
      (Or.inl ⟨rfl, ?_⟩)
    · rw [hunpinned, hphase]
      rfl
    · cases sec with
      | waitFinish =>
        have hseen := h.seen call
        rw [hphase] at hseen
        exact ⟨hseen, waitFinish_returns_iff h hphase⟩
      | _ => trivial
    · intro hreleased
      cases hreleased
    · rw [hphase]
      cases sec <;> exact id

/-- The unlocked block of `wait` ends once the GPU has finished, and only queries it. -/
theorem move_of_unblock (h : Invariant rt s) {call : ℕ} (hphase : s.calls call = .blocked)
    (hunblock : s.unblock call = some s') : PyBatchMove s s' := by
  obtain ⟨hready, heq⟩ := Option.ite_none_right_eq_some.mp hunblock
  cases heq
  obtain ⟨phase, commands, hinv⟩ := h.sound
  have hwaits : s.commandBatch.waits call = .blocked := congrArg PyCall.waitPhase hphase
  cases hinv.waits call (Or.inl hwaits)
  have hgpu : s.world.gpu.isSome = true := by
    refine hready.resolve_left ?_
    exact Option.ne_none_iff_isSome.mpr hinv.lifecycle.commandBuffer_isSome
  have hexec := hinv.lifecycle.exec_waitUntilCompleted
  change CommandBatch.waitUntilCompleted.exec s.world = _ at hexec
  rw [hexec]
  refine .goesOn call (.entering .waitFinish) _ s.keepaliveMutex s.stateMutex rfl ?_ hgpu ?_
    (Or.inl ⟨rfl, ?_⟩)
  · rw [hphase]
    rfl
  · intro hreleased
    cases hreleased
  · intro hholds
    cases hholds

/-- A call whose phase is known goes on. -/
theorem move_next {call : ℕ} {before phase : PyCall} (hbefore : s.calls call = before)
    (keepaliveMutex stateMutex : Option ℕ) (hunpinned : phase.unpinned = before.unpinned)
    (hseen : phase.HasSeen s.world.gpu)
    (hreleased : phase.hasReleased = true → before.hasReleased = true)
    (hmutex : (keepaliveMutex = s.keepaliveMutex ∧
        (phase.holdsKeepalive = true → before.holdsKeepalive = true)) ∨
      (s.keepaliveMutex = none ∧ keepaliveMutex = some call) ∨
      (before.holdsKeepalive = true ∧ phase.holdsKeepalive = false)) :
    PyBatchMove s ({ s with keepaliveMutex, stateMutex }.moveTo call phase) := by
  subst hbefore
  exact .goesOn call phase s.world keepaliveMutex stateMutex rfl hunpinned hseen hreleased hmutex

/-- A call that leaves a section goes on as one of the moves. -/
theorem move_of_leaving (h : Invariant rt s) {call : ℕ} {sec : StateSection}
    {outcome : Except Failure Unit} (hphase : s.calls call = .leaving sec outcome) :
    PyBatchMove s ({ s with stateMutex := none }.moveTo call (.afterSection sec outcome)) := by
  have hseen := h.seen call
  rw [hphase] at hseen
  refine move_next hphase s.keepaliveMutex none ?_ ?_ ?_ (Or.inl ⟨rfl, ?_⟩)
  · cases sec <;> cases outcome <;> rfl
  · cases sec with
    | waitFinish =>
      cases outcome with
      | ok => exact ⟨hseen.1, hseen.2.mp rfl⟩
      | error failure => exact hseen
    | _ => cases outcome <;> trivial
  · cases sec <;> cases outcome <;> intro hreleased <;> cases hreleased
  · cases sec <;> cases outcome <;> intro hholds <;> first | rfl | cases hholds

/-- The next step of a call is one of the moves. -/
theorem move_of_proceed (h : Invariant rt s) {call : ℕ} {phase : PyCall}
    (hphase : s.calls call = phase) (hproceed : s.proceed call phase = some s') :
    PyBatchMove s s' := by
  have hseen := h.seen call
  rw [hphase] at hseen
  cases phase with
  | notStarted => cases hproceed
  | ended last outcome => cases hproceed
  | inside sec =>
    cases hproceed
    exact move_of_runSection h hphase
  | blocked => exact move_of_unblock h hphase hproceed
  | leaving sec outcome =>
    cases hproceed
    exact move_of_leaving h hphase
  | prepared adding =>
    obtain ⟨hfree, heq⟩ := Option.ite_none_right_eq_some.mp hproceed
    cases heq
    exact move_next hphase (some call) s.stateMutex rfl trivial
      (fun hreleased => by cases hreleased) (Or.inr (Or.inl ⟨hfree, rfl⟩))
  | entering sec =>
    obtain ⟨-, heq⟩ := Option.ite_none_right_eq_some.mp hproceed
    cases heq
    refine move_next hphase s.keepaliveMutex (some call) rfl ?_
      (fun hreleased => by cases hreleased) (Or.inl ⟨rfl, ?_⟩)
    · cases sec <;> exact hseen
    · cases sec <;> exact id
  | pinning adding remaining =>
    cases remaining with
    | nil =>
      cases hproceed
      exact move_next hphase none s.stateMutex rfl trivial
        (fun hreleased => by cases hreleased) (Or.inr (Or.inr ⟨rfl, rfl⟩))
    | cons object remaining =>
      cases hproceed
      exact .pins call adding object remaining hphase
  | unwinding adding failure =>
    cases hproceed
    exact move_next hphase none s.stateMutex rfl trivial
      (fun hreleased => by cases hreleased) (Or.inr (Or.inr ⟨rfl, rfl⟩))
  | releasing =>
    obtain ⟨hfree, heq⟩ := Option.ite_none_right_eq_some.mp hproceed
    cases heq
    exact move_next hphase (some call) s.stateMutex rfl hseen
      (fun hreleased => by cases hreleased) (Or.inr (Or.inl ⟨hfree, rfl⟩))
  | swapping =>
    cases hproceed
    exact .releases call hphase
  | swapped released =>
    cases hproceed
    exact move_next hphase none s.stateMutex rfl ⟨hseen.1, iff_of_true rfl hseen.2⟩ (fun _ => rfl)
      (Or.inr (Or.inr ⟨rfl, rfl⟩))

/-- A call that has begun has pinned, seen and locked nothing. -/
theorem start_facts (method : PyMethod) :
    method.start.unpinned = [] ∧ (∀ gpu, method.start.HasSeen gpu) ∧
      method.start.hasReleased = false ∧ method.start.holdsKeepalive = false := by
  cases method with
  | add params =>
    simp only [PyMethod.start]
    split <;> exact ⟨rfl, fun _ => trivial, rfl, rfl⟩
  | _ => exact ⟨rfl, fun _ => trivial, rfl, rfl⟩

/-- Every step is one of the moves. -/
theorem move_of_perform (h : Invariant rt s) {event : PyBatchEvent}
    (hperform : s.perform event = some s') : PyBatchMove s s' := by
  cases event with
  | start call method =>
    simp only [perform] at hperform
    split at hperform
    · next hphase =>
      cases hperform
      obtain ⟨hunpinned, hseen, hreleased, hholds⟩ := start_facts method
      refine move_next hphase s.keepaliveMutex s.stateMutex hunpinned (hseen _) ?_
        (Or.inl ⟨rfl, ?_⟩)
      · rw [hreleased]
        exact fun h => by cases h
      · rw [hholds]
        exact fun h => by cases h
    · cases hperform
  | proceed call => exact move_of_proceed h rfl hperform
  | gpuFinish result =>
    obtain ⟨hready, heq⟩ := Option.ite_none_right_eq_some.mp hperform
    cases heq
    exact .finishes result (Option.isNone_iff_eq_none.mp hready.2)

/-- Each step keeps the invariant. -/
theorem step_invariant (h : Invariant rt s) {event : PyBatchEvent}
    (hperform : s.perform event = some s') : Invariant rt s' := by
  have hmove := move_of_perform h hperform
  refine ⟨?_, holder_of_move h hmove, seen_of_move h hmove, held_of_move h hmove,
    empty_of_move h hmove⟩
  rcases perform_refines hperform with hsame | ⟨event, shown, hstep⟩
  · rw [hsame]
    exact h.sound
  · exact BatchSystem.step_sound h.sound hstep

/-- A batch just constructed. -/
def initial (world : BatchWorld) : PyBatch := { world }

/-- A batch just constructed satisfies the invariant. -/
theorem initial_invariant {commandBuffer encoder : Option ℕ} {world : BatchWorld}
    (hcreate : CommandBatch.create rt commandBuffer encoder = .ok world) :
    Invariant rt (initial world) where
  sound := ⟨_, _, BatchSystem.initial_invariant hcreate⟩
  holder := fun _ hholds => by cases hholds
  seen := fun _ => trivial
  held := fun _ _ hlaunch => absurd hlaunch List.not_mem_nil
  empty := fun _ => ⟨rfl, fun _ => rfl⟩

/-- Every state that a run reaches satisfies the invariant. -/
theorem run_invariant {commandBuffer encoder : Option ℕ} {world : BatchWorld}
    (hcreate : CommandBatch.create rt commandBuffer encoder = .ok world)
    {events : List PyBatchEvent} {steps : List PyBatchStep}
    (hrun : runSchedule step (initial world) events = some (steps, s)) : Invariant rt s := by
  refine runSchedule_invariant (Invariant rt) ?_ (initial_invariant hcreate) hrun
  intro s event shown s' hs hstep
  exact step_invariant hs (step_eq_some_iff.mp hstep).1

/-- A step that lets go of a pinned object is that of a `wait` that has seen the command buffer
finish; and once the GPU has finished, no launch is encoded. -/
theorem released_of_move (h : Invariant rt s) (hmove : PyBatchMove s s') :
    ((∃ object ∈ s.keepalive, object ∉ s'.keepalive) →
      s.world.gpu.isSome = true ∧
        ∃ call, s.calls call = .swapping ∧ s'.calls call = .swapped s.keepalive) ∧
    (s.world.gpu.isSome = true → s'.encoded = s.encoded) := by
  have hkeeps : ∀ kept : List ℕ, s.keepalive ⊆ kept →
      ¬ ∃ object ∈ s.keepalive, object ∉ kept := by
    intro kept hsubset hlost
    obtain ⟨object, hobject, hlost⟩ := hlost
    exact hlost (hsubset hobject)
  cases hmove with
  | goesOn call phase world keepaliveMutex stateMutex gpu unpinned seen released mutex =>
    exact ⟨fun hlost => absurd hlost (hkeeps _ (List.Subset.refl _)), fun _ => rfl⟩
  | encodes call adding world inside gpu running =>
    refine ⟨fun hlost => absurd hlost (hkeeps _ (List.Subset.refl _)), ?_⟩
    intro hfinished
    rw [running] at hfinished
    cases hfinished
  | pins call adding pinned remaining pinning =>
    refine ⟨fun hlost => absurd hlost (hkeeps _ ?_), fun _ => rfl⟩
    exact fun object hobject => List.mem_insert_of_mem hobject
  | releases call swapping =>
    have hseen := h.seen call
    rw [swapping] at hseen
    exact ⟨fun _ => ⟨hseen.1, call, swapping, Function.update_self _ _ _⟩, fun _ => rfl⟩
  | finishes result running =>
    exact ⟨fun hlost => absurd hlost (hkeeps _ (List.Subset.refl _)), fun _ => rfl⟩

/-- An object of an encoded launch is held: it is pinned, or the `add` that encoded the launch
is still running and its `PreparedLaunch` has it. -/
def Holds (s : PyBatch) (launch : EncodedLaunch) (object : ℕ) : Prop :=
  object ∈ s.keepalive ∨ ((s.calls launch.call).isAdd = true ∧
    object ∈ (s.calls launch.call).unpinned)

/-- Until the GPU has finished without a fault, every object of a launch is held. -/
theorem holds_of_invariant (h : Invariant rt s) (hrunning : ¬ Succeeded s.world.gpu)
    {launch : EncodedLaunch} (hlaunch : launch ∈ s.encoded) {object : ℕ}
    (hobject : object ∈ launch.adding.params.objects) : s.Holds launch object := by
  rcases h.held hrunning launch hlaunch object hobject with hpinned | hunpinned
  · exact Or.inl hpinned
  · exact Or.inr ⟨(PyCall.holds_of_unpinned (List.ne_nil_of_mem hunpinned)).2, hunpinned⟩

end PyBatch

/-- Over every interleaving of calls, in every state reached: a launch points into the kernel
and the buffers it was added with, and while its command buffer is neither finished nor
discarded all of them are held. A step that lets go of an object is that of a `wait` that has
seen the command buffer finish, after which no launch is encoded. -/
theorem encoded_objects_stay_held {rt : Runtime} {commandBuffer encoder : Option ℕ}
    {world : BatchWorld} (hcreate : CommandBatch.create rt commandBuffer encoder = .ok world)
    {events : List PyBatchEvent} {steps : List PyBatchStep} {s : PyBatch}
    (hrun : runSchedule PyBatch.step (.initial world) events = some (steps, s)) :
    (∀ launch ∈ s.encoded, launch.adding.params.Owns launch.adding.prepared.launch ∧
      (s.world.gpu = none → s.world.batch.discarded = false →
        s.Holds launch launch.adding.params.kernel.object ∧
        (∀ buffer, launch.adding.params.indirectBuffer = some buffer →
          s.Holds launch buffer.object) ∧
        ∀ buffer ∈ launch.adding.params.boundBuffers, s.Holds launch buffer.object)) ∧
    ∀ step ∈ steps, ((∃ object ∈ step.before.keepalive, object ∉ step.after.keepalive) →
        step.before.world.gpu.isSome = true ∧ ∃ call, step.before.calls call = .swapping ∧
          step.after.calls call = .swapped step.before.keepalive) ∧
      (step.before.world.gpu.isSome = true → step.after.encoded = step.before.encoded) := by
  refine ⟨?_, ?_⟩
  · intro launch hlaunch
    refine ⟨(prepare_eq_ok launch.adding.prepares).1, ?_⟩
    intro hrunning _
    have hholds : ∀ object ∈ launch.adding.params.objects, s.Holds launch object := by
      intro object hobject
      refine PyBatch.holds_of_invariant (PyBatch.run_invariant hcreate hrun) ?_ hlaunch hobject
      rw [hrunning]
      exact fun hsucceeded => by cases hsucceeded.1
    refine ⟨hholds _ List.mem_cons_self, ?_, ?_⟩
    · intro buffer hbuffer
      refine hholds _ (List.mem_cons_of_mem _ (List.mem_append_left _ ?_))
      rw [hbuffer]
      exact List.mem_singleton_self _
    · intro buffer hbuffer
      exact hholds _ (List.mem_cons_of_mem _ (List.mem_append_right _
        (List.mem_map_of_mem hbuffer)))
  · refine runSchedule_observed (PyBatch.Invariant rt) _ ?_ (PyBatch.initial_invariant hcreate)
      hrun
    intro s event shown s' hs hstep
    obtain ⟨hperform, rfl⟩ := PyBatch.step_eq_some_iff.mp hstep
    exact ⟨PyBatch.released_of_move hs (PyBatch.move_of_perform hs hperform),
      PyBatch.step_invariant hs hperform⟩

/-- The arguments of a launch over four elements of a buffer. -/
def addOneParams : LaunchParams where
  kernel := ⟨10, addOnePipeline⟩
  grid := .extent (.size 4)
  threadgroup := some (.size 4)
  buffers := [.plain (some ⟨⟨[4], ⟨DType.float, 32⟩, ⟨⟨1, 65536, 16⟩, 16⟩⟩, 11⟩)]

/-- One thread adds that launch and has pinned the kernel; another commits meanwhile. -/
def pinningEvents : List PyBatchEvent :=
  [.start 0 (.add addOneParams), .proceed 0, .proceed 0, .proceed 0, .proceed 0, .proceed 0,
    .start 1 .commit, .proceed 1, .proceed 1, .proceed 1]

/-- Both objects of that launch are held, the buffer by the `add` still running. -/
theorem committed_launch_held : ∃ steps s launch,
    runSchedule PyBatch.step (.initial appleBatch) pinningEvents = some (steps, s) ∧
    s.world.batch.committed = true ∧ launch ∈ s.encoded ∧
    s.Holds launch launch.adding.params.kernel.object ∧
    ∀ buffer ∈ launch.adding.params.boundBuffers, s.Holds launch buffer.object := by
  have hrun : runSchedule PyBatch.step (.initial appleBatch) pinningEvents = some (_, _) := rfl
  obtain ⟨hheld, -⟩ := encoded_objects_stay_held create_appleBatch hrun
  obtain ⟨-, hholds⟩ := hheld _ List.mem_cons_self
  obtain ⟨hkernel, -, hbuffers⟩ := hholds rfl rfl
  exact ⟨_, _, _, hrun, rfl, List.mem_cons_self, hkernel, hbuffers⟩

end MetalRuntime
