import Mathlib.Data.List.Forall2
import Mathlib.Data.Prod.Basic

/-!
# Schedules of a labelled transition system

A step maps a state and an event to an observation and the next state; `none` marks an
event that is not enabled. A schedule is an arbitrary list of events, so a statement
about every schedule is a statement about every interleaving. The lemmas package the
inductions once: an invariant, a property of every observation, a log that grows with
the observations, a simulation between two systems, and a measure that some steps
bring down.
-/

namespace Foundations

variable {σ σ₁ σ₂ ε ω ω₁ ω₂ α : Type*}

/-- Execute a schedule, collecting one observation for each event. -/
def runSchedule (step : σ → ε → Option (ω × σ)) : σ → List ε → Option (List ω × σ)
  | s, [] => some ([], s)
  | s, e :: es =>
    match step s e with
    | none => none
    | some (o, s') => (runSchedule step s' es).map (Prod.map (List.cons o) id)

/-- The empty schedule observes nothing and stays where it is. -/
@[simp] theorem runSchedule_nil (step : σ → ε → Option (ω × σ)) (s : σ) :
    runSchedule step s [] = some ([], s) := rfl

/-- A nonempty schedule is its first step followed by the remaining schedule. -/
theorem runSchedule_cons_iff (step : σ → ε → Option (ω × σ)) (s t : σ) (e : ε) (es : List ε)
    (os : List ω) :
    runSchedule step s (e :: es) = some (os, t) ↔
      ∃ o s' os', step s e = some (o, s') ∧ runSchedule step s' es = some (os', t) ∧
        os = o :: os' := by
  constructor
  · intro h
    unfold runSchedule at h
    split at h
    · contradiction
    · rename_i o s' hstep
      obtain ⟨⟨os', t'⟩, hrest, heq⟩ := Option.map_eq_some_iff.mp h
      simp only [Prod.map_apply, id_eq, Prod.mk.injEq] at heq
      obtain ⟨rfl, rfl⟩ := heq
      exact ⟨o, s', os', hstep, hrest, rfl⟩
  · rintro ⟨o, s', os', hstep, hrest, rfl⟩
    simp [runSchedule, hstep, hrest]

/-- Translating the events of a schedule is translating the events of each step. -/
theorem runSchedule_map {ε' : Type*} (step : σ → ε → Option (ω × σ)) (f : ε' → ε) (s : σ)
    (es : List ε') :
    runSchedule step s (es.map f) = runSchedule (fun s e => step s (f e)) s es := by
  induction es generalizing s with
  | nil => rfl
  | cons e es ih =>
    rw [List.map_cons, runSchedule, runSchedule]
    simp only [ih]

/-- A property preserved by each step holds at the end of every schedule. -/
theorem runSchedule_invariant {step : σ → ε → Option (ω × σ)} (P : σ → Prop)
    (hstep : ∀ s e o s', P s → step s e = some (o, s') → P s') {s t : σ} {es : List ε}
    {os : List ω} (hs : P s) (hrun : runSchedule step s es = some (os, t)) : P t := by
  induction es generalizing s os with
  | nil =>
    cases hrun
    exact hs
  | cons e es ih =>
    obtain ⟨o, s', os', hfirst, hrest, rfl⟩ := (runSchedule_cons_iff step s t e es os).mp hrun
    exact ih (hstep s e o s' hs hfirst) hrest

/-- If an invariant determines what a single step may show, every observation of a schedule
is of that kind for its own event. -/
theorem runSchedule_observations {step : σ → ε → Option (ω × σ)} (P : σ → Prop)
    (Q : ε → ω → Prop)
    (hstep : ∀ s e o s', P s → step s e = some (o, s') → Q e o ∧ P s') {s t : σ}
    {es : List ε} {os : List ω} (hs : P s) (hrun : runSchedule step s es = some (os, t)) :
    List.Forall₂ Q es os := by
  induction es generalizing s os with
  | nil =>
    cases hrun
    exact List.Forall₂.nil
  | cons e es ih =>
    obtain ⟨o, s', os', hfirst, hrest, rfl⟩ := (runSchedule_cons_iff step s t e es os).mp hrun
    obtain ⟨hQ, hP⟩ := hstep s e o s' hs hfirst
    exact List.Forall₂.cons hQ (ih hP hrest)

/-- If an invariant determines what a single step may show, everything a schedule shows is of
that kind. -/
theorem runSchedule_observed {step : σ → ε → Option (ω × σ)} (P : σ → Prop) (Q : ω → Prop)
    (hstep : ∀ s e o s', P s → step s e = some (o, s') → Q o ∧ P s') {s t : σ}
    {es : List ε} {os : List ω} (hs : P s) (hrun : runSchedule step s es = some (os, t)) :
    ∀ o ∈ os, Q o := by
  have hall := runSchedule_observations P (fun _ => Q) hstep hs hrun
  clear hrun
  induction hall with
  | nil => exact fun o ho => absurd ho List.not_mem_nil
  | cons hhead _ ih =>
    intro o ho
    rcases List.mem_cons.mp ho with rfl | ho
    · exact hhead
    · exact ih o ho

/-- If what a step shows stays true of the states after every later step, all of it is true of
the state at the end of a schedule. -/
theorem runSchedule_settled {step : σ → ε → Option (ω × σ)} (P : σ → Prop)
    (Q : σ → ε → ω → Prop)
    (hstep : ∀ s e o s', P s → step s e = some (o, s') → Q s' e o ∧ P s')
    (hkeep : ∀ s e o s' event shown, P s → Q s event shown → step s e = some (o, s') →
      Q s' event shown) {s t : σ} {es : List ε} {os : List ω} (hs : P s)
    (hrun : runSchedule step s es = some (os, t)) : List.Forall₂ (Q t) es os := by
  induction es generalizing s os with
  | nil =>
    cases hrun
    exact List.Forall₂.nil
  | cons e es ih =>
    obtain ⟨o, s', os', hfirst, hrest, rfl⟩ := (runSchedule_cons_iff step s t e es os).mp hrun
    obtain ⟨hQ, hP⟩ := hstep s e o s' hs hfirst
    refine List.Forall₂.cons ?_ (ih hP hrest)
    refine (runSchedule_invariant (fun s => P s ∧ Q s e o) ?_ ⟨hP, hQ⟩ hrest).2
    intro s event shown s' h hnext
    exact ⟨(hstep s event shown s' h.1 hnext).2, hkeep s event shown s' e o h.1 h.2 hnext⟩

/-- A part of the state that none of the scheduled events changes is the same after them. -/
theorem runSchedule_frame {step : σ → ε → Option (ω × σ)} (P : σ → Prop) (view : σ → α)
    {s t : σ} {es : List ε} {os : List ω}
    (hstep : ∀ e ∈ es, ∀ s o s', P s → step s e = some (o, s') → view s' = view s ∧ P s')
    (hs : P s) (hrun : runSchedule step s es = some (os, t)) : view t = view s := by
  induction es generalizing s os with
  | nil =>
    cases hrun
    rfl
  | cons e es ih =>
    obtain ⟨o, s', os', hfirst, hrest, rfl⟩ := (runSchedule_cons_iff step s t e es os).mp hrun
    obtain ⟨hview, hP⟩ := hstep e List.mem_cons_self s o s' hs hfirst
    rw [ih (fun later hlater => hstep later (List.mem_cons_of_mem e hlater)) hP hrest, hview]

/-- A property of the state and of what has happened so far, newest first, holds at the end of
every schedule if each step keeps it. -/
theorem runSchedule_history {step : σ → ε → Option (ω × σ)} (P : List (ε × ω) → σ → Prop)
    (hstep : ∀ history s e o s', P history s → step s e = some (o, s') → P ((e, o) :: history) s')
    {history : List (ε × ω)} {s t : σ} {es : List ε} {os : List ω} (hs : P history s)
    (hrun : runSchedule step s es = some (os, t)) : P ((es.zip os).reverse ++ history) t := by
  induction es generalizing history s os with
  | nil =>
    cases hrun
    exact hs
  | cons e es ih =>
    obtain ⟨o, s', os', hfirst, hrest, rfl⟩ := (runSchedule_cons_iff step s t e es os).mp hrun
    rw [List.zip_cons_cons, List.reverse_cons, List.append_assoc]
    exact ih (hstep history s e o s' hs hfirst) hrest

/-- If a property of the state and of what was shown so far, newest first, is kept by each step and
determines what the step may show, then everything that a schedule shows is accounted for by what
it has shown before. -/
theorem runSchedule_accounted {step : σ → ε → Option (ω × σ)} (P : List ω → σ → Prop)
    (Q : List ω → ω → Prop) {history : List ω} {s t : σ} {es : List ε} {os : List ω}
    (hstep : ∀ e ∈ es, ∀ history s o s', P history s → step s e = some (o, s') →
      Q history o ∧ P (o :: history) s')
    (hs : P history s) (hrun : runSchedule step s es = some (os, t)) {i : ℕ} {o : ω}
    (hi : os[i]? = some o) : Q ((os.take i).reverse ++ history) o := by
  induction es generalizing history s os i with
  | nil =>
    cases hrun
    cases hi
  | cons e es ih =>
    obtain ⟨first, s', os', hfirst, hrest, rfl⟩ := (runSchedule_cons_iff step s t e es os).mp hrun
    obtain ⟨hQ, hP⟩ := hstep e List.mem_cons_self history s first s' hs hfirst
    cases i with
    | zero =>
      cases hi
      exact hQ
    | succ i =>
      rw [List.getElem?_cons_succ] at hi
      rw [List.take_succ_cons, List.reverse_cons, List.append_assoc]
      exact ih (fun later hlater => hstep later (List.mem_cons_of_mem e hlater)) hP hrest hi

/-- A log to which each step appends what it shows is, after a schedule, the old log followed
by everything shown. -/
theorem runSchedule_log {step : σ → ε → Option (ω × σ)} (P : σ → Prop) (log : σ → List α)
    (shown : ω → List α)
    (hstep : ∀ s e o s', P s → step s e = some (o, s') → log s' = log s ++ shown o ∧ P s')
    {s t : σ} {es : List ε} {os : List ω} (hs : P s)
    (hrun : runSchedule step s es = some (os, t)) :
    log t = log s ++ os.flatMap shown := by
  induction es generalizing s os with
  | nil =>
    cases hrun
    simp
  | cons e es ih =>
    obtain ⟨o, s', os', hfirst, hrest, rfl⟩ := (runSchedule_cons_iff step s t e es os).mp hrun
    obtain ⟨hlog, hP⟩ := hstep s e o s' hs hfirst
    rw [ih hP hrest, hlog, List.flatMap_cons, List.append_assoc]

/-- If every event is enabled everywhere, every schedule runs to its end. -/
theorem runSchedule_isSome {step : σ → ε → Option (ω × σ)} (h : ∀ s e, (step s e).isSome) (s : σ)
    (es : List ε) : ∃ os t, runSchedule step s es = some (os, t) := by
  induction es generalizing s with
  | nil => exact ⟨[], s, rfl⟩
  | cons e es ih =>
    obtain ⟨⟨o, s'⟩, hstep⟩ := Option.isSome_iff_exists.mp (h s e)
    obtain ⟨os, t, hrest⟩ := ih s'
    exact ⟨o :: os, t, (runSchedule_cons_iff step s t e es _).mpr ⟨o, s', os, hstep, hrest, rfl⟩⟩

/-- If in every state with something left some allowed step leaves less, then allowed steps lead to
a state with nothing left. -/
theorem runSchedule_drains {step : σ → ε → Option (ω × σ)} (P : σ → Prop) (allowed : ε → Prop)
    (left : σ → ℕ)
    (hstep : ∀ s, P s → left s ≠ 0 →
      ∃ e o s', allowed e ∧ step s e = some (o, s') ∧ P s' ∧ left s' < left s)
    {s : σ} (hs : P s) :
    ∃ es os t, runSchedule step s es = some (os, t) ∧ P t ∧ left t = 0 ∧ es.length ≤ left s ∧
      ∀ e ∈ es, allowed e := by
  induction hleft : left s using Nat.strongRecOn generalizing s with
  | ind count ih =>
    by_cases hzero : left s = 0
    · exact ⟨[], [], s, rfl, hs, hzero, Nat.zero_le _, fun _ he => absurd he List.not_mem_nil⟩
    · obtain ⟨e, o, s', hallowed, hfirst, hs', hless⟩ := hstep s hs hzero
      rw [hleft] at hless
      obtain ⟨es, os, t, hrest, ht, hdone, hlength, hall⟩ := ih _ hless hs' rfl
      refine ⟨e :: es, o :: os, t,
        (runSchedule_cons_iff step s t e es _).mpr ⟨o, s', os, hfirst, hrest, rfl⟩, ht, hdone, ?_,
        List.forall_mem_cons.mpr ⟨hallowed, hall⟩⟩
      rw [List.length_cons]
      omega

/-- A part of the state that each step overwrites or leaves alone is, after a schedule, what was
written last, or what it was at the start. -/
theorem runSchedule_last {step : σ → ε → Option (ω × σ)} (P : σ → Prop) (view : σ → α)
    (written : ε → ω → Option α)
    (hstep : ∀ s e o s', P s → step s e = some (o, s') →
      view s' = (written e o).getD (view s) ∧ P s')
    {s t : σ} {es : List ε} {os : List ω} (hs : P s)
    (hrun : runSchedule step s es = some (os, t)) :
    view t =
      ((es.zip os).filterMap fun entry => written entry.1 entry.2).getLast?.getD (view s) := by
  induction es generalizing s os with
  | nil =>
    cases hrun
    rfl
  | cons e es ih =>
    obtain ⟨o, s', os', hfirst, hrest, rfl⟩ := (runSchedule_cons_iff step s t e es os).mp hrun
    obtain ⟨hview, hP⟩ := hstep s e o s' hs hfirst
    rw [ih hP hrest, hview, List.zip_cons_cons]
    cases hwritten : written e o with
    | none => simp only [List.filterMap_cons, hwritten, Option.getD_none]
    | some a =>
      simp only [List.filterMap_cons, hwritten, List.getLast?_cons, Option.getD_some]

/-- The same where what a step writes can be told from what it shows. -/
theorem runSchedule_last_shown {step : σ → ε → Option (ω × σ)} (view : σ → α)
    (written : ω → Option α) {s t : σ} {es : List ε} {os : List ω}
    (hrun : runSchedule step s es = some (os, t))
    (hstep : ∀ o ∈ os, ∀ s e s', step s e = some (o, s') →
      view s' = (written o).getD (view s)) :
    view t = (os.filterMap written).getLast?.getD (view s) := by
  induction es generalizing s os with
  | nil =>
    cases hrun
    rfl
  | cons e es ih =>
    obtain ⟨o, s', os', hfirst, hrest, rfl⟩ := (runSchedule_cons_iff step s t e es os).mp hrun
    have hview := hstep o List.mem_cons_self s e s' hfirst
    rw [ih hrest fun later hlater => hstep later (List.mem_cons_of_mem o hlater), hview]
    cases hwritten : written o with
    | none => simp only [List.filterMap_cons, hwritten, Option.getD_none]
    | some a => simp only [List.filterMap_cons, hwritten, List.getLast?_cons, Option.getD_some]

/-- What matching observations contribute can be computed from the events alone. -/
theorem flatMap_eq_zip_flatMap {β : Type*} {shown : ω → List β} {expected : ε → ω → List β}
    {es : List ε} {os : List ω} (h : List.Forall₂ (fun e o => shown o = expected e o) es os) :
    os.flatMap shown = (es.zip os).flatMap fun entry => expected entry.1 entry.2 := by
  induction h with
  | nil => rfl
  | cons hhead _ ih => rw [List.flatMap_cons, List.zip_cons_cons, List.flatMap_cons, ih, hhead]

/-- Two systems whose steps match under a relation show related observations on the same
schedule and stay related. -/
theorem runSchedule_simulation {step₁ : σ₁ → ε → Option (ω₁ × σ₁)}
    {step₂ : σ₂ → ε → Option (ω₂ × σ₂)} (R : σ₁ → σ₂ → Prop) (O : ω₁ → ω₂ → Prop)
    (hstep : ∀ s₁ s₂ e o₁ s₁', R s₁ s₂ → step₁ s₁ e = some (o₁, s₁') →
      ∃ o₂ s₂', step₂ s₂ e = some (o₂, s₂') ∧ O o₁ o₂ ∧ R s₁' s₂')
    {s₁ t₁ : σ₁} {s₂ : σ₂} {es : List ε} {os₁ : List ω₁} (hs : R s₁ s₂)
    (hrun : runSchedule step₁ s₁ es = some (os₁, t₁)) :
    ∃ os₂ t₂, runSchedule step₂ s₂ es = some (os₂, t₂) ∧ List.Forall₂ O os₁ os₂ ∧ R t₁ t₂ := by
  induction es generalizing s₁ s₂ os₁ with
  | nil =>
    cases hrun
    exact ⟨[], s₂, rfl, List.Forall₂.nil, hs⟩
  | cons e es ih =>
    obtain ⟨o₁, s₁', os₁', hfirst, hrest, rfl⟩ :=
      (runSchedule_cons_iff step₁ s₁ t₁ e es os₁).mp hrun
    obtain ⟨o₂, s₂', hfirst₂, hO, hR⟩ := hstep s₁ s₂ e o₁ s₁' hs hfirst
    obtain ⟨os₂, t₂, hrest₂, hO', hR'⟩ := ih hR hrest
    exact ⟨o₂ :: os₂, t₂, (runSchedule_cons_iff step₂ s₂ t₂ e es _).mpr
      ⟨o₂, s₂', os₂, hfirst₂, hrest₂, rfl⟩, List.Forall₂.cons hO hO', hR'⟩

/-- A system whose steps are steps of another one on an abstraction of the state, or nothing
there: its schedules lead where schedules of the other one lead. -/
theorem runSchedule_abstraction {ε₁ ε₂ : Type*} {step₁ : σ₁ → ε₁ → Option (ω₁ × σ₁)}
    {step₂ : σ₂ → ε₂ → Option (ω₂ × σ₂)} (abstract : σ₁ → σ₂)
    (hstep : ∀ s e o s', step₁ s e = some (o, s') → abstract s' = abstract s ∨
      ∃ e' o', step₂ (abstract s) e' = some (o', abstract s'))
    {s t : σ₁} {es : List ε₁} {os : List ω₁} (hrun : runSchedule step₁ s es = some (os, t)) :
    ∃ es' os', runSchedule step₂ (abstract s) es' = some (os', abstract t) := by
  induction es generalizing s os with
  | nil =>
    cases hrun
    exact ⟨[], [], rfl⟩
  | cons e es ih =>
    obtain ⟨o, s', os', hfirst, hrest, rfl⟩ := (runSchedule_cons_iff step₁ s t e es os).mp hrun
    obtain ⟨later, more, hlater⟩ := ih hrest
    rcases hstep s e o s' hfirst with hsame | ⟨e', o', hmove⟩
    · rw [hsame] at hlater
      exact ⟨later, more, hlater⟩
    · exact ⟨e' :: later, o' :: more, (runSchedule_cons_iff step₂ _ _ e' later _).mpr
        ⟨o', _, more, hmove, hlater, rfl⟩⟩

end Foundations
