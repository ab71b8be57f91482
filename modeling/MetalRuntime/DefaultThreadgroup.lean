import MetalRuntime.Foundations.CheckedWords
import MetalRuntime.LaunchValidity

/-!
# When the default threadgroup is acceptable

The default spends the kernel's ceiling greedily, one dimension after another. Each
dimension is clamped to 1, so every divisor is at least 1, and a quotient times its divisor
stays within the ceiling. On a one-dimensional grid the SIMD width is cut down to the
ceiling; on the other grids it is not, and `defaultThreadgroup_acceptable_iff` says exactly
when the width taken along `x` goes over it.
-/

namespace MetalRuntime

open Foundations

/-- `default_threadgroup` with every division and product checked. -/
def ComputePipeline.checkedDefaultThreadgroup (p : ComputePipeline) (grid : Dim3) :
    Option Dim3 := do
  let maxTotal := max p.maxThreadsPerThreadgroup 1
  let width := max p.threadExecutionWidth 1
  if grid.y ≤ 1 ∧ grid.z ≤ 1 then
    let groups ← checkedDiv maxTotal width
    let total ← checkedMul groups width
    let total := if total = 0 then maxTotal else total
    some { x := max (min grid.x total) 1 }
  else
    let x := max (min grid.x width) 1
    let rows ← checkedDiv maxTotal x
    let y := max (min grid.y rows) 1
    let plane ← checkedMul x y
    let planes ← checkedDiv maxTotal plane
    let z := max (min grid.z planes) 1
    some { x, y, z }

/-- A grid with no zero component. -/
def Dim3.Nonzero (d : Dim3) : Prop := 1 ≤ d.x.toNat ∧ 1 ≤ d.y.toNat ∧ 1 ≤ d.z.toNat

instance (d : Dim3) : Decidable d.Nonzero := inferInstanceAs (Decidable (_ ∧ _))

/-- The grid is one-dimensional, or the width that the default takes along `x` is within the
kernel's ceiling. -/
def ComputePipeline.WidthFits (p : ComputePipeline) (grid : Dim3) : Prop :=
  (grid.y ≤ 1 ∧ grid.z ≤ 1) ∨
    min grid.x.toNat p.threadExecutionWidth.toNat ≤ p.maxThreadsPerThreadgroup.toNat

instance (p : ComputePipeline) (grid : Dim3) : Decidable (p.WidthFits grid) :=
  inferInstanceAs (Decidable (_ ∨ _))

/-- A clamped minimum, as natural numbers. -/
private theorem toNat_clamp (a b : SizeT) :
    (max (min a b) 1).toNat = max (min a.toNat b.toNat) 1 := by
  rw [UInt64.toNat_max, UInt64.toNat_min, UInt64.toNat_one]

/-- A positive word is not raised by the lower bound 1. -/
private theorem max_one_of_pos {a : SizeT} (ha : 1 ≤ a.toNat) : max a 1 = a := by
  apply UInt64.toNat_inj.mp
  rw [UInt64.toNat_max, UInt64.toNat_one]
  omega

/-- A clamped minimum is at least 1, and at most a positive first argument. -/
private theorem clamp_within {a : SizeT} (ha : 1 ≤ a.toNat) (b : SizeT) :
    1 ≤ (max (min a b) 1).toNat ∧ (max (min a b) 1).toNat ≤ a.toNat := by
  rw [toNat_clamp]
  omega

/-- Spending a quotient: a divisor within the ceiling times its clamped quotient stays
within the ceiling, and a divisor over the ceiling is multiplied by 1. -/
private theorem mul_clamp_le {limit used : ℕ} (extent : ℕ) (hused : 1 ≤ used) :
    used * max (min extent (limit / used)) 1 ≤ max limit used := by
  by_cases hle : used ≤ limit
  · have hquotient : 1 ≤ limit / used := (Nat.one_le_div_iff hused).mpr hle
    have hclamp : max (min extent (limit / used)) 1 ≤ limit / used := by omega
    calc used * max (min extent (limit / used)) 1
        ≤ used * (limit / used) := Nat.mul_le_mul_left used hclamp
      _ ≤ limit := Nat.mul_div_le limit used
      _ ≤ max limit used := le_max_left limit used
  · have hquotient : limit / used = 0 := Nat.div_eq_of_lt (Nat.lt_of_not_le hle)
    rw [hquotient, Nat.min_zero, max_eq_right (Nat.zero_le 1), Nat.mul_one]
    exact le_max_right limit used

section Limits

variable {p : ComputePipeline} {grid : Dim3}

/-- One-dimensional grids: whole SIMD groups within the ceiling, or the ceiling itself. -/
private theorem defaultThreadgroup_line (hwidth : 1 ≤ p.threadExecutionWidth.toNat)
    (hmax : 1 ≤ p.maxThreadsPerThreadgroup.toNat) (hline : grid.y ≤ 1 ∧ grid.z ≤ 1) :
    (p.maxThreadsPerThreadgroup / p.threadExecutionWidth).toNat *
        p.threadExecutionWidth.toNat < wordSize ∧
      ∃ total : SizeT, total.toNat ≤ p.maxThreadsPerThreadgroup.toNat ∧
        p.defaultThreadgroup grid = { x := max (min grid.x total) 1 } := by
  have hgroups := Nat.div_mul_le_self p.maxThreadsPerThreadgroup.toNat
    p.threadExecutionWidth.toNat
  have hfits : (p.maxThreadsPerThreadgroup / p.threadExecutionWidth).toNat *
      p.threadExecutionWidth.toNat < wordSize := by
    rw [UInt64.toNat_div]
    exact lt_of_le_of_lt hgroups (toNat_lt_wordSize _)
  refine ⟨hfits, ?_⟩
  simp only [ComputePipeline.defaultThreadgroup, max_one_of_pos hmax, max_one_of_pos hwidth,
    if_pos hline]
  refine ⟨_, ?_, rfl⟩
  split
  · exact le_refl _
  · rwa [toNat_mul_of_lt hfits, UInt64.toNat_div]

/-- The other grids: the width along `x`, then what is left of the ceiling on `y` and `z`. -/
private theorem defaultThreadgroup_plane (hgrid : grid.Nonzero)
    (hmax : 1 ≤ p.maxThreadsPerThreadgroup.toNat) (hwidth : 1 ≤ p.threadExecutionWidth.toNat)
    {tg : Dim3} (htg : p.defaultThreadgroup grid = tg) (hline : ¬ (grid.y ≤ 1 ∧ grid.z ≤ 1)) :
    tg.x.toNat = min grid.x.toNat p.threadExecutionWidth.toNat ∧
      tg.y = max (min grid.y (p.maxThreadsPerThreadgroup / tg.x)) 1 ∧
      tg.z = max (min grid.z (p.maxThreadsPerThreadgroup / (tg.x * tg.y))) 1 := by
  obtain ⟨hx, -, -⟩ := hgrid
  subst htg
  simp only [ComputePipeline.defaultThreadgroup, max_one_of_pos hmax, max_one_of_pos hwidth,
    if_neg hline, toNat_clamp, and_self, and_true]
  omega

/-- The plane of the first two dimensions is within the ceiling or no larger than the first
dimension, so its product does not wrap. -/
private theorem toNat_plane {x y : SizeT} (hx : 1 ≤ x.toNat)
    (hy : y = max (min grid.y (p.maxThreadsPerThreadgroup / x)) 1) :
    x.toNat * y.toNat ≤ max p.maxThreadsPerThreadgroup.toNat x.toNat ∧
      (x * y).toNat = x.toNat * y.toNat := by
  have hle : x.toNat * y.toNat ≤ max p.maxThreadsPerThreadgroup.toNat x.toNat := by
    rw [hy, toNat_clamp, UInt64.toNat_div]
    exact mul_clamp_le _ hx
  have hceiling := toNat_lt_wordSize p.maxThreadsPerThreadgroup
  have hfirst := toNat_lt_wordSize x
  refine ⟨hle, toNat_mul_of_lt ?_⟩
  omega

/-- Each dimension is at least 1 and at most the grid's. -/
theorem defaultThreadgroup_within (p : ComputePipeline) (hgrid : grid.Nonzero) :
    (p.defaultThreadgroup grid).Nonzero ∧
      (p.defaultThreadgroup grid).x.toNat ≤ grid.x.toNat ∧
      (p.defaultThreadgroup grid).y.toNat ≤ grid.y.toNat ∧
      (p.defaultThreadgroup grid).z.toNat ≤ grid.z.toNat := by
  obtain ⟨hx, hy, hz⟩ := hgrid
  unfold ComputePipeline.defaultThreadgroup
  by_cases hline : grid.y ≤ 1 ∧ grid.z ≤ 1
  · rw [if_pos hline]
    have hclamp := clamp_within hx
    exact ⟨⟨(hclamp _).1, le_refl 1, le_refl 1⟩, (hclamp _).2, hy, hz⟩
  · rw [if_neg hline]
    exact ⟨⟨(clamp_within hx _).1, (clamp_within hy _).1, (clamp_within hz _).1⟩,
      (clamp_within hx _).2, (clamp_within hy _).2, (clamp_within hz _).2⟩

/-- No division by zero and no wrapping product: the checked computation returns what
`default_threadgroup` returns. -/
theorem checkedDefaultThreadgroup_eq (hgrid : grid.Nonzero)
    (hmax : 1 ≤ p.maxThreadsPerThreadgroup.toNat) (hwidth : 1 ≤ p.threadExecutionWidth.toNat) :
    p.checkedDefaultThreadgroup grid = some (p.defaultThreadgroup grid) := by
  by_cases hline : grid.y ≤ 1 ∧ grid.z ≤ 1
  · obtain ⟨hfits, -⟩ := defaultThreadgroup_line hwidth hmax hline
    simp only [ComputePipeline.checkedDefaultThreadgroup, ComputePipeline.defaultThreadgroup,
      max_one_of_pos hmax, max_one_of_pos hwidth, if_pos hline, checkedDiv_bind _ _ hwidth,
      checkedMul_bind _ hfits]
  · obtain ⟨⟨hx, hy, -⟩, -⟩ := defaultThreadgroup_within p hgrid
    obtain ⟨-, hrows, -⟩ := defaultThreadgroup_plane hgrid hmax hwidth rfl hline
    obtain ⟨-, hplane⟩ := toNat_plane hx hrows
    have hfits := toNat_lt_wordSize
      ((p.defaultThreadgroup grid).x * (p.defaultThreadgroup grid).y)
    have hpositive := Nat.mul_pos hx hy
    rw [hplane] at hfits
    rw [← hplane] at hpositive
    simp only [ComputePipeline.checkedDefaultThreadgroup, ComputePipeline.defaultThreadgroup,
      max_one_of_pos hmax, max_one_of_pos hwidth, if_neg hline] at hx hfits hpositive ⊢
    rw [checkedDiv_bind _ _ hx, checkedMul_bind _ hfits, checkedDiv_bind _ _ hpositive]

/-- The threads of the default threadgroup, in exact arithmetic, are within the ceiling
exactly when the SIMD width taken along `x` is. -/
theorem defaultThreadgroup_threads_le_iff (hgrid : grid.Nonzero)
    (hmax : 1 ≤ p.maxThreadsPerThreadgroup.toNat) (hwidth : 1 ≤ p.threadExecutionWidth.toNat) :
    (p.defaultThreadgroup grid).x.toNat * (p.defaultThreadgroup grid).y.toNat *
        (p.defaultThreadgroup grid).z.toNat ≤ p.maxThreadsPerThreadgroup.toNat ↔
      p.WidthFits grid := by
  by_cases hline : grid.y ≤ 1 ∧ grid.z ≤ 1
  · obtain ⟨-, total, htotal, htg⟩ := defaultThreadgroup_line hwidth hmax hline
    refine iff_of_true ?_ (Or.inl hline)
    rw [htg, toNat_clamp, UInt64.toNat_one, Nat.mul_one, Nat.mul_one]
    omega
  · obtain ⟨⟨hx, hy, hz⟩, -⟩ := defaultThreadgroup_within p hgrid
    obtain ⟨hwide, hrows, hplanes⟩ := defaultThreadgroup_plane hgrid hmax hwidth rfl hline
    obtain ⟨hle, hplane⟩ := toNat_plane hx hrows
    generalize p.defaultThreadgroup grid = tg at *
    have hvolume : tg.x.toNat * tg.y.toNat * tg.z.toNat ≤
        max p.maxThreadsPerThreadgroup.toNat (tg.x.toNat * tg.y.toNat) := by
      rw [hplanes, toNat_clamp, UInt64.toNat_div, hplane]
      exact mul_clamp_le _ (Nat.mul_pos hx hy)
    have hfirst : tg.x.toNat ≤ tg.x.toNat * tg.y.toNat := Nat.le_mul_of_pos_right _ hy
    have hfirstTwo : tg.x.toNat * tg.y.toNat ≤ tg.x.toNat * tg.y.toNat * tg.z.toNat :=
      Nat.le_mul_of_pos_right _ hz
    rw [ComputePipeline.WidthFits, or_iff_right hline, ← hwide]
    constructor
    · intro hthreads
      exact (hfirst.trans hfirstTwo).trans hthreads
    · intro hfits
      omega

end Limits

/-- What the runtime promises of a threadgroup that it chooses itself: its computation is
exact, each dimension is within the grid, the threads are within the kernel's ceiling, and
on a device with non-uniform threadgroups `validate` decides about the launch as it would
with the smallest threadgroup. -/
structure AcceptableDefault (p : ComputePipeline) (grid : Dim3) : Prop where
  exact : p.checkedDefaultThreadgroup grid = some (p.defaultThreadgroup grid)
  within : (p.defaultThreadgroup grid).Nonzero ∧
    (p.defaultThreadgroup grid).x.toNat ≤ grid.x.toNat ∧
    (p.defaultThreadgroup grid).y.toNat ≤ grid.y.toNat ∧
    (p.defaultThreadgroup grid).z.toNat ≤ grid.z.toNat
  threads : (p.defaultThreadgroup grid).x.toNat * (p.defaultThreadgroup grid).y.toNat *
    (p.defaultThreadgroup grid).z.toNat ≤ p.maxThreadsPerThreadgroup.toNat
  accepted : p.maxThreadsPerThreadgroup.toNat ≤ 2 ^ 21 →
    ∀ (launch : Launch) (budget : SizeT), launch.pipeline = some p →
      launch.indirectGrid = none → launch.grid = grid →
      launch.threadgroup = p.defaultThreadgroup grid →
      checkThreadgroup launch p = .ok () ∧ checkDispatch launch true = .ok () ∧
        validate launch true budget = validate { launch with threadgroup := {} } true budget

/-- With non-uniform threadgroups, the last check does not reject a direct grid. -/
theorem checkDispatch_nonUniform {launch : Launch} (h : launch.indirectGrid = none) :
    checkDispatch launch true = .ok () := by
  simp [checkDispatch, h]

/-- A launch whose threadgroup passes the checks on it is decided by the other checks. -/
theorem validate_eq_of_threadgroup {launch : Launch} {p : ComputePipeline}
    (hpipeline : launch.pipeline = some p) (hdirect : launch.indirectGrid = none)
    (hthreadgroup : checkThreadgroup launch p = .ok ()) (budget : SizeT) :
    validate launch true budget = (do
      checkGrid launch
      checkBindings launch p
      checkThreadgroupMemory launch p budget
      checkScalars launch p
      checkBufferOffsets launch) := by
  have hlast (x : Except Failure Unit) : (x >>= fun _ => .ok ()) = x := by
    cases x <;> rfl
  simp only [validate, hpipeline, hthreadgroup, checkDispatch_nonUniform hdirect, hlast]
  rfl

/-- The default threadgroup is acceptable exactly when the width taken along `x` is within
the kernel's ceiling, or the grid is one-dimensional and the width is cut down to it. -/
theorem defaultThreadgroup_acceptable_iff {p : ComputePipeline} {grid : Dim3}
    (hgrid : grid.Nonzero) (hmax : 1 ≤ p.maxThreadsPerThreadgroup.toNat)
    (hwidth : 1 ≤ p.threadExecutionWidth.toNat) :
    AcceptableDefault p grid ↔ p.WidthFits grid := by
  have hthreads := defaultThreadgroup_threads_le_iff hgrid hmax hwidth
  constructor
  · intro hacceptable
    exact hthreads.mp hacceptable.threads
  · intro hfits
    have hwithin := defaultThreadgroup_within p hgrid
    refine ⟨checkedDefaultThreadgroup_eq hgrid hmax hwidth, hwithin, hthreads.mpr hfits, ?_⟩
    intro hceiling launch budget hpipeline hdirect _ htg
    have hchosen : checkThreadgroup launch p = .ok () := by
      rw [checkThreadgroup_eq_ok launch p hceiling, htg]
      exact ⟨hwithin.1, hthreads.mpr hfits⟩
    have hsmallest : checkThreadgroup { launch with threadgroup := {} } p = .ok () := by
      rw [checkThreadgroup_eq_ok _ p hceiling]
      exact ⟨⟨Nat.one_pos, Nat.one_pos, Nat.one_pos⟩, hmax⟩
    refine ⟨hchosen, checkDispatch_nonUniform hdirect, ?_⟩
    rw [validate_eq_of_threadgroup hpipeline hdirect hchosen]
    exact (@validate_eq_of_threadgroup { launch with threadgroup := {} } p hpipeline hdirect
      hsmallest budget).symm

/-- On a square of elements, that kernel gets one SIMD group along `x` and rows up to its
ceiling. -/
theorem addOnePipeline_default_acceptable : AcceptableDefault addOnePipeline ⟨512, 512, 1⟩ :=
  (defaultThreadgroup_acceptable_iff (by decide) (by decide) (by decide)).mpr (by decide)

/-- A kernel annotated with a maximum of 16 threads in a threadgroup, half a SIMD group. -/
def narrowPipeline : ComputePipeline where
  pipeline := ⟨2, 16, 32, 0⟩
  label := ascii "narrow"
  bufferBindings := []
  threadgroupBindings := []

/-- A launch of that kernel over two rows, with the threadgroup the runtime chooses. -/
def narrowLaunch : Launch where
  pipeline := some narrowPipeline
  grid := { x := 64, y := 2 }
  threadgroup := narrowPipeline.defaultThreadgroup { x := 64, y := 2 }

/-- The default for the two rows is one SIMD group of 32 threads, and `validate` rejects the
launch for it. -/
theorem narrow_default_rejected :
    (narrowLaunch.grid.Nonzero ∧ 1 ≤ narrowPipeline.maxThreadsPerThreadgroup.toNat ∧
      1 ≤ narrowPipeline.threadExecutionWidth.toNat) ∧
    ¬ AcceptableDefault narrowPipeline narrowLaunch.grid ∧
    validate narrowLaunch true 32768 = .error (.invalidArgument
      (ascii "dispatch: threadgroup (32, 1, 1) has 32 threads, " ++
        ascii "but this kernel supports at most 16 per threadgroup")) := by
  refine ⟨by decide, ?_, by decide⟩
  intro hacceptable
  exact absurd hacceptable.threads (by decide)

end MetalRuntime
