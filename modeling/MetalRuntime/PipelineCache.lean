import MetalRuntime.CachedBuilds
import MetalRuntime.Specialization

/-!
# The pipeline cache

`pipeline_key`, and `pipeline_for` as an instance of the protocol of a cache filled outside
its lock. A hit skips every check that a fresh build makes. It may do so because the key
determines the name and the constants up to bytes that nothing reads, so requests with one
key have one fresh outcome.
-/

namespace MetalRuntime

open Foundations

/-- What the loop of `pipeline_key` appends for one byte of a scalar. -/
def byteKey (b : UInt8) : ByteString := decimal b.toNat ++ ascii ","

/-- What `pipeline_key` appends for a value; the loop over a scalar's bytes stops at its
size. -/
def valueKey : ConstantValue → ByteString
  | .bool value => if value then ascii "B1" else ascii "B0"
  | .int value => ascii "I" ++ signedDecimal value.toInt
  | .double bits => ascii "F" ++ decimal bits.toNat
  | .exact scalar => ascii "E" ++ decimal scalar.dtype.code.toNat ++ ascii "." ++
      decimal scalar.dtype.bits.toNat ++ ascii ":" ++
      (scalar.bytes.take scalar.dtype.itemsize).flatMap byteKey

/-- What the loop of `pipeline_key` appends for one constant. -/
def constantKey (c : FunctionConstant) : ByteString :=
  ascii ";" ++ lengthPrefixed c.name ++ ascii "=" ++ valueKey c.value

/-- `pipeline_key`. -/
def pipelineKey (name : ByteString) (constants : List FunctionConstant) : ByteString :=
  lengthPrefixed name ++ constants.flatMap constantKey

/-- Equally many bytes can be read back. -/
theorem byteKeys_append_inj {bytes others t u : ByteString} (hlength : bytes.length = others.length)
    (h : bytes.flatMap byteKey ++ t = others.flatMap byteKey ++ u) : bytes = others ∧ t = u := by
  induction bytes generalizing others with
  | nil =>
    cases List.length_eq_zero_iff.mp hlength.symm
    exact ⟨rfl, h⟩
  | cons b rest ih =>
    cases others with
    | nil => cases hlength
    | cons b' rest' =>
      have hcomma : ∀ text, StartsWithoutDigit (ascii "," ++ text) :=
        startsWithoutDigit_cons (by decide)
      simp only [List.flatMap_cons, byteKey, List.append_assoc] at h
      obtain ⟨hbyte, hrest⟩ := decimal_append_inj (hcomma _) (hcomma _) h
      obtain ⟨rfl, htail⟩ := ih (Nat.succ.inj hlength) (List.append_cancel_left hrest)
      rw [UInt8.toNat_inj.mp hbyte]
      exact ⟨rfl, htail⟩

/-- An exact scalar can be read back, up to the bytes beyond its size. -/
theorem exactKey_append_inj {scalar other : ExactScalar} {t u : ByteString}
    (h : valueKey (.exact scalar) ++ t = valueKey (.exact other) ++ u) :
    (ConstantValue.exact scalar).Same (.exact other) ∧ t = u := by
  have hdot : ∀ text, StartsWithoutDigit (ascii "." ++ text) := startsWithoutDigit_cons (by decide)
  have hcolon : ∀ text, StartsWithoutDigit (ascii ":" ++ text) :=
    startsWithoutDigit_cons (by decide)
  simp only [valueKey, List.append_assoc] at h
  obtain ⟨hcode, hrest⟩ := decimal_append_inj (hdot _) (hdot _) (List.append_cancel_left h)
  obtain ⟨hbits, htail⟩ := decimal_append_inj (hcolon _) (hcolon _)
    (List.append_cancel_left hrest)
  have hdtype : scalar.dtype = other.dtype :=
    DType.ext (UInt8.toNat_inj.mp hcode) (UInt8.toNat_inj.mp hbits)
  have hlength : (scalar.bytes.take scalar.dtype.itemsize).length =
      (other.bytes.take other.dtype.itemsize).length := by
    rw [List.length_take, List.length_take, scalar.length_bytes, other.length_bytes, hdtype]
  obtain ⟨hbytes, hend⟩ := byteKeys_append_inj hlength (List.append_cancel_left htail)
  exact ⟨⟨hdtype, hbytes⟩, hend⟩

/-- The first byte of what is appended for a value: the tag of its kind. -/
def valueTag : ConstantValue → UInt8
  | .bool _ => 66
  | .int _ => 73
  | .double _ => 70
  | .exact _ => 69

/-- What is appended for a value begins with its tag. -/
theorem valueKey_eq_cons (value : ConstantValue) :
    ∃ rest, valueKey value = valueTag value :: rest := by
  cases value with
  | bool b => cases b <;> exact ⟨_, rfl⟩
  | int v => exact ⟨_, rfl⟩
  | double bits => exact ⟨_, rfl⟩
  | exact scalar => exact ⟨_, rfl⟩

/-- A value can be read back from a text in which no digit follows it. -/
theorem valueKey_append_inj {value other : ConstantValue} {t u : ByteString}
    (ht : StartsWithoutDigit t) (hu : StartsWithoutDigit u)
    (h : valueKey value ++ t = valueKey other ++ u) : value.Same other ∧ t = u := by
  have htag : valueTag value = valueTag other := by
    obtain ⟨rest, hvalue⟩ := valueKey_eq_cons value
    obtain ⟨rest', hother⟩ := valueKey_eq_cons other
    rw [hvalue, hother] at h
    exact (List.cons.inj h).1
  cases value with
  | bool b =>
    cases other with
    | bool b' =>
      cases b <;> cases b' <;> first | exact ⟨rfl, List.append_cancel_left h⟩ | cases h
    | _ => exact absurd htag (by simp [valueTag])
  | int v =>
    cases other with
    | int v' =>
      simp only [valueKey, List.append_assoc] at h
      obtain ⟨hv, hrest⟩ := signedDecimal_append_inj ht hu (List.append_cancel_left h)
      rw [Int64.toInt_inj.mp hv]
      exact ⟨rfl, hrest⟩
    | _ => exact absurd htag (by simp [valueTag])
  | double bits =>
    cases other with
    | double bits' =>
      simp only [valueKey, List.append_assoc] at h
      obtain ⟨hbits, hrest⟩ := decimal_append_inj ht hu (List.append_cancel_left h)
      rw [UInt64.toNat_inj.mp hbits]
      exact ⟨rfl, hrest⟩
    | _ => exact absurd htag (by simp [valueTag])
  | exact scalar =>
    cases other with
    | exact scalar' => exact exactKey_append_inj h
    | _ => exact absurd htag (by simp [valueTag])

/-- A constant can be read back from a text in which no digit follows it. -/
theorem constantKey_append_inj {c other : FunctionConstant} {t u : ByteString}
    (ht : StartsWithoutDigit t) (hu : StartsWithoutDigit u)
    (h : constantKey c ++ t = constantKey other ++ u) : c.Same other ∧ t = u := by
  simp only [constantKey, List.append_assoc] at h
  obtain ⟨hname, hrest⟩ := lengthPrefixed_append_inj (List.append_cancel_left h)
  obtain ⟨hvalue, htail⟩ := valueKey_append_inj ht hu (List.append_cancel_left hrest)
  exact ⟨⟨hname, hvalue⟩, htail⟩

/-- The key of a pipeline determines the name and the constants, up to bytes that nothing
reads. -/
theorem pipelineKey_inj {name name' : ByteString} {constants constants' : List FunctionConstant}
    (h : pipelineKey name constants = pipelineKey name' constants') :
    name = name' ∧ List.Forall₂ FunctionConstant.Same constants constants' := by
  obtain ⟨hname, hconstants⟩ := lengthPrefixed_append_inj h
  exact ⟨hname, flatMap_append_inj (fun c => ⟨_, _, rfl, by decide⟩)
    (fun _ _ _ _ => constantKey_append_inj) hconstants⟩

/-- Values that nothing tells apart have the same text. -/
theorem valueKey_congr {value other : ConstantValue} (h : value.Same other) :
    valueKey value = valueKey other := by
  cases value with
  | exact scalar =>
    cases other with
    | exact scalar' =>
      obtain ⟨hdtype, hbytes⟩ := h
      rw [valueKey, valueKey, hbytes, hdtype]
    | _ => cases h
  | _ => exact congrArg valueKey h

/-- The same constants in the same order have the same key. -/
theorem pipelineKey_congr (name : ByteString) {constants others : List FunctionConstant}
    (h : List.Forall₂ FunctionConstant.Same constants others) :
    pipelineKey name constants = pipelineKey name others := by
  have htexts : constants.flatMap constantKey = others.flatMap constantKey := by
    induction h with
    | nil => rfl
    | cons hhead _ ih =>
      rw [List.flatMap_cons, List.flatMap_cons, ih, constantKey, constantKey, hhead.1,
        valueKey_congr hhead.2]
  rw [pipelineKey, pipelineKey, htexts]

variable {Function : Type}

/-- A request to `pipeline_for`. -/
structure PipelineRequest where
  name : ByteString
  constants : List FunctionConstant
  deriving DecidableEq

/-- The uncached path: specialize, then build the pipeline. -/
def buildPipeline (metal : MTLLibrary Function) (conversions : FloatConversions)
    (request : PipelineRequest) : Except Failure ComputePipeline := do
  let fn ← createSpecialized metal conversions request.name request.constants
  ComputePipeline.create metal fn request.name

/-- A build returns a pipeline or throws. -/
theorem buildPipeline_defined (metal : MTLLibrary Function) (conversions : FloatConversions)
    (request : PipelineRequest) : Defined (buildPipeline metal conversions request) :=
  (createSpecialized_defined metal conversions request.name request.constants).bind
    fun function _ => ComputePipeline.create_defined metal function request.name

/-- `pipeline_for` on one library as a builder. -/
def pipelineBuilder (metal : MTLLibrary Function) (conversions : FloatConversions) :
    Builder PipelineRequest Unit ComputePipeline where
  key := fun request => pipelineKey request.name request.constants
  build := fun request _ => buildPipeline metal conversions request

/-- Pipeline keys separate requests whose fresh outcomes differ. -/
theorem pipelineBuilder_separates (metal : MTLLibrary Function) (conversions : FloatConversions) :
    (pipelineBuilder metal conversions).Separates := by
  intro request other h
  obtain ⟨hname, hconstants⟩ := pipelineKey_inj h
  funext _
  change buildPipeline metal conversions request = buildPipeline metal conversions other
  rw [buildPipeline, buildPipeline, hname, createSpecialized_congr metal conversions _ hconstants]

/-- Over every schedule of `pipeline_for` calls on one library, with evictions of any kind,
each call ends exactly as the uncached path would end for its own request; and requests
that share a key have one name and the same constants. -/
theorem cached_pipelines_agree_with_fresh (metal : MTLLibrary Function)
    (conversions : FloatConversions) (limit : ℕ) {events : List (CacheEvent PipelineRequest Unit)}
    {observations : List (CacheShown PipelineRequest ComputePipeline)}
    {s : CacheSystem PipelineRequest ComputePipeline}
    (hrun : runSchedule (CacheSystem.step (pipelineBuilder metal conversions)) (.initial limit)
      events = some (observations, s)) :
    (∀ call request outcome, .ended call request outcome ∈ observations →
      ∃ id, outcome = (buildPipeline metal conversions request).map fun pipeline =>
        some ⟨id, pipeline⟩) ∧
    (∀ request other : PipelineRequest,
      pipelineKey request.name request.constants = pipelineKey other.name other.constants →
      request.name = other.name ∧
        List.Forall₂ FunctionConstant.Same request.constants other.constants) := by
  have hinitial := CacheSystem.initial_invariant (pipelineBuilder metal conversions) limit
  have hfaithful := CacheSystem.run_faithful (pipelineBuilder_separates metal conversions)
    hinitial hrun
  refine ⟨?_, fun request other h => pipelineKey_inj h⟩
  intro call request outcome hshown
  have hended := hfaithful _ hshown
  cases outcome with
  | ok returned =>
    obtain ⟨object, choice, rfl, hbuild⟩ := hended
    have hfresh : buildPipeline metal conversions request = .ok object.content := hbuild
    exact ⟨object.id, by rw [hfresh]; rfl⟩
  | error failure =>
    obtain ⟨choice, hbuild⟩ := hended
    have hfresh : buildPipeline metal conversions request = .error failure := hbuild
    exact ⟨0, by rw [hfresh]; rfl⟩

/-- A request for that function. -/
def scaleRequest : PipelineRequest := ⟨ascii "scale", [⟨ascii "k", .int 3⟩]⟩

/-- A call that hits ends as a fresh build would. -/
theorem cached_scale_agrees_with_fresh : ∃ observations s outcome,
    runSchedule (CacheSystem.step (pipelineBuilder scaleMetal hostConversions)) (.initial 128)
      [.lookup 0 scaleRequest, .build 0 (), .insert 0, .lookup 1 scaleRequest] =
      some (observations, s) ∧
    .ended 1 scaleRequest outcome ∈ observations ∧
    ∃ id, outcome = (buildPipeline scaleMetal hostConversions scaleRequest).map fun pipeline =>
      some ⟨id, pipeline⟩ := by
  have hrun : runSchedule (CacheSystem.step (pipelineBuilder scaleMetal hostConversions))
    (.initial 128) [.lookup 0 scaleRequest, .build 0 (), .insert 0, .lookup 1 scaleRequest] =
    some (_, _) := rfl
  obtain ⟨hagree, -⟩ := cached_pipelines_agree_with_fresh scaleMetal hostConversions 128 hrun
  exact ⟨_, _, _, hrun,
    List.mem_cons_of_mem _ (List.mem_cons_of_mem _ (List.mem_cons_of_mem _ List.mem_cons_self)),
    hagree 1 scaleRequest _ (List.mem_cons_of_mem _ (List.mem_cons_of_mem _
      (List.mem_cons_of_mem _ List.mem_cons_self)))⟩

end MetalRuntime
