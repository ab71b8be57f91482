import MetalRuntime.Values

/-!
# Exceptions at the two language boundaries

No exception leaves the runtime as one. `mr_guard` of the C API turns it into a status and tries
its handlers from the first to the last; the Python module turns it into a Python exception and
tries the translators from the last one registered to the first. A handler takes every class that
is derived from its own.
-/

namespace MetalRuntime

open Foundations

/-- The exception classes of `errors.h`, with those of the standard library that the runtime
throws or derives from. -/
inductive ExceptionClass
  | exception
  | logicError
  | invalidArgument
  | outOfRange
  | lengthError
  | runtimeError
  | metalError
  | noDeviceError
  | mslCompileError
  | mslFunctionNotFoundError
  | pipelineBuildError
  | dispatchError
  | captureError
  | allocationError
  deriving DecidableEq

/-- The class that a class is derived from. -/
def ExceptionClass.base : ExceptionClass → Option ExceptionClass
  | .exception => none
  | .logicError | .runtimeError => some .exception
  | .invalidArgument | .outOfRange | .lengthError => some .logicError
  -- An `AllocationError` is a `MemoryError` in Python, so not a `MetalError`.
  | .metalError | .allocationError => some .runtimeError
  | .noDeviceError | .mslCompileError | .dispatchError | .captureError => some .metalError
  | .mslFunctionNotFoundError | .pipelineBuildError => some .mslCompileError

/-- A class with its bases, the nearest first, up to a number of them. -/
def ExceptionClass.basesWithin : ℕ → ExceptionClass → List ExceptionClass
  | 0, cls => [cls]
  | count + 1, cls => cls :: cls.base.elim [] (basesWithin count)

/-- A class with its bases; none has more than four. -/
def ExceptionClass.bases (cls : ExceptionClass) : List ExceptionClass := cls.basesWithin 4

/-- What the first handler that takes the class does. -/
def firstHandler {β : Type} (handlers : List (ExceptionClass × β)) (cls : ExceptionClass) :
    Option β :=
  (handlers.find? fun handler => handler.1 ∈ cls.bases).map Prod.snd

/-- The class of what a call throws; undefined behaviour throws nothing. -/
def Failure.exceptionClass : Failure → Option ExceptionClass
  | .invalidArgument _ => some .invalidArgument
  | .noDevice _ => some .noDeviceError
  | .dispatchError _ => some .dispatchError
  | .compileError _ => some .mslCompileError
  | .functionNotFound _ => some .mslFunctionNotFoundError
  | .pipelineBuild _ => some .pipelineBuildError
  | .allocation _ => some .allocationError
  | .outOfRange => some .outOfRange
  | .lengthError => some .lengthError
  | .undefinedBehavior => none

/-- `what()`, given the texts of the standard library. -/
def Failure.what (standardText : ExceptionClass → ByteString) : Failure → ByteString
  | .invalidArgument what => what
  | .noDevice what => what
  | .dispatchError what => what
  | .compileError what => what
  | .functionNotFound what => what
  | .pipelineBuild what => what
  | .allocation what => what
  | .outOfRange => standardText .outOfRange
  | .lengthError => standardText .lengthError
  | .undefinedBehavior => []

/-- `MRStatus`. -/
inductive MRStatus
  | ok
  | errorNoDevice
  | errorCompile
  | errorFunctionNotFound
  | errorDispatch
  | errorInvalidArgument
  | errorUnknown
  | errorAllocation
  deriving DecidableEq

/-- The handlers of `mr_guard`. -/
def mrGuardHandlers : List (ExceptionClass × MRStatus) :=
  [(.mslFunctionNotFoundError, .errorFunctionNotFound),
    (.mslCompileError, .errorCompile),
    (.dispatchError, .errorDispatch),
    (.noDeviceError, .errorNoDevice),
    (.allocationError, .errorAllocation),
    (.invalidArgument, .errorInvalidArgument),
    (.exception, .errorUnknown)]

/-- What an entry point gives back: its status, and what `set_error` is called with. -/
structure MRResult where
  status : MRStatus
  errMsg : Option ByteString
  deriving DecidableEq

/-- `mr_guard`; there is no result if the body has undefined behaviour or nothing takes what it
throws. -/
def mrGuard {α : Type} (standardText : ExceptionClass → ByteString) :
    Except Failure α → Option MRResult
  | .ok _ => some ⟨.ok, none⟩
  | .error failure => do
    let cls ← failure.exceptionClass
    let status ← firstHandler mrGuardHandlers cls
    some ⟨status, some (failure.what standardText)⟩

/-- The Python exceptions that the module raises for exceptions of the runtime. -/
inductive PyExceptionClass
  | metalError
  | deviceError
  | compileError
  | functionNotFoundError
  | pipelineBuildError
  | dispatchError
  | captureError
  | memoryError
  | valueError
  | indexError
  | runtimeError
  deriving DecidableEq

/-- The translator that nanobind registers before the module's own. -/
def defaultTranslators : List (ExceptionClass × PyExceptionClass) :=
  [(.invalidArgument, .valueError), (.lengthError, .valueError), (.outOfRange, .indexError),
    (.exception, .runtimeError)]

/-- The translators of the module in the order in which it registers them. -/
def registeredTranslators : List (ExceptionClass × PyExceptionClass) :=
  [(.metalError, .metalError),
    (.noDeviceError, .deviceError),
    (.mslCompileError, .compileError),
    (.mslFunctionNotFoundError, .functionNotFoundError),
    (.pipelineBuildError, .pipelineBuildError),
    (.dispatchError, .dispatchError),
    (.captureError, .captureError),
    (.allocationError, .memoryError)]

/-- The Python exception for a class: the most recent translator is tried first. -/
def pyException (cls : ExceptionClass) : Option PyExceptionClass :=
  firstHandler (registeredTranslators.reverse ++ defaultTranslators) cls

end MetalRuntime
