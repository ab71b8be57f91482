import MetalRuntime.ArrayBuffers
import MetalRuntime.BatchProtocol
import MetalRuntime.BatchBudget
import MetalRuntime.BufferSizes
import MetalRuntime.LibraryCache
import MetalRuntime.ParsedConstants
import MetalRuntime.WrapPaths
import MetalRuntime.DefaultThreadgroup
import MetalRuntime.ArgumentTables
import MetalRuntime.PageRounding
import MetalRuntime.LruInclusion
import MetalRuntime.NumpyScalars
import MetalRuntime.IntegerConstants
import MetalRuntime.ConstantValidation
import MetalRuntime.Capture
import MetalRuntime.PinRelease
import MetalRuntime.RelabelledBuffers
import MetalRuntime.ArrayLifetimes
import MetalRuntime.SourceAssembly
import MetalRuntime.BatchExecution
import MetalRuntime.BatchBlocks
import MetalRuntime.CaptureBlocks
import MetalRuntime.CommandQueue
import MetalRuntime.CSessionContract
import MetalRuntime.CSessionMemory
import MetalRuntime.FrontEnds
import MetalRuntime.CacheReuse
import MetalRuntime.DispatchedThreads
import MetalRuntime.KernelConstruction
import MetalRuntime.LockOrder
import MetalRuntime.WaitOutcomes
