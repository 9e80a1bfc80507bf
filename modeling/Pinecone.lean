import Pinecone.GuestRam
import Pinecone.Stage1Walk
import Pinecone.SwiftWalk
import Pinecone.Runs
import Pinecone.TranslationSoundness
import Pinecone.GuestMemory
import Pinecone.HotWriteRaceSafety
import Pinecone.DirtySteps
import Pinecone.DirtyScansSoundness
import Pinecone.PinnedWalk
import Pinecone.CooperativeCpus
import Pinecone.CooperativeTranslations
import Pinecone.ExceptionBanks
import Pinecone.ExceptionBanksAgreement
import Pinecone.ArmArithmetic
import Pinecone.IntegerExecutor
import Pinecone.NativeArithmetic
import Pinecone.ArmDataProcessing
import Pinecone.DataProcessingSemantics
import Pinecone.BitfieldSemantics
import Pinecone.RegisterSemantics
import Pinecone.MultiplySemantics
import Pinecone.ArmEncodings
import Pinecone.BitFields
import Pinecone.InstructionDecoder
import Pinecone.DecoderFields
import Pinecone.DecodedDataProcessing
import Pinecone.DecodedLoadStores
import Pinecone.DecoderSoundness
import Pinecone.DecodedExecution
import Pinecone.Fallible
import Pinecone.NativeCallbacks
import Pinecone.NativeExecutor
import Pinecone.PreciseFaults
import Pinecone.FaultPrecision
import Pinecone.FastSystemCallbacks
import Pinecone.El0Confinement
import Pinecone.El0Execution
import Pinecone.FramePresentation
import Pinecone.FramePresentationSoundness
import Pinecone.AssemblyRetention
import Pinecone.AssemblyRetentionInvariant
import Pinecone.AssemblyRetentionSoundness
import Pinecone.AssemblyRetentionRuns
import Pinecone.BlockCache
import Pinecone.BlockDecode
import Pinecone.BlockLookup
import Pinecone.BlockPageIndex
import Pinecone.BlockCacheIndex
import Pinecone.BlockCacheSoundness
import Pinecone.BlockInstall
import Pinecone.BlockLookupSoundness
import Pinecone.BlockCacheRuns
import Pinecone.BlockOutside
import Pinecone.SpeculativeFetch
import Pinecone.GenericTimers
import Pinecone.VirtualCpus
import Pinecone.FileBlockStorage
import Pinecone.VirtioDevices
import Pinecone.FallibleMoves
import Pinecone.VirtioServing
import Pinecone.NetworkReceive
import Pinecone.ConditionalRuns
import Pinecone.LinkLocalFlows
import Pinecone.LinkLocalSteps
import Pinecone.FlowUpload
import Pinecone.FlowDownload
import Pinecone.FlowHandover
import Pinecone.GpuResourceAccess
import Pinecone.GpuQueues
import Pinecone.GpuSchedules
import Pinecone.GpuScheduling
import Pinecone.GpuBacking
import Pinecone.GpuTransfers
import Pinecone.Paravirtual2D
import Pinecone.Paravirtual2DExecution
import Pinecone.RectangleCopies
import Pinecone.BackingCopies
import Pinecone.DirtyBackings
import Pinecone.StatefulErrors
import Pinecone.TransferCopies
import Pinecone.MirrorCopies
import Pinecone.InterruptController
import Pinecone.InterruptSources
import Pinecone.InterruptSafety
import Pinecone.DeviceInterrupts
import Pinecone.InterruptLevels
import Pinecone.VirtualGic
import Pinecone.BankedGic
import Pinecone.GicRefinement
import Pinecone.GicRegisters
import Pinecone.GicAccesses
import Pinecone.NetworkCalls
import Pinecone.NetworkLock
import Pinecone.NetworkLockSafety
import Pinecone.DamageLog
import Pinecone.DamageRectangles
import Pinecone.FrameFlush
import Pinecone.FrameSlots
import Pinecone.FrameDamage
import Pinecone.FrameSlotSafety
import Pinecone.FrameLeases
import Pinecone.PublishedFrames
import Pinecone.FrameBounds
import Pinecone.DisplayedImages
import Pinecone.DisplayConsumers
import Pinecone.TransferRegions
import Pinecone.GpuScreen
import Pinecone.ScreenResources
import Pinecone.FlushTasks
import Pinecone.ScreenFlushes
import Pinecone.FlushedFrames
import Pinecone.PowerCalls
import Pinecone.WorkerLoop
import Pinecone.VcpuCluster
import Pinecone.WorkerSafety
import Pinecone.VcpuWakeups
import Pinecone.PowerStates
import Pinecone.ClusterPower
import Pinecone.ClusterPowerRuns
import Pinecone.ScheduledCpus
import Pinecone.ScheduledPower
import Pinecone.PowerConsistency
import Pinecone.LockStripeOrder
import Pinecone.VectorTransfers
import Pinecone.LockStripeDiscipline
import Pinecone.DmaRectanglePieces
import Pinecone.DmaRectangleCopies
import Pinecone.DmaRectangleSoundness
import Pinecone.PageRelinks
import Pinecone.TwinLinks
import Pinecone.BucketWalks
import Pinecone.PhysicalInvalidation
import Pinecone.BulkAccesses
import Pinecone.WriteNotes
import Pinecone.BulkWrites
import Pinecone.BytewiseAccesses
import Pinecone.BulkAccessesExact
import Pinecone.BackedEntries
import Pinecone.ObservedPages
import Pinecone.ScalarAccesses
import Pinecone.HotAccesses
import Pinecone.PairTranslations
import Pinecone.PairWrites
import Pinecone.PairAccesses
import Pinecone.FastAccesses
import Pinecone.TouchGestures
import Pinecone.TouchTrails
import Pinecone.TouchQueueSoundness
import Pinecone.TouchQueueRuns
import Pinecone.PairMerges
import Pinecone.TileCommits
import Pinecone.TileCopies
import Pinecone.TileScans
import Pinecone.CommitTiles
import Pinecone.TileCommitsExact
import Pinecone.BlockRequests
import Pinecone.BlockChains
import Pinecone.BlockRequestParts
import Pinecone.BlockRequestSafety
import Pinecone.BlockRequestsExact
import Pinecone.ThreadedPrototype
