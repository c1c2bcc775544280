import PadOS.Core.Transition
import PadOS.Core.ErrorCode
import PadOS.BlockCache.Coherence
import PadOS.BlockCache.Flush
import PadOS.BlockCache.Sync
import PadOS.BlockCache.Addressing
import PadOS.BlockCache.FlushBlockList
import PadOS.Fat.TableIterator
import PadOS.Core.BitTable
import PadOS.Fat.PackedTable
import PadOS.Fat.TableWindow
import PadOS.Fat.TableMirror
import PadOS.Fat.TableRun
import PadOS.Fat.Table
import PadOS.Fat.ClusterSectorIterator
import PadOS.Core.Unicode
import PadOS.Fat.ShortName
import PadOS.Core.Run
import PadOS.Fat.DirectoryEntry
import PadOS.Fat.DirectoryIterator
import PadOS.Fat.Scan
import PadOS.Fat.Enumeration
import PadOS.Fat.Inode
import PadOS.Fat.Lookup
import PadOS.Fat.ReadDirectory
import PadOS.Core.Asking
import PadOS.Fat.TableScan
import PadOS.Fat.Resumption
import PadOS.Fat.DirectoryRecords
import PadOS.Fat.ReadsAll
import PadOS.Core.RingBuffer
import PadOS.Vfs.Pipe
import PadOS.Vfs.PipeStream
import PadOS.Vfs.Pty
import PadOS.Vfs.PtyAccounting
import PadOS.Vfs.PtyLines
import PadOS.Vfs.PtyWrites
import PadOS.Vfs.InodeCache
import PadOS.Vfs.InodeCacheConsistency
import PadOS.Vfs.InodeReference
import PadOS.Core.Program
import PadOS.Core.LinkedCells
import PadOS.Fat.Allocation
import PadOS.Fat.AllocationRun
import PadOS.Core.FileContent
import PadOS.Core.Rectangle
import PadOS.Core.StreamParser
import PadOS.Fat.AnyTable
import PadOS.Fat.FileListing
import PadOS.Fat.WriteFailure
import PadOS.Gui.Region
import PadOS.Kernel.ConditionVariable
import PadOS.Kernel.ConditionWakeup
import PadOS.Kernel.ObjectWaitGroup
import PadOS.Kernel.ReadyFlags
import PadOS.Kernel.SerialMux
import PadOS.Kernel.SerialMuxFraming
import PadOS.Kernel.SignalDelivery
import PadOS.SerialConsole.PacketFraming
import PadOS.SerialConsole.PacketRecovery
import PadOS.SerialConsole.PacketDispatch
import PadOS.SerialConsole.ReplyProtocol
import PadOS.Storage.BufferedCalls
import PadOS.Storage.BufferedRefinement
import PadOS.Terminal.InputPieces
import PadOS.Core.Forest
import PadOS.Core.Stacking
import PadOS.Gui.DamageRegions
import PadOS.Gui.PaintProtocol
import PadOS.Gui.VisibleRegions
import PadOS.Core.Registry
import PadOS.Kernel.ProcessConsistency
import PadOS.Kernel.StopPhases
import PadOS.Core.NamedTree
import PadOS.Vfs.VirtualLookup
import PadOS.Fat.MountCheck
import PadOS.Fat.DirtyInodes
import PadOS.Fat.SectorLayout
import PadOS.Fat.ResizeFailure
import PadOS.Fat.AllocateClusters
import PadOS.Fat.LongestChain
import PadOS.Fat.NamelessScan
import PadOS.Fat.ShortNameCoding
import PadOS.Vfs.PartitionNumbering
import PadOS.Vfs.FileTable
import PadOS.Vfs.PipeErrors
import PadOS.Core.Ownership
import PadOS.Kernel.MessageDelivery
import PadOS.Fat.RoundedTimes
import PadOS.Utils.CircularBuffer
import PadOS.Utils.Base64Codec
import PadOS.Utils.Utf8
import PadOS.Utils.ByteSize
import PadOS.Utils.CaseFoldComparison
import PadOS.Utils.TokenPositions
import PadOS.Gui.RegionTidy
import PadOS.Gui.ClipLine
import PadOS.Storage.PathNormalization
import PadOS.Usb.ReportValue
import PadOS.UserInput.MotionStory
import PadOS.Rpc.ArgumentUnpacking
import PadOS.Gui.LinearLayout
import PadOS.Kernel.HandleCalls
import PadOS.Gui.BlitOrder
import PadOS.Terminal.CursorOnCharacter
import PadOS.Storage.FailedOperations
import PadOS.Storage.DirectoryEntry
import PadOS.Threads.WaitForReply
import PadOS.Threads.TimerMap
import PadOS.Kernel.StepperDriver
import PadOS.Kernel.LogLine
