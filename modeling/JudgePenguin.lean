import JudgePenguin.ByteMemory
import JudgePenguin.Chain
import JudgePenguin.ArrayLoops
import JudgePenguin.Memory
import JudgePenguin.DuckCache
import JudgePenguin.DuckCacheFind
import JudgePenguin.DuckCacheInvariant
import JudgePenguin.DuckCacheEvict
import JudgePenguin.DuckCacheCopy
import JudgePenguin.DuckCacheStore
import JudgePenguin.DuckCacheRuns
import JudgePenguin.DuckCacheLru
import JudgePenguin.DuckCacheOversize
import JudgePenguin.Guarded
import JudgePenguin.Elf
import JudgePenguin.ElfAccept
import JudgePenguin.ElfLayout
import JudgePenguin.MemoryIsolation
import JudgePenguin.ElfRun
import JudgePenguin.Judger
import JudgePenguin.JudgerBuffer
import JudgePenguin.JudgerRuns
import JudgePenguin.JudgerConfinement
import JudgePenguin.JudgerFresh
import JudgePenguin.JudgerLeftovers
import JudgePenguin.Paging
import JudgePenguin.PageTable
import JudgePenguin.PageTableBlocks
import JudgePenguin.PageTableInit
import JudgePenguin.PageTableMap
import JudgePenguin.DriverModule
import JudgePenguin.KernelMapping
import JudgePenguin.ModuleLifecycle
import JudgePenguin.Rendezvous
import JudgePenguin.LinuxSwitch
import JudgePenguin.TrapTransparency
import JudgePenguin.ProcessStack
import JudgePenguin.AuxVector
import JudgePenguin.ElfInPlace
import JudgePenguin.ElfImage
import JudgePenguin.ElfFootprint
import JudgePenguin.JudgerAccounting
import JudgePenguin.PageTree
import JudgePenguin.PageTableCalls
import JudgePenguin.PageTableRuns
import JudgePenguin.FirmwareWindow
import JudgePenguin.UserLib
import JudgePenguin.HexDigest
import JudgePenguin.Clocks
import JudgePenguin.BlockBudget
import JudgePenguin.RecursiveSlot
import JudgePenguin.CacheDisabled
import JudgePenguin.X86Clock
import JudgePenguin.TimeStamp
import JudgePenguin.KernelClock
import JudgePenguin.UserState
import JudgePenguin.UserRuns
import JudgePenguin.HeapBlocks
import JudgePenguin.StdinDelivery
import JudgePenguin.OutputDelivery
import JudgePenguin.LoadedProgram
import JudgePenguin.ProgramOutput
import JudgePenguin.Lts
import JudgePenguin.Splice
import JudgePenguin.JudgerService
import JudgePenguin.JudgerRefinement
import JudgePenguin.UserSyscalls
import JudgePenguin.ProcessIO
import JudgePenguin.X86Call
import JudgePenguin.SyscallStub
import JudgePenguin.JudgedProcess
import JudgePenguin.X86Gates
import JudgePenguin.KernelTables
import JudgePenguin.InterruptDelivery
import JudgePenguin.Uart
import JudgePenguin.KernelConsole
import JudgePenguin.I8259
import JudgePenguin.Pic
import JudgePenguin.FirmwareImage
import JudgePenguin.X86Space
import JudgePenguin.KernelVisit
import JudgePenguin.KernelEntry
import JudgePenguin.KernelReturn
import JudgePenguin.LinuxVisit
import JudgePenguin.KernelWork
