import Ohwes.Library.Runs
import Ohwes.Library.CircularList
import Ohwes.Library.BitString
import Ohwes.Library.ReferenceTable
import Ohwes.Library.CircularBuffer
import Ohwes.Library.BoundedDeque
import Ohwes.Library.Overlay
import Ohwes.Kernel.Basic
import Ohwes.Libc.String
import Ohwes.Libc.Ctype
import Ohwes.I386.Paging
import Ohwes.I386.Gdbstub
import Ohwes.I386.GdbFrames
import Ohwes.I386.GdbCodec
import Ohwes.I386.GdbTransmit
import Ohwes.I386.GdbTimeouts
import Ohwes.I386.GdbMemory
import Ohwes.Kernel.List
import Ohwes.Kernel.Bitops
import Ohwes.Kernel.Pool
import Ohwes.Kernel.PoolInvariant
import Ohwes.Kernel.PoolSteps
import Ohwes.Kernel.PoolRuns
import Ohwes.Kernel.PoolOwnership
import Ohwes.Kernel.PoolArea
import Ohwes.Kernel.Fs
import Ohwes.Kernel.Open
import Ohwes.Kernel.Descriptors
import Ohwes.Kernel.DescriptorRuns
import Ohwes.Kernel.DescriptorView
import Ohwes.Kernel.Ring
import Ohwes.Kernel.RingDeque
import Ohwes.Char.Tty
import Ohwes.Char.Ldisc
import Ohwes.Char.FlowControl
import Ohwes.Char.Chunking
import Ohwes.Char.Serial
import Ohwes.Char.SerialInterrupt
import Ohwes.Char.SerialTransmit
import Ohwes.Char.TtyOpen
import Ohwes.Char.TtyLifecycle
import Ohwes.Char.Terminal
import Ohwes.Char.TerminalBounds
import Ohwes.Char.TtyDrivers
import Ohwes.Fatfs.BootSector
import Ohwes.Fatfs.DirEntry
import Ohwes.Fatfs.FatTable
import Ohwes.Fatfs.Format
import Ohwes.Fatfs.Volume
import Ohwes.Fatfs.Create
import Ohwes.Fatfs.FatSizing
import Ohwes.Fatfs.FatDisk
import Ohwes.Fatfs.Walks
import Ohwes.Fatfs.Clusters
import Ohwes.Fatfs.WriteFile
import Ohwes.Fatfs.DirTable
import Ohwes.Fatfs.FindFile
import Ohwes.Fatfs.Add
import Ohwes.Fatfs.RootDir
import Ohwes.Fatfs.RootFiles
import Ohwes.Fatfs.AddFile
import Ohwes.Fatfs.FreshDisk
import Ohwes.Fatfs.AddRuns
import Ohwes.Kernel.IoRanges
import Ohwes.Kernel.IoRegistry
import Ohwes.Kernel.IoRuns
import Ohwes.Kernel.FsCapacity
import Ohwes.Kernel.FsPoolRuns
import Ohwes.Char.KeyCodes
import Ohwes.Char.Keyboard
import Ohwes.Char.KeyScan
import Ohwes.Char.KeyboardRuns
import Ohwes.Char.Modifiers
import Ohwes.Fatfs.ReadOnly
import Ohwes.Fatfs.LongName
import Ohwes.Kernel.Console
import Ohwes.Kernel.ConsoleRuns
import Ohwes.I386.Entry
import Ohwes.I386.InterruptReturn
import Ohwes.Libc.Printf
import Ohwes.Libc.PrintfStandard
import Ohwes.Libc.PrintfNumbers
import Ohwes.Libc.PrintfParse
import Ohwes.Libc.PrintfConversion
import Ohwes.Char.OutputProcessing
import Ohwes.Char.RecvBytes
import Ohwes.Kernel.Irq
import Ohwes.Kernel.ConsoleList
import Ohwes.Kernel.FindInode
import Ohwes.Kernel.Dup2
import Ohwes.Kernel.FileExhaustion
import Ohwes.Char.TtyRead
import Ohwes.Char.NonblockRuns
import Ohwes.I386.SyscallEntry
import Ohwes.Char.TerminalSwitch
import Ohwes.Char.TerminalAlone
import Ohwes.Char.TerminalScreens
import Ohwes.Char.TerminalIsolation
import Ohwes.Char.TerminalInit
import Ohwes.Char.ModemStatistics
import Ohwes.Char.TerminalSave
import Ohwes.Char.TerminalTabs
import Ohwes.Char.TerminalWrite
import Ohwes.Libc.Memmove
import Ohwes.Char.TerminalCells
import Ohwes.Char.TerminalParams
import Ohwes.Char.TerminalSgr
import Ohwes.Char.TerminalMotion
import Ohwes.Char.TerminalText
import Ohwes.Char.OutputRaw
import Ohwes.Libc.MemmoveAddress
import Ohwes.Libc.StringOrder
import Ohwes.Libc.NumberGrammar
import Ohwes.Libc.Strtol
import Ohwes.Libc.PrintfModifiers
import Ohwes.Libc.PrintfText
import Ohwes.Libc.PrintfSinks
import Ohwes.Libc.PrintfScan
import Ohwes.Char.TtyIoctl
import Ohwes.Fatfs.ClusterBounds
import Ohwes.Fatfs.BaseOffset
import Ohwes.Fatfs.SpaceCheck
import Ohwes.Fatfs.FileBuffers
import Ohwes.Fatfs.CreateArithmetic
import Ohwes.Fatfs.DirectoryTree
import Ohwes.Fatfs.CreateFile
import Ohwes.Fatfs.CreateFileLimits
import Ohwes.Kernel.FindPool
import Ohwes.Kernel.ListOrder
import Ohwes.Char.Rtc
import Ohwes.Char.KeyboardPort
import Ohwes.Fatfs.LongNameChars
import Ohwes.Fatfs.ShortName
import Ohwes.Fatfs.LongNameChains
import Ohwes.Fatfs.PathLookup
import Ohwes.Fatfs.AddPrepared
import Ohwes.Fatfs.AddCommit
import Ohwes.Fatfs.AddPaths
import Ohwes.I386.PageFlags
import Ohwes.Kernel.BitScan
import Ohwes.Fatfs.FatString
import Ohwes.Kernel.ListHeap
import Ohwes.I386.CrashText
import Ohwes.I386.WordWrap
import Ohwes.Library.DiskGeometry
import Ohwes.Library.Ensures
import Ohwes.Library.Retry
import Ohwes.Library.SlotStore
import Ohwes.Fatfs.Consecutive
import Ohwes.Fatfs.Allocation
import Ohwes.Fatfs.NameMatch
import Ohwes.Fatfs.Attr
import Ohwes.Fatfs.RootStore
import Ohwes.Fatfs.RootStoreAdd
import Ohwes.Fatfs.RootStoreRuns
import Ohwes.Fatfs.PackedStore
import Ohwes.Boot.Stage1
import Ohwes.Boot.SectorAddress
import Ohwes.Boot.LoadSectors
import Ohwes.Boot.BootFile
import Ohwes.Boot.LoadFile
import Ohwes.Boot.Stage2
import Ohwes.Boot.MemoryMap
import Ohwes.Boot.Hardware
import Ohwes.Boot.LoadKernel
import Ohwes.Boot.BootImage
import Ohwes.Boot.ImageBoots
import Ohwes.Library.Pic8259
import Ohwes.I386.Pic
import Ohwes.Kernel.IrqFlow
import Ohwes.Library.BitField
import Ohwes.Library.Descriptors386
import Ohwes.I386.X86
import Ohwes.I386.Cpu
import Ohwes.I386.Vectors
import Ohwes.Kernel.LogStack
import Ohwes.Char.RtsControl
import Ohwes.Char.InputLink
import Ohwes.I386.Setup
import Ohwes.I386.GdbSpace
import Ohwes.Char.TerminalSetup
import Ohwes.Char.TerminalStores
import Ohwes.Char.TerminalAccesses
