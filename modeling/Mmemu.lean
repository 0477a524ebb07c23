import Mmemu.Library.Schedules
import Mmemu.Library.Runs
import Mmemu.Source.Cia6526
import Mmemu.Guarantees.CiaTimers
import Mmemu.Source.Via6522
import Mmemu.Guarantees.ViaTimers
import Mmemu.Guarantees.DmaAddresses
import Mmemu.Source.F018bDma
import Mmemu.Guarantees.DmaTriggers
import Mmemu.Guarantees.DiskRoundTrip
import Mmemu.Library.RingQueue
import Mmemu.Library.Stepping
import Mmemu.Library.UndoLog
import Mmemu.Source.CircularBuffer
import Mmemu.Source.MemoryBus
import Mmemu.Source.Cpu6502
import Mmemu.Source.Cpu6502Step
import Mmemu.Source.Cpu6502Frame
import Mmemu.Source.Debugger
import Mmemu.Source.DebuggerFrame
import Mmemu.Guarantees.DebuggerSteps
import Mmemu.Guarantees.StatusRegister
import Mmemu.Guarantees.BusWrites
import Mmemu.Guarantees.Breakpoints
import Mmemu.Guarantees.StackBalance
import Mmemu.Library.EdgeInput
import Mmemu.Source.Antic
import Mmemu.Guarantees.NmiDelivery
import Mmemu.Source.Assembler6502
import Mmemu.Source.Assembler6502Syntax
import Mmemu.Source.Assembler6502Tables
import Mmemu.Guarantees.AssemblerInverse
import Mmemu.Guarantees.InstructionFields
import Mmemu.Library.Literals
import Mmemu.Library.WordBytes
import Mmemu.Source.SparseMemoryBus
import Mmemu.Source.MapMmu
import Mmemu.Source.Snapshots
import Mmemu.Guarantees.Snapshots
import Mmemu.Source.CbmImageDos
import Mmemu.Source.CbmDosFrame
import Mmemu.Source.IecDrive
import Mmemu.Source.IecDriveFrame
import Mmemu.Guarantees.IecChannels
import Mmemu.Guarantees.RingBuffer
import Mmemu.Guarantees.RomOverlays
import Mmemu.Source.Cpu45gs02
import Mmemu.Source.Cpu45gs02Disasm
import Mmemu.Source.Cpu45gs02Step
import Mmemu.Source.Cpu45gs02Frame
import Mmemu.Guarantees.MapInhibit
import Mmemu.Source.Cpu45gs02Fetch
import Mmemu.Source.Cpu45gs02Branch
import Mmemu.Source.C64Pla
import Mmemu.Library.MemoryWrites
import Mmemu.Source.Disk2
import Mmemu.Guarantees.DiskWriteBack
import Mmemu.Library.BitStream
import Mmemu.Library.Lzw
import Mmemu.Source.GifWriter
import Mmemu.Guarantees.GifAnimations
import Mmemu.Guarantees.SpiralCopies
import Mmemu.Guarantees.JobLists
import Mmemu.Library.Numerals
import Mmemu.Guarantees.DecimalArithmetic
import Mmemu.Source.Hypervisor
import Mmemu.Source.Cpu45gs02Context
import Mmemu.Guarantees.HypervisorTraps
import Mmemu.Source.Atari8
import Mmemu.Guarantees.AtariCartridges
import Mmemu.Source.AtariSio
import Mmemu.Guarantees.SioStore
import Mmemu.Source.X16I2c
import Mmemu.Guarantees.I2cBus
import Mmemu.Source.CbmHostDos
import Mmemu.Source.X16HostFs
import Mmemu.Guarantees.HostFs
import Mmemu.Source.PortDevices
import Mmemu.Guarantees.ChipPeeks
import Mmemu.Source.Datasette
import Mmemu.Guarantees.TapeRoundTrip
import Mmemu.Library.Framing
import Mmemu.Source.ImdDisk
import Mmemu.Guarantees.ImdDisks
import Mmemu.Library.Chains
import Mmemu.Source.VirtualIec
import Mmemu.Guarantees.Directories
import Mmemu.Guarantees.AttentionAnswers
import Mmemu.Source.CpuZ80Step
import Mmemu.Library.TwoWay
import Mmemu.Source.Symbols
import Mmemu.Guarantees.SymbolNames
import Mmemu.Source.AudioDma
import Mmemu.Guarantees.AudioFrames
import Mmemu.Library.RegisterFile
import Mmemu.Source.Mega65Math
import Mmemu.Guarantees.MathOutputs
import Mmemu.Library.CountedLoop
import Mmemu.Source.StdText
import Mmemu.Source.Monitors
import Mmemu.Guarantees.RangeCommands
import Mmemu.Source.F011
import Mmemu.Source.F011Frame
import Mmemu.Guarantees.FloppySectors
import Mmemu.Source.BasicTokenizer
import Mmemu.Guarantees.BasicPrograms
import Mmemu.Source.SdCardSpi
import Mmemu.Guarantees.SpiBlocks
import Mmemu.Library.Folders
import Mmemu.Guarantees.HdosFiles
import Mmemu.Source.LuaEvents
import Mmemu.Guarantees.LuaCycles
import Mmemu.Source.SidFile
import Mmemu.Guarantees.SidPlacement
import Mmemu.Source.DisasmZ80
import Mmemu.Guarantees.Z80Runs
import Mmemu.Source.CpuZ80Blocks
import Mmemu.Source.Cpu45gs02Words
import Mmemu.Guarantees.QuadChains
import Mmemu.Library.Calendar
import Mmemu.Guarantees.RtcCalendar
import Mmemu.Guarantees.MousePackets
import Mmemu.Source.Acia6551
import Mmemu.Guarantees.TransmitEmpty
import Mmemu.Guarantees.XexDisks
import Mmemu.Library.CheckedBuffer
import Mmemu.Source.C128Carts
import Mmemu.Guarantees.CartImages
import Mmemu.Guarantees.FlashSequences
import Mmemu.Guarantees.EepromWords
import Mmemu.Source.Pia6520
import Mmemu.Guarantees.InterruptOutputs
import Mmemu.Source.Riot6532
import Mmemu.Guarantees.TimerLooks
import Mmemu.Source.GfxDecode
import Mmemu.Guarantees.SheetCells
import Mmemu.Source.Vdc8563
import Mmemu.Guarantees.BlockAccesses
import Mmemu.Source.VeraPorts
import Mmemu.Guarantees.DataPorts
import Mmemu.Guarantees.FrameGaps
import Mmemu.Guarantees.DebugSymbols
import Mmemu.Source.SerialMonitor
import Mmemu.Guarantees.SerialBreakpoints
import Mmemu.Source.Vic2
import Mmemu.Guarantees.SpritePriority
import Mmemu.Source.Mega65Clock
import Mmemu.Guarantees.ClockOffsets
import Mmemu.Source.Pokey
import Mmemu.Guarantees.SerialTransmitter
import Mmemu.Guarantees.CartridgeBanks
import Mmemu.Library.AccessTrees
import Mmemu.Source.Cpu6502Accesses
import Mmemu.Guarantees.SectorInterleave
import Mmemu.Source.Mega65SdCard
import Mmemu.Guarantees.SectorCommands
import Mmemu.Guarantees.HostLoadSave
import Mmemu.Guarantees.LockStep
import Mmemu.Guarantees.ConsoleReset
