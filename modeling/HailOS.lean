import HailOS.ACPI.Checksum
import HailOS.ACPI.MADT
import HailOS.ACPI.Shutdown
import HailOS.ACPI.TableBounds
import HailOS.ACPI.Tables
import HailOS.APIC.Calibration
import HailOS.APIC.IOAPIC
import HailOS.APIC.LAPIC
import HailOS.Arch.SwitchContext
import HailOS.Boot.InitInterrupts
import HailOS.Boot.InitMemory
import HailOS.Boot.WorkerAccount
import HailOS.Boot.Workers
import HailOS.CPU.CPUInit
import HailOS.CPU.Descriptors
import HailOS.Console.KernelConsole
import HailOS.Console.Rendering
import HailOS.Devices.Serial16550
import HailOS.Devices.SerialConsole
import HailOS.ErrorHandling.Panic
import HailOS.Interrupts.Dispatch
import HailOS.Interrupts.InService
import HailOS.Lib.AccessLog
import HailOS.Lib.ByteMemory
import HailOS.Lib.ByteSum
import HailOS.Lib.Clock
import HailOS.Lib.FirstFit
import HailOS.Lib.IntegralDouble
import HailOS.Lib.InterruptController
import HailOS.Lib.Ledger
import HailOS.Lib.LinkedList
import HailOS.Lib.Owners
import HailOS.Lib.PackedFields
import HailOS.Lib.PageWalk
import HailOS.Lib.Records
import HailOS.Lib.Registers
import HailOS.Lib.StackMachine
import HailOS.Lib.Steps
import HailOS.Lib.Text
import HailOS.Lib.TextGrid
import HailOS.Lib.TurnTaking
import HailOS.Lib.Word
import HailOS.Memory.AllocatorRuns
import HailOS.Memory.Bit
import HailOS.Memory.BitRange
import HailOS.Memory.BitmapAccesses
import HailOS.Memory.EarlyPageAllocator
import HailOS.Memory.EnoughRoom
import HailOS.Memory.GiveBack
import HailOS.Memory.GrantedBlocks
import HailOS.Memory.HeapRuns
import HailOS.Memory.MemoryUtility
import HailOS.Memory.NewDelete
import HailOS.Memory.PhysicalMemoryBitmap
import HailOS.Memory.Reinitialisation
import HailOS.Memory.UsablePages
import HailOS.Object.LastReference
import HailOS.Object.RefPtr
import HailOS.Paging.Caching
import HailOS.Paging.Coverage
import HailOS.Paging.IdentityMap
import HailOS.Paging.Paging
import HailOS.Paging.StaleEntries
import HailOS.Paging.Tables
import HailOS.Scheduler.ContextSwitch
import HailOS.Scheduler.FailedCreation
import HailOS.Scheduler.NoLostThread
import HailOS.Scheduler.RoundRobin
import HailOS.Scheduler.RunQueue
import HailOS.Scheduler.Safety
import HailOS.Scheduler.Scheduler
import HailOS.Scheduler.Sleep
import HailOS.Scheduler.Thread
import HailOS.Scheduler.TimerTicks
import HailOS.Sync.Interrupts
import HailOS.Sync.SpinLock
import HailOS.Sync.TicketLock
import HailOS.Timer.Timer
