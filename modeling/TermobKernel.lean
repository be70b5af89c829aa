import TermobKernel.Library.Word
import TermobKernel.Library.Walk
import TermobKernel.Library.Memory
import TermobKernel.Library.Loads
import TermobKernel.Library.Dll
import TermobKernel.Library.Runs
import TermobKernel.Library.Slices
import TermobKernel.Library.Digits
import TermobKernel.Heap.Model
import TermobKernel.Heap.Header
import TermobKernel.Heap.FreeList
import TermobKernel.Heap.Blocks
import TermobKernel.Heap.Physical
import TermobKernel.Heap.Release
import TermobKernel.Heap.Allocate
import TermobKernel.Heap.Integrity
import TermobKernel.Heap.Payload
import TermobKernel.Heap.System
import TermobKernel.Heap.LiveMap
import TermobKernel.Heap.Drain
import TermobKernel.Heap.Checker
import TermobKernel.Heap.FirstFit
import TermobKernel.Fat.Device
import TermobKernel.Fat.Volume
import TermobKernel.Fat.Directory
import TermobKernel.Fat.File
import TermobKernel.Fat.Geometry
import TermobKernel.Fat.Table
import TermobKernel.Fat.Chain
import TermobKernel.Fat.Reading
import TermobKernel.Fat.Seeking
import TermobKernel.Fat.Handle
import TermobKernel.Boot.Info
import TermobKernel.Boot.Bounds
import TermobKernel.Library.Bitmap
import TermobKernel.Pmm.Model
import TermobKernel.Pmm.Frames
import TermobKernel.Pmm.Init
import TermobKernel.Pmm.System
import TermobKernel.Library.Links
import TermobKernel.Scheduler.Model
import TermobKernel.Scheduler.Tasks
import TermobKernel.Scheduler.System
import TermobKernel.Scheduler.Rotation
import TermobKernel.Scheduler.Wakeup
import TermobKernel.Virtio.Completion
import TermobKernel.Fat.Listing
import TermobKernel.Fat.LongNames
import TermobKernel.Fat.Resolve
import TermobKernel.Fat.Steady
import TermobKernel.Fat.Tree
import TermobKernel.Shell.FatInfo
import TermobKernel.Shell.EntryRead
import TermobKernel.Library.Ring
import TermobKernel.Input.Model
import TermobKernel.Input.Lossless
import TermobKernel.Library.Pages
import TermobKernel.Paging.Model
import TermobKernel.Paging.Identity
import TermobKernel.Driver.Model
import TermobKernel.Driver.Binding
import TermobKernel.Terminal.Model
import TermobKernel.Terminal.Log
import TermobKernel.Library.Zipper
import TermobKernel.Shell.Editor
import TermobKernel.Shell.Editing
import TermobKernel.Fat.Packing
import TermobKernel.Fat.Accounting
import TermobKernel.Fat.DataArea
import TermobKernel.Fat.NameEncoding
import TermobKernel.Fat.Range
import TermobKernel.Fat.Sectors
import TermobKernel.Fat.Stopping
import TermobKernel.Fat.ChainWalk
import TermobKernel.Heap.Undo
import TermobKernel.Heap.Statistics
import TermobKernel.Boot.Clipping
import TermobKernel.Boot.Termination
import TermobKernel.Pmm.Reservations
import TermobKernel.Paging.Failure
import TermobKernel.Scheduler.Accounting
import TermobKernel.Scheduler.Creation
import TermobKernel.Klog
import TermobKernel.Virtio.ChildName
import TermobKernel.Pmm.Reserving
import TermobKernel.Fat.ChainBound
import TermobKernel.Library.Text
import TermobKernel.Shell.Arguments
import TermobKernel.Shell.Commands
import TermobKernel.Input.Wheel
import TermobKernel.Virtio.Layout
import TermobKernel.Terminal.Navigation
import TermobKernel.Terminal.Rows
import TermobKernel.Shell.Screen
import TermobKernel.Shell.InputRow
import TermobKernel.Library.Pic
import TermobKernel.Interrupt.Controller
import TermobKernel.Pci.Config
import TermobKernel.Pci.Enumeration
import TermobKernel.Pci.Discovery
import TermobKernel.Heap.SelfTest
import TermobKernel.Heap.Contents
