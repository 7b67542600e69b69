import RockchipSoc.Foundation.ActionPool
import RockchipSoc.Foundation.ByteMemory
import RockchipSoc.Foundation.Tables
import RockchipSoc.Foundation.LabelledRun
import RockchipSoc.VendorStorage.Image
import RockchipSoc.VendorStorage.Update
import RockchipSoc.VendorStorage.Header
import RockchipSoc.VendorStorage.EmmcDevice
import RockchipSoc.VendorStorage.EmmcMount
import RockchipSoc.VendorStorage.Layout
import RockchipSoc.VendorStorage.ByteMap
import RockchipSoc.VendorStorage.EmmcCrash
import RockchipSoc.VendorStorage.MtdDevice
import RockchipSoc.VendorStorage.MtdMount
import RockchipSoc.VendorStorage.MtdRemount
import RockchipSoc.VendorStorage.MtdProgram
import RockchipSoc.VendorStorage.TransferErrors
import RockchipSoc.VendorStorage.FreeSpace
import RockchipSoc.Foundation.Retry
import RockchipSoc.Foundation.SentinelMin
import RockchipSoc.VendorStorage.TwoCopies
import RockchipSoc.Rga.BufferSize
import RockchipSoc.Rga.Mm
import RockchipSoc.Rga.Import
import RockchipSoc.Rga.Kref
import RockchipSoc.Rga.Job
import RockchipSoc.Rga.Place
import RockchipSoc.Rga.Queue
import RockchipSoc.Rga.Effect
import RockchipSoc.Rga.Start
import RockchipSoc.Rga.Power
import RockchipSoc.Rga.Custody
import RockchipSoc.Rga.Fence
import RockchipSoc.Rga.Refs
import RockchipSoc.Rga.Priority
import RockchipSoc.Rga.Policy
import RockchipSoc.Rga.LoadBalance
import RockchipSoc.Rga.CapableCore
import RockchipSoc.Rga.MmuRing
import RockchipSoc.Rga.PageTable
import RockchipSoc.Rga.VirtPages
import RockchipSoc.Rga.ImportTables
import RockchipSoc.Mpp.Task
import RockchipSoc.Mpp.TaskEffect
import RockchipSoc.Mpp.TaskCount
import RockchipSoc.Mpp.TaskLinks
import RockchipSoc.Mpp.QueueLink
import RockchipSoc.Mpp.TaskLife
import RockchipSoc.Mpp.Idle
import RockchipSoc.Mpp.Detach
import RockchipSoc.Mpp.SessionDma
import RockchipSoc.Mpp.Request
import RockchipSoc.Mpp.RegPatch
import RockchipSoc.Mpp.PatchBounds
import RockchipSoc.Mpp.MsgCollect
import RockchipSoc.Mpp.CoreQueue
import RockchipSoc.Mpp.DmaPool
import RockchipSoc.Foundation.LapCursor
import RockchipSoc.Mpp.LinkRing
import RockchipSoc.Mpp.LinkTask
import RockchipSoc.Mpp.LinkLedger
import RockchipSoc.Mpp.LinkWorker
import RockchipSoc.Mpp.LinkFreed
import RockchipSoc.Foundation.KeyedList
import RockchipSoc.Display.HdiDisplay
import RockchipSoc.Display.LayerRegistry
import RockchipSoc.Display.ComposedLayers
import RockchipSoc.Display.RequestedTypes
import RockchipSoc.Foundation.HiwordField
import RockchipSoc.Foundation.OpTrace
import RockchipSoc.Clk.CpuClk
import RockchipSoc.Clk.RateChange
import RockchipSoc.Foundation.CheckedArith
import RockchipSoc.Power.Rk817Gauge
import RockchipSoc.Power.Rk817Battery
import RockchipSoc.Power.DisplayedCharge
import RockchipSoc.Power.ChargeRuns
import RockchipSoc.Foundation.NearestEntry
import RockchipSoc.SystemMonitor.CheckRateVolt
import RockchipSoc.SystemMonitor.RateVoltSafe
import RockchipSoc.SystemMonitor.RateVoltChange
import RockchipSoc.Foundation.SharedLimit
import RockchipSoc.SystemMonitor.WideTemp
import RockchipSoc.SystemMonitor.TempLimits
import RockchipSoc.SystemMonitor.SystemStatus
import RockchipSoc.SystemMonitor.ThermalUpdate
import RockchipSoc.SystemMonitor.VideoStatus
import RockchipSoc.Omx.ComponentState
import RockchipSoc.Omx.OsObjects
import RockchipSoc.Omx.ResourceManager
import RockchipSoc.Omx.ResourceLists
import RockchipSoc.Omx.ResourceRuns
import RockchipSoc.Foundation.WordMultiples
import RockchipSoc.Rk2206.FsDriver
import RockchipSoc.Rk2206.FsRequests
import RockchipSoc.Rk2206.PartitionIsolation
import RockchipSoc.Foundation.Placement
import RockchipSoc.Vop.LayerMixer
import RockchipSoc.Vop.LayerPlacement
import RockchipSoc.Vop.PortMasks
import RockchipSoc.Vop.LayerMap
import RockchipSoc.Foundation.Forest
import RockchipSoc.Vop.PowerDomain
import RockchipSoc.Vop.PowerDomainRefs
import RockchipSoc.Vop.PowerDomainRuns
import RockchipSoc.Display.GbmBo
import RockchipSoc.Foundation.PixelRect
import RockchipSoc.Display.DisplayGfx
import RockchipSoc.Display.BlitRects
import RockchipSoc.Display.DrmHotplug
import RockchipSoc.Foundation.Emit
import RockchipSoc.Jpeg.CodecJpegHelper
import RockchipSoc.Jpeg.Segments
import RockchipSoc.Jpeg.Readers
import RockchipSoc.Jpeg.Scan
import RockchipSoc.Jpeg.SegmentLoop
import RockchipSoc.Foundation.Footprint
import RockchipSoc.Jpeg.RoundTrip
import RockchipSoc.Jpeg.ReadOffsets
import RockchipSoc.Jpeg.Framing
import RockchipSoc.Foundation.Ledger
import RockchipSoc.Omx.BufferPort
import RockchipSoc.Omx.BufferOwnership
import RockchipSoc.Power.CapacityUnits
import RockchipSoc.Power.BootEstimate
import RockchipSoc.Foundation.BestChoice
import RockchipSoc.Clk.HalfDivider
import RockchipSoc.Clk.FractionalDivider
import RockchipSoc.Clk.PllRegisters
import RockchipSoc.Foundation.Inquiry
import RockchipSoc.Power.Rk817Device
import RockchipSoc.Power.Rk817Passes
import RockchipSoc.Power.DefinedArithmetic
import RockchipSoc.Clk.PllAuto
import RockchipSoc.Clk.PllAuto3066
import RockchipSoc.Foundation.RestoringUpdate
import RockchipSoc.Clk.PllRestore
import RockchipSoc.Clk.PllCompensation
import RockchipSoc.Opp.DevPmOpp
import RockchipSoc.SystemMonitor.LowTempVolt
import RockchipSoc.SystemMonitor.VideoWriters
import RockchipSoc.Opp.IrDrop
import RockchipSoc.Foundation.BoundedFifo
import RockchipSoc.Omx.OsalQueue
import RockchipSoc.Omx.SharedMemory
import RockchipSoc.Omx.SharedMemoryBooks
import RockchipSoc.Omx.PortBuffers
import RockchipSoc.Omx.BufferTable
import RockchipSoc.Foundation.GuardedWrites
import RockchipSoc.Omx.SendCommand
import RockchipSoc.Omx.CommandValidation
import RockchipSoc.Omx.PostOutputFrame
import RockchipSoc.Omx.EndOfStream
import RockchipSoc.Foundation.LinkedChain
import RockchipSoc.Omx.CoreHandles
import RockchipSoc.Omx.HandleList
import RockchipSoc.SystemMonitor.DualView
import RockchipSoc.Clk.Vop2Divider
import RockchipSoc.Vop.PlaneCheck
import RockchipSoc.Vop.ScaleFactor
import RockchipSoc.Vop.ScanOut
import RockchipSoc.Vop.SpliceRect
import RockchipSoc.Vop.OtherScreens
import RockchipSoc.Rk2206.ExactWrites
import RockchipSoc.Codec.DecodeReturns
import RockchipSoc.Codec.OutputDelivery
import RockchipSoc.Codec.Releases
import RockchipSoc.Power.ChargeOfVoltage
import RockchipSoc.Power.VoltagePlaces
import RockchipSoc.Foundation.PartialMap
import RockchipSoc.Iommu.PageFormats
import RockchipSoc.Iommu.PageTables
import RockchipSoc.Iommu.TableLoops
import RockchipSoc.Iommu.DriverOps
import RockchipSoc.Iommu.CoreLoops
import RockchipSoc.Iommu.MapSg
import RockchipSoc.Iommu.Translation
import RockchipSoc.Iommu.Shootdown
import RockchipSoc.Mpp.SoftCcu
import RockchipSoc.Mpp.SoftCcuOrder
import RockchipSoc.Mpp.SoftCcuCores
import RockchipSoc.Mpp.SoftCcuPower
import RockchipSoc.Mpp.SoftCcuWake
import RockchipSoc.Mpp.SoftCcuReset
import RockchipSoc.Vop.FlipEvents
import RockchipSoc.Vop.FlipOrder
import RockchipSoc.Vop.FlipBooks
import RockchipSoc.Vop.WriteBack
