import AppleSilicon.Lib.Bytes
import AppleSilicon.Lib.Ascii
import AppleSilicon.Lib.Forest
import AppleSilicon.Lib.EarlyExit
import AppleSilicon.Lib.Pieces
import AppleSilicon.Lib.LineArray
import AppleSilicon.Lib.LogRun
import AppleSilicon.Lib.Logged
import AppleSilicon.Lib.Monitor
import AppleSilicon.Lib.Status
import AppleSilicon.Lib.Loop
import AppleSilicon.Lib.Fuel
import AppleSilicon.Lib.Store
import AppleSilicon.Lib.Flags
import AppleSilicon.Lib.Blob
import AppleSilicon.Lib.Traced
import AppleSilicon.Lib.PrefixCode
import AppleSilicon.Dt.Tree
import AppleSilicon.Dt.Deep
import AppleSilicon.Dt.Check
import AppleSilicon.Dt.CheckGrammar
import AppleSilicon.Dt.Parse
import AppleSilicon.Dt.DeepWalk
import AppleSilicon.Dt.Guard
import AppleSilicon.Dt.Lookup
import AppleSilicon.Dt.Parent
import AppleSilicon.Dt.Reg
import AppleSilicon.Dt.Bounds
import AppleSilicon.Dt.Compat
import AppleSilicon.Dt.Find
import AppleSilicon.Dt.Encode
import AppleSilicon.Hob.Reserve
import AppleSilicon.Hob.MemoryPeim
import AppleSilicon.Hob.Partition
import AppleSilicon.Hob.Protected
import AppleSilicon.Hob.Allocated
import AppleSilicon.Hob.ReserveFrame
import AppleSilicon.Hob.Carveouts
import AppleSilicon.Aic.Lines
import AppleSilicon.Aic.Mask
import AppleSilicon.Aic.Handler
import AppleSilicon.Aic.Run
import AppleSilicon.Aic.Blocks
import AppleSilicon.Aic.Register
import AppleSilicon.Aic.Quiesce
import AppleSilicon.Aic.Lifecycle
import AppleSilicon.Boot.EarlySetup
import AppleSilicon.Boot.Framebuffer
import AppleSilicon.Boot.BootData
import AppleSilicon.Boot.MemoryMap
import AppleSilicon.Boot.Ramdisk
import AppleSilicon.Boot.EntryStack
import AppleSilicon.Drivers.Device
import AppleSilicon.Drivers.Bringup
import AppleSilicon.Drivers.Dart
import AppleSilicon.Drivers.DartState
import AppleSilicon.Drivers.UsbInit
import AppleSilicon.Drivers.SerialPort
import AppleSilicon.Drivers.SerialPortRead
import AppleSilicon.Drivers.Gpio
import AppleSilicon.Drivers.GpioLocate
import AppleSilicon.Drivers.Mailbox
import AppleSilicon.Drivers.Asmedia
import AppleSilicon.Drivers.FirmwareBinding
import AppleSilicon.Drivers.FirmwareUpload
import AppleSilicon.Drivers.LoadFirmware
import AppleSilicon.Drivers.AcpiPlatform
import AppleSilicon.Drivers.AcpiLog
import AppleSilicon.Drivers.AcpiErrors
import AppleSilicon.Drivers.Smbios
import AppleSilicon.Drivers.SmbiosTable
import AppleSilicon.Drivers.BootLaunch
import AppleSilicon.Drivers.WindowsAutoBoot
import AppleSilicon.Drivers.PciePort
import AppleSilicon.Drivers.PciePlatform
import AppleSilicon.Drivers.StartMonitor
import AppleSilicon.Drivers.StartAnswers
import AppleSilicon.BootManager.DevicePath
import AppleSilicon.BootManager.BootPolicy
import AppleSilicon.BootManager.LoadOption
import AppleSilicon.BootManager.ShellOption
import AppleSilicon.BootManager.PreBootChecks
import AppleSilicon.BootManager.BootOrderLock
import AppleSilicon.Drivers.TraceHooks
import AppleSilicon.Drivers.RealTimeClock
