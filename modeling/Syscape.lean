import Syscape.Lib.Checked
import Syscape.Error
import Syscape.Utf8
import Syscape.Utf16
import Syscape.CgroupCpu
import Syscape.TightestCpuLimit
import Syscape.BlockDevice
import Syscape.Lib.Chains
import Syscape.BlockDeviceChains
import Syscape.Capabilities
import Syscape.Lib.Lines
import Syscape.CapabilityLines
import Syscape.Lib.Endian
import Syscape.Lib.Frames
import Syscape.Network
import Syscape.RoutesLinux
import Syscape.RouteMessages
import Syscape.RouteDatagrams
import Syscape.RouteDump
import Syscape.Lib.StdSort
import Syscape.Smbios
import Syscape.SmbiosBounds
import Syscape.SmbiosStrings
import Syscape.SmbiosTable
import Syscape.Lib.FromChars
import Syscape.Printer
import Syscape.HttpResponse
import Syscape.HttpRendering
import Syscape.HttpFraming
import Syscape.IppPrinters
import Syscape.IppBounds
import Syscape.IppAttributes
import Syscape.IppRoundTrip
import Syscape.Lib.OctalEscape
import Syscape.MountFields
import Syscape.CgroupMounts
import Syscape.CgroupDirectories
import Syscape.CpuCaches
import Syscape.CpuCacheInstances
import Syscape.SmbiosOrder
import Syscape.IppGroups
import Syscape.IppFaults
import Syscape.IppOrder
import Syscape.DpkgStatus
import Syscape.PackageKit
import Syscape.MountTables
import Syscape.IppOutOfBand
import Syscape.Utf8Text
import Syscape.Lib.Numerals
import Syscape.Numbers
import Syscape.ProcessMetrics
import Syscape.Process
import Syscape.ProcessList
import Syscape.Resource
import Syscape.CommandLines
import Syscape.StatLines
import Syscape.Power
import Syscape.PowerTypes
import Syscape.Connection
import Syscape.ConnectionTables
import Syscape.Ipc
import Syscape.UnixSockets
import Syscape.Wifi
import Syscape.NetworkManager
import Syscape.XmlText
import Syscape.CpuLists
import Syscape.Numa
import Syscape.Display
import Syscape.DisplayEdid
import Syscape.NetworkStatistics
import Syscape.NetworkDevices
import Syscape.ArgumentBuffers
import Syscape.Lib.Calls
import Syscape.ProcessWalk
import Syscape.ProcessExits
import Syscape.ProcessListing
import Syscape.NumaNodes
import Syscape.Lib.Bits
import Syscape.NetworkCommon
import Syscape.RoutesWindows
import Syscape.RoutesMacos
import Syscape.RoutesMacosDump
import Syscape.Environment
import Syscape.EnvironmentLookup
import Syscape.ProcModules
import Syscape.AudioCards
import Syscape.AudioPcm
import Syscape.SmbiosIdentity
import Syscape.SmbiosWalks
import Syscape.SmbiosRecords
import Syscape.SmbiosIdentityTable
import Syscape.Lib.DigitRuns
import Syscape.NaturalOrder
import Syscape.CpuFrequencies
import Syscape.CpuBlocks
import Syscape.InterfacesPosix
import Syscape.CgroupEntries
import Syscape.PowerArithmetic
import Syscape.PrinterConf
import Syscape.Input
import Syscape.InputDevices
import Syscape.Lib.LastMax
import Syscape.VolumeEncryption
import Syscape.RedoxContexts
import Syscape.RedoxProcesses
import Syscape.Lib.Hex
import Syscape.Uuid
import Syscape.MacAddress
import Syscape.WifiProfiles
import Syscape.Lib.FirstSeen
import Syscape.CpuFeatures
import Syscape.NvmeHealth
import Syscape.SysvIpc
import Syscape.SysvTables
import Syscape.PciDevices
import Syscape.PciEnumeration
import Syscape.Resolver
import Syscape.Meminfo
import Syscape.MemoryPercent
import Syscape.MemoryPressure
import Syscape.Lib.LexicalPaths
import Syscape.TimeZone
import Syscape.ExecutablePosix
import Syscape.ExecutableWindows
import Syscape.Gpu
import Syscape.GpuDevices
import Syscape.Lib.Fallback
import Syscape.OsRelease
import Syscape.Lib.Paging
import Syscape.SwapHpux
import Syscape.Lib.Durations
import Syscape.SystemClocks
import Syscape.ClockConversions
import Syscape.Lib.Gregorian
import Syscape.TimeZoneVxworks
import Syscape.Lib.Layout
import Syscape.AddressSpace
import Syscape.Lib.PrefixFree
import Syscape.Packages
import Syscape.CupsExchange
import Syscape.CupsRequests
import Syscape.CupsDaemon
import Syscape.PrinterSnapshot
import Syscape.PrinterDefault
import Syscape.PrinterIdentity
import Syscape.Lib.Growth
import Syscape.Lib.Moments
import Syscape.GrowingBuffers
import Syscape.CgroupRecord
import Syscape.CgroupLimits
import Syscape.CgroupDescents
import Syscape.CpuRecords
import Syscape.CpuTopology
import Syscape.IniFiles
import Syscape.Listings
import Syscape.PackageDatabases
import Syscape.PackageSources
import Syscape.ServiceUnits
