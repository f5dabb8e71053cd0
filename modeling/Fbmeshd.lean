import Fbmeshd.Clock
import Fbmeshd.Dot11s.AuthsaeConfig
import Fbmeshd.Dot11s.Handler
import Fbmeshd.Dot11s.HandlerJoins
import Fbmeshd.Dot11s.UsableFlags
import Fbmeshd.Dot11s.HandlerRuns
import Fbmeshd.Dot11s.Peering
import Fbmeshd.Dot11s.PeeringBalance
import Fbmeshd.Dot11s.PeeringRequests
import Fbmeshd.Dot11s.PeeringRuns
import Fbmeshd.Dot11s.Radios
import Fbmeshd.Gateway.ConnectivityMonitor
import Fbmeshd.Gateway.DampenerRuns
import Fbmeshd.Gateway.FlapSpacing
import Fbmeshd.Gateway.GatewayNode
import Fbmeshd.Gateway.MonitorRuns
import Fbmeshd.Gateway.ParameterCheck
import Fbmeshd.Gateway.RouteDampener
import Fbmeshd.Lib.DistanceVector
import Fbmeshd.Lib.Ewma
import Fbmeshd.Lib.Fallible
import Fbmeshd.Lib.Flood
import Fbmeshd.Lib.Latest
import Fbmeshd.Lib.Replica
import Fbmeshd.Lib.Runs
import Fbmeshd.Lib.SetDifference
import Fbmeshd.Lib.Table
import Fbmeshd.Lib.TopK
import Fbmeshd.Lib.Writer
import Fbmeshd.Linkstatsd.Aggregates
import Fbmeshd.Linkstatsd.MacText
import Fbmeshd.Linkstatsd.NexthopRates
import Fbmeshd.Network.Basic
import Fbmeshd.Network.Forwarding
import Fbmeshd.Network.Frames
import Fbmeshd.Network.Links
import Fbmeshd.Network.LoopFree
import Fbmeshd.Network.ShortestPaths
import Fbmeshd.Network.Storm
import Fbmeshd.Nl.NestedNetlinkAttribute
import Fbmeshd.Nl.NetlinkSocket
import Fbmeshd.Rnl.AddressMessage
import Fbmeshd.Rnl.AddressRuns
import Fbmeshd.Rnl.AddressSync
import Fbmeshd.Rnl.AttributeList
import Fbmeshd.Rnl.BuilderReset
import Fbmeshd.Rnl.BulkRequests
import Fbmeshd.Rnl.DumpRuns
import Fbmeshd.Rnl.Dumps
import Fbmeshd.Rnl.EncoderLimits
import Fbmeshd.Rnl.EncoderWrites
import Fbmeshd.Rnl.EventHandlers
import Fbmeshd.Rnl.EventParser
import Fbmeshd.Rnl.InterfaceDirectory
import Fbmeshd.Rnl.KernelMirror
import Fbmeshd.Rnl.LinkSync
import Fbmeshd.Rnl.MirrorRuns
import Fbmeshd.Rnl.NeighborListener
import Fbmeshd.Rnl.NetlinkSocket
import Fbmeshd.Rnl.ParserSafety
import Fbmeshd.Rnl.ProtocolSocket
import Fbmeshd.Rnl.RequestQueue
import Fbmeshd.Rnl.RouteAdoption
import Fbmeshd.Rnl.RouteBuilder
import Fbmeshd.Rnl.RouteEquality
import Fbmeshd.Rnl.RouteMessage
import Fbmeshd.Rnl.RouteMirror
import Fbmeshd.Rnl.RouteParser
import Fbmeshd.Rnl.RouteRoundTrip
import Fbmeshd.Rnl.RouteRuns
import Fbmeshd.Rnl.RouteSync
import Fbmeshd.Rnl.RouteWire
import Fbmeshd.Rnl.SyncInvariants
import Fbmeshd.Rnl.Types
import Fbmeshd.Rnl.UndisturbedDumps
import Fbmeshd.Rnl.WireParser
import Fbmeshd.Routing.Admission
import Fbmeshd.Routing.GateLearning
import Fbmeshd.Routing.GateSelection
import Fbmeshd.Routing.Gates
import Fbmeshd.Routing.Hysteresis
import Fbmeshd.Routing.MeshPath
import Fbmeshd.Routing.MetricManager
import Fbmeshd.Routing.MetricRuns
import Fbmeshd.Routing.NewOriginators
import Fbmeshd.Routing.NodeRuns
import Fbmeshd.Routing.PacketTransport
import Fbmeshd.Routing.PathExport
import Fbmeshd.Routing.Process
import Fbmeshd.Routing.RootAnnouncements
import Fbmeshd.Routing.RouteDatabase
import Fbmeshd.Routing.StationRoutes
import Fbmeshd.Routing.SyncRoutes
import Fbmeshd.Routing.SyncSurvival
import Fbmeshd.Routing.TranslatorTracking
import Fbmeshd.Routing.Translators
import Fbmeshd.Routing.Transmissions
