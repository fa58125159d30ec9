import Ubgpd.Lib.Outcome
import Ubgpd.Lib.Octets
import Ubgpd.Bgp.Nlri
import Ubgpd.Bgp.Attributes
import Ubgpd.Bgp.Capabilities
import Ubgpd.Bgp.Codec
import Ubgpd.Bgp.Messages
import Ubgpd.Bgp.Sections
import Ubgpd.Bgp.RoundTrip
import Ubgpd.Lib.Framing
import Ubgpd.Bgp.Framing
import Ubgpd.Bgp.Multiprotocol
import Ubgpd.Bgp.AttributeValues
import Ubgpd.Bgp.AttributePanics
import Ubgpd.Lib.View
import Ubgpd.Lib.Run
import Ubgpd.Lib.History
import Ubgpd.Rib
import Ubgpd.Speaker.LocRib
import Ubgpd.Speaker.Manager
import Ubgpd.Neighbor.Capabilities
import Ubgpd.Neighbor.OpenMessage
import Ubgpd.Neighbor.Session
import Ubgpd.Neighbor.Connection
import Ubgpd.Neighbor.MessageHandler
import Ubgpd.Neighbor.Fsm
import Ubgpd.Speaker.System
import Ubgpd.Speaker.Handshake
import Ubgpd.Speaker.HoldTime
import Ubgpd.Speaker.Collision
import Ubgpd.Speaker.Ownership
import Ubgpd.Speaker.SessionLoss
import Ubgpd.Lib.Blocking
import Ubgpd.Speaker.ManagerLocks
import Ubgpd.Speaker.Traffic
import Ubgpd.Neighbor.UpdateHandling
import Ubgpd.Lib.Preference
import Ubgpd.Lib.Ties
import Ubgpd.Speaker.BestRoutes
import Ubgpd.Speaker.Dump
import Ubgpd.Speaker.BestRouteChanges
import Ubgpd.Speaker.Config
import Ubgpd.Speaker.Establish
import Ubgpd.Speaker.Notification
import Ubgpd.Speaker.Delivery
import Ubgpd.Speaker.StaleAdvertisement
import Ubgpd.Speaker.TableTransfer
import Ubgpd.Neighbor.OutgoingUpdates
import Ubgpd.Speaker.Withdrawal
import Ubgpd.Speaker.ArrivalOrder
import Ubgpd.Speaker.RouteEquality
import Ubgpd.Speaker.DecisionProcess
import Ubgpd.Lib.Grouping
import Ubgpd.Neighbor.InternalUpdates
import Ubgpd.Speaker.PrefixKeys
import Ubgpd.Lib.Tlv
import Ubgpd.Bgp.MessagePanics
import Ubgpd.Neighbor.CapabilityLists
import Ubgpd.Bgp.PrefixLists
import Ubgpd.Bgp.HeaderChecks
import Ubgpd.Neighbor.AdjRibIn
import Ubgpd.Neighbor.BodyRoundTrip
import Ubgpd.Neighbor.RetryDelay
import Ubgpd.Neighbor.FsmTcp
import Ubgpd.Speaker.RouteLog
import Ubgpd.Lib.PathVector
import Ubgpd.Neighbor.ExportedPaths
import Ubgpd.Speaker.Provenance
import Ubgpd.Speaker.Network
import Ubgpd.Fib
import Ubgpd.Speaker.FibManager
import Ubgpd.Speaker.Forwarding
import Ubgpd.Neighbor.Replication
import Ubgpd.Speaker.Agreement
import Ubgpd.Speaker.Dialing
import Ubgpd.Grpc
import Ubgpd.Lib.Undrained
import Ubgpd.Speaker.Teardown
import Ubgpd.Speaker.KeepaliveTimers
import Ubgpd.Lib.Stuck
import Ubgpd.Speaker.Standstill
