import NovaNet.BlockRule
import NovaNet.EgressRuns
import NovaNet.PeerCoverage
import NovaNet.ClusterAgreement
import NovaNet.PolicyConvergence
import NovaNet.MaglevSlots
import NovaNet.ServiceConvergence
import NovaNet.ServiceEncoding
import NovaNet.NatRoundTrip
import NovaNet.PodRefinement
import NovaNet.IpamCalls
import NovaNet.LbRuns
import NovaNet.IdentityRuns
import NovaNet.RemotePods
import NovaNet.OperatorRuns
import NovaNet.RoutingInstance
import NovaNet.RoutingLeaks
import NovaNet.RoutingConvergence
import NovaNet.FrrScripts
import NovaNet.RoutingShutdown
import NovaNet.NativePeers
import NovaNet.AdmittedPolicies
import NovaNet.PolicySpecificity
import NovaNet.EventSubscriptions
import NovaNet.PoolAdmission
import NovaNet.RoutingTrigger
import NovaNet.GatewayIndependence
import NovaNet.GatewayMeaning
import NovaNet.PeerManagedBfd
import NovaNet.VipHealth
import NovaNet.HostPolicyRuns
import NovaNet.AccountPeers
import NovaNet.CompilerAgreement
import NovaNet.PeerSelectors
import NovaNet.SlotAllocator
import NovaNet.MaglevTable
import NovaNet.ServiceFields
import NovaNet.TargetPorts
import NovaNet.SocketOrigins
import NovaNet.BackendSelection
import NovaNet.Bandwidth
import NovaNet.DnsCache
import NovaNet.RouteMapNames
import NovaNet.ClusterMembership
import NovaNet.PrefixPolicy
