import NginxGateway.Order.StableSort
import NginxGateway.Order.Merge
import NginxGateway.GoSort.Slice
import NginxGateway.GoSort.Insertion
import NginxGateway.GoSort.SymMerge
import NginxGateway.GoSort.Stable
import NginxGateway.GoSort.Checked
import NginxGateway.Api.Types
import NginxGateway.Go.Map
import NginxGateway.Dataplane.MatchRule
import NginxGateway.Dataplane.Sort
import NginxGateway.Graph.GatewayClass
import NginxGateway.Go.Fmt
import NginxGateway.Resolver.EndpointSlices
import NginxGateway.Provisioner.Manager
