import WorkloadMap.Cache.Decode
import WorkloadMap.Cache.Metrics
import WorkloadMap.Main
import WorkloadMap.Proofs.Index.Entry
import WorkloadMap.Proofs.Index.Children
import WorkloadMap.Proofs.Index.Agreement
import WorkloadMap.Proofs.Index.Rank
import WorkloadMap.Proofs.Index.Order
import WorkloadMap.Proofs.Index.Replacement
import WorkloadMap.Proofs.Index.AtRest
import WorkloadMap.Proofs.Index.Strongest
import WorkloadMap.Proofs.Index.Orphans
import WorkloadMap.Proofs.Workload.Build
import WorkloadMap.Proofs.Workload.Listing
import WorkloadMap.Proofs.Workload.Successors
import WorkloadMap.Proofs.Workload.Pods
import WorkloadMap.Proofs.Workload.Narrowed
import WorkloadMap.Proofs.Workload.Custom
import WorkloadMap.Proofs.Batch
import WorkloadMap.Proofs.Resolver.Fetch
import WorkloadMap.Proofs.Resolver.Run
import WorkloadMap.Proofs.Resolver.Calls
import WorkloadMap.Proofs.Resolver.Detail
import WorkloadMap.Proofs.Resolver.Current
import WorkloadMap.Proofs.Resolver.Views
import WorkloadMap.Proofs.Resolver.Hint
import WorkloadMap.Proofs.Resolver.Excluded
import WorkloadMap.Proofs.Cache.Replay
import WorkloadMap.Proofs.Cache.Gauge
import WorkloadMap.Proofs.Resolver.Carried
import WorkloadMap.Proofs.App.Group
import WorkloadMap.Proofs.Cache.Transparent
import WorkloadMap.Proofs.Text.Blank
import WorkloadMap.Proofs.Selector.Grammar
import WorkloadMap.Proofs.Selector.Requirement
import WorkloadMap.Proofs.Selector.Fault
import WorkloadMap.Proofs.Selector.Cut
import WorkloadMap.Proofs.Selector.Parse
import WorkloadMap.Proofs.Selector.Label
import WorkloadMap.Proofs.Workload.Labeled
import WorkloadMap.Proofs.Resolver.Apps
import WorkloadMap.Proofs.Selector.RoundTrip
import WorkloadMap.Proofs.Selector.Spelling
import WorkloadMap.Proofs.Cluster.Address
import WorkloadMap.Proofs.Cluster.NotFound
import WorkloadMap.Proofs.Resolver.Update
import WorkloadMap.Proofs.Resolver.Whole
import WorkloadMap.Proofs.Resolver.Gate
import WorkloadMap.Proofs.Cache.Relist
import WorkloadMap.Proofs.Workload.Entries
import WorkloadMap.Proofs.Resolver.Snapshot
import WorkloadMap.Proofs.Istio.Host
import WorkloadMap.Proofs.Istio.Attribution
import WorkloadMap.Proofs.Json.Table
import WorkloadMap.Proofs.Istio.Selecting
import WorkloadMap.Proofs.Resolver.Linked
import WorkloadMap.Proofs.App.Partition
import WorkloadMap.Proofs.Pattern.Whole
import WorkloadMap.Proofs.App.References
import WorkloadMap.Proofs.Resolver.BestEffort
import WorkloadMap.Proofs.App.Labels
import WorkloadMap.Proofs.Selector.Joining
import WorkloadMap.Proofs.Selector.Slices
import WorkloadMap.Proofs.Json.Reading
import WorkloadMap.Proofs.Sidecar
