import Geotrack.Number.Power
import Geotrack.Number.Decimal
import Geotrack.Number.Reading
import Geotrack.Number.Scalar
import Geotrack.Text.Blank
import Geotrack.Ident.Uuid
import Geotrack.Time.Timestamp
import Geotrack.Json.Parser
import Geotrack.Json.Printer
import Geotrack.Json.Record
import Geotrack.Geodesy.Along
import Geotrack.Plane.Boundary
import Geotrack.Track.Trajectory
import Geotrack.Track.Json
import Geotrack.Cluster.Alert
import Geotrack.Feature.GeoJson
import Geotrack.Feature.Approach
import Geotrack.Fence.Json
import Geotrack.Analysis.Json
import Geotrack.Analysis.Stores
import Geotrack.Analysis.Batch
import Geotrack.Toml.Document
import Geotrack.Csv.Observation
import Geotrack.Main
import Geotrack.Plan.Document
import Geotrack.Proofs.Cluster.Census
import Geotrack.Proofs.Cluster.Growth
import Geotrack.Proofs.Cluster.Partition
import Geotrack.Proofs.Cluster.Labels
import Geotrack.Proofs.Cluster.Reduction
import Geotrack.Proofs.Cluster.Numbering
import Geotrack.Proofs.Cluster.Unlocated
import Geotrack.Proofs.Cluster.Components
import Geotrack.Proofs.Track.Limits
import Geotrack.Proofs.Analysis.Exec
import Geotrack.Proofs.Analysis.Settle
import Geotrack.Proofs.Analysis.Published
import Geotrack.Proofs.Analysis.Retry
import Geotrack.Proofs.Analysis.Fences
import Geotrack.Proofs.Analysis.Window
import Geotrack.Proofs.Analysis.Effect
import Geotrack.Proofs.Plane.Exact
import Geotrack.Proofs.Plane.Chain
import Geotrack.Proofs.Plane.Loop
import Geotrack.Proofs.Plane.Ray
import Geotrack.Proofs.Plane.Tilt
import Geotrack.Proofs.Plane.Inside
import Geotrack.Proofs.Plane.Meeting
import Geotrack.Proofs.Fence.EvenOdd
import Geotrack.Proofs.Analysis.Calls
import Geotrack.Proofs.Analysis.Failure
import Geotrack.Proofs.Analysis.Scope
import Geotrack.Proofs.Analysis.Interleaving
import Geotrack.Proofs.Analysis.Quiet
import Geotrack.Proofs.Analysis.Repeats
import Geotrack.Proofs.Analysis.Rerun
import Geotrack.Proofs.Analysis.Expiry
import Geotrack.Proofs.Analysis.AllClear
import Geotrack.Proofs.Analysis.Parts
import Geotrack.Proofs.Analysis.Visits
import Geotrack.Proofs.Analysis.Accounts
import Geotrack.Proofs.Analysis.Foreign
import Geotrack.Proofs.Analysis.Counted
import Geotrack.Proofs.Analysis.Isolation
import Geotrack.Proofs.Analysis.Newest
import Geotrack.Proofs.Fence.Blocks
import Geotrack.Proofs.Analysis.RowOrder
import Geotrack.Proofs.Fence.Positions
import Geotrack.Proofs.Feature.Encounters
import Geotrack.Proofs.Feature.Corners
import Geotrack.Proofs.Track.Tail
import Geotrack.Proofs.Geodesy.Times
import Geotrack.Proofs.Track.Percentile
import Geotrack.Proofs.Analysis.Immobility
import Geotrack.Proofs.Time.Sorting
import Geotrack.Proofs.Analysis.LookBack
import Geotrack.Proofs.Analysis.Fetched
import Geotrack.Proofs.Fence.Rings
import Geotrack.Proofs.Analysis.RegionNames
import Geotrack.Proofs.Command.DryRun
import Geotrack.Proofs.Plan.Jobs
import Geotrack.Proofs.Number.Gap
import Geotrack.Proofs.Plane.Distinct
import Geotrack.Proofs.Cluster.Walk
