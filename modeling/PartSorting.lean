import PartSorting.Config.Loader
import PartSorting.Fault.Message
import PartSorting.Grid
import PartSorting.Json.Printer
import PartSorting.Part.Printer
import PartSorting.Restriction
import PartSorting.Session
import PartSorting.Table.Order
import PartSorting.Workflow.Printer
import PartSorting.Proofs.Box.Volume
import PartSorting.Proofs.Box.Intersection
import PartSorting.Proofs.Box.Census
import PartSorting.Proofs.Table.Walk
import PartSorting.Proofs.Table.Stations
import PartSorting.Proofs.Trace.Sequence
import PartSorting.Proofs.Workflow.Division
import PartSorting.Proofs.Table.Sweep
import PartSorting.Proofs.Table.Delivery
import PartSorting.Proofs.Table.Ranges
import PartSorting.Proofs.Session.Counting
import PartSorting.Proofs.Table.Cover
import PartSorting.Proofs.Table.Failure
import PartSorting.Proofs.Table.Mask
import PartSorting.Proofs.Table.Lockstep
import PartSorting.Proofs.Listing.Spelling
import PartSorting.Proofs.Grid.Points
import PartSorting.Proofs.Grid.Numbering
import PartSorting.Proofs.Table.Trial
import PartSorting.Proofs.Table.Tally
import PartSorting.Proofs.Table.Schedule
import PartSorting.Proofs.Table.Order
import PartSorting.Proofs.Table.Safety
import PartSorting.Proofs.Workflow.Partition
import PartSorting.Proofs.Condition.Opposite
import PartSorting.Proofs.Condition.Readings
import PartSorting.Proofs.Table.Clipping
import PartSorting.Proofs.Table.Conservation
import PartSorting.Proofs.Workflow.Decision
import PartSorting.Proofs.Table.Windows
import PartSorting.Proofs.Table.Reach
import PartSorting.Proofs.Table.Search
import PartSorting.Proofs.Table.Topology
import PartSorting.Proofs.Table.Unresolved
import PartSorting.Proofs.Table.Detection
import PartSorting.Proofs.Table.Openings
import PartSorting.Proofs.Table.Flow
import PartSorting.Proofs.Restriction.Denotation
import PartSorting.Proofs.Condition.Grammar
import PartSorting.Proofs.Workflow.Grammar
import PartSorting.Proofs.Part.Grammar
import PartSorting.Proofs.Listing.Sections
import PartSorting.Proofs.Table.Ratings
import PartSorting.Proofs.Workflow.CleanNames
import PartSorting.Proofs.Listing.ClosedKinds
import PartSorting.Proofs.Config.Loading
