import Tenancy.Main
import Tenancy.Database.Edit
import Tenancy.Proofs.Completion
import Tenancy.Proofs.Order
import Tenancy.Proofs.Effect
import Tenancy.Proofs.Forest
import Tenancy.Proofs.Requests
import Tenancy.Proofs.Refinement
import Tenancy.Proofs.Reparenting
import Tenancy.Proofs.Soundness
import Tenancy.Proofs.Acceptance
import Tenancy.Proofs.Acyclicity
import Tenancy.Proofs.CycleFreedom
import Tenancy.Proofs.Presence
import Tenancy.Proofs.History
import Tenancy.Proofs.Reading
import Tenancy.Proofs.Transactions
import Tenancy.Proofs.MovesInTurn
import Tenancy.Proofs.Leaves
import Tenancy.Proofs.CycleScan
import Tenancy.Proofs.Lookups
import Tenancy.Proofs.Independence
import Tenancy.Proofs.ShortestWays
import Tenancy.Proofs.Passes
import Tenancy.Proofs.Relocation
import Tenancy.Proofs.ExitStatus
import Tenancy.Proofs.Doubling
import Tenancy.Proofs.ParentEdge
import Tenancy.Proofs.MoveCounts
import Tenancy.Proofs.RepairCounts
import Tenancy.Proofs.Rejections
import Tenancy.Proofs.Adoption
import Tenancy.Proofs.Plans
import Tenancy.Proofs.MoveScan
import Tenancy.Proofs.Agreement
import Tenancy.Proofs.Preparation
import Tenancy.Proofs.Refusals
import Tenancy.Proofs.IdRange
import Tenancy.Proofs.Numerals
import Tenancy.Proofs.WellFormed
import Tenancy.Proofs.Scalars
import Tenancy.Proofs.RoundTrip
import Tenancy.Proofs.Dump
