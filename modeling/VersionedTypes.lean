import VersionedTypes.Command.Workspace
import VersionedTypes.Main
import VersionedTypes.Proofs.Command.Outcomes
import VersionedTypes.Proofs.Delta
import VersionedTypes.Proofs.Delta.Conservation
import VersionedTypes.Proofs.Delta.Destinations
import VersionedTypes.Proofs.Dump
import VersionedTypes.Proofs.Dump.Colors
import VersionedTypes.Proofs.Dump.Rows
import VersionedTypes.Proofs.Exchange.RoundTrip
import VersionedTypes.Proofs.Lists
import VersionedTypes.Proofs.Lists.Sorting
import VersionedTypes.Proofs.Lists.Splitting
import VersionedTypes.Proofs.Permutation.Blame
import VersionedTypes.Proofs.Permutation.Edits
import VersionedTypes.Proofs.Permutation.Faults
import VersionedTypes.Proofs.Permutation.Marks
import VersionedTypes.Proofs.Permutation.Meaning
import VersionedTypes.Proofs.Permutation.Removals
import VersionedTypes.Proofs.Permutation.Succession
import VersionedTypes.Proofs.Permutation.Undoing
import VersionedTypes.Proofs.Permutation.WorkingList
import VersionedTypes.Proofs.Position
import VersionedTypes.Proofs.Position.Offsets
import VersionedTypes.Proofs.Report
import VersionedTypes.Proofs.Resolution.Completeness
import VersionedTypes.Proofs.Resolution.Depths
import VersionedTypes.Proofs.Resolution.Derivation
import VersionedTypes.Proofs.Resolution.Flattening
import VersionedTypes.Proofs.Resolution.Frame
import VersionedTypes.Proofs.Resolution.Integrity
import VersionedTypes.Proofs.Resolution.Marks
import VersionedTypes.Proofs.Resolution.Meaning
import VersionedTypes.Proofs.Resolution.Origins
import VersionedTypes.Proofs.Resolution.Provenance
import VersionedTypes.Proofs.Resolution.Requests
import VersionedTypes.Proofs.Resolution.Rounds
import VersionedTypes.Proofs.Resolution.Shadowing
import VersionedTypes.Proofs.Resolution.Stranding
import VersionedTypes.Proofs.Resolution.Suppression
import VersionedTypes.Proofs.Shape
import VersionedTypes.Proofs.Survival
import VersionedTypes.Proofs.Survival.Chains
import VersionedTypes.Proofs.Validation.Mistakes
