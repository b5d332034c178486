import CpuSteward.System.Lifecycle
import CpuSteward.Config.Constants
import CpuSteward.Proofs.Write
import CpuSteward.Proofs.Run
import CpuSteward.Proofs.Step
import CpuSteward.Proofs.Ranges
import CpuSteward.Proofs.RateLimit
import CpuSteward.Proofs.Event
import CpuSteward.Proofs.PolicyTick
import CpuSteward.Proofs.Ledger
import CpuSteward.Proofs.Forest
import CpuSteward.Proofs.Layout
import CpuSteward.Proofs.Reload
import CpuSteward.Proofs.Session
import CpuSteward.Proofs.Lineage
import CpuSteward.Proofs.Removal
import CpuSteward.Proofs.Numbering
import CpuSteward.Proofs.Grammar
import CpuSteward.Proofs.Backup
import CpuSteward.Proofs.Offline
import CpuSteward.Proofs.Readback
import CpuSteward.Proofs.Resolution
import CpuSteward.Proofs.Guarded
import CpuSteward.Proofs.GuardedText
import CpuSteward.Proofs.NoFailure
import CpuSteward.Proofs.Handles
import CpuSteward.Proofs.Mutation
import CpuSteward.Proofs.Adaptation
import CpuSteward.Proofs.Deadline
import CpuSteward.Proofs.SavedGovernors
import CpuSteward.Proofs.Blocks
import CpuSteward.Proofs.Overload
import CpuSteward.Proofs.Loaded
import CpuSteward.Proofs.Entries
import CpuSteward.Proofs.Names
import CpuSteward.Proofs.ByteLiteral
import CpuSteward.Proofs.QuotedText
import CpuSteward.Proofs.SourceConstants
import CpuSteward.Proofs.Generated
import CpuSteward.Proofs.MaskSet
