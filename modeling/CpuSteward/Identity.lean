/-!
# The names of the control plane

What the control plane calls itself in the log, and the directory that holds its
files.
-/

namespace CpuSteward.Identity

/-- The name in log records. -/
def name : String := "schedctl"

/-- The version in log records. -/
def version : String := "0.1.0"

/-- The directory of the control plane, below the root of the tree. -/
def directory : String := "hmbird_sched"

/-- The file of the statistics report, in the directory of the control plane. -/
def reportFile : String := "hmbird_stats"

end CpuSteward.Identity
