/-!
What a proxy counts, and the document in which the counts are shown.
-/

namespace ModuleDepot.Proxy

/-- Where an archive was taken from: an open proxy, or the module's own host. -/
inductive ArchiveSource where
  | openProxy
  | home
deriving DecidableEq

inductive Counter where
  | cycles
  | cycleFailures
  | downloads (source : ArchiveSource)
  | failures
  | renumberings
deriving DecidableEq

structure Counts where
  cycles : Nat
  cycleFailures : Nat
  openProxyDownloads : Nat
  homeDownloads : Nat
  failures : Nat
  renumberings : Nat
deriving DecidableEq

namespace Counts

def zero : Counts := ⟨0, 0, 0, 0, 0, 0⟩

def bump (counts : Counts) : Counter → Counts
  | .cycles => { counts with cycles := counts.cycles + 1 }
  | .cycleFailures => { counts with cycleFailures := counts.cycleFailures + 1 }
  | .downloads .openProxy => { counts with openProxyDownloads := counts.openProxyDownloads + 1 }
  | .downloads .home => { counts with homeDownloads := counts.homeDownloads + 1 }
  | .failures => { counts with failures := counts.failures + 1 }
  | .renumberings => { counts with renumberings := counts.renumberings + 1 }

structure Family where
  name : String
  help : String
  type : String
  samples : List (String × Nat)

/-- The families in ascending order of their names. Of the time that cycles take only the
number of cycles is kept. -/
def families (counts : Counts) : List Family :=
  [⟨"modprox_modules_downloaded_total", "Module archives downloaded, by origin", "counter",
      [("\x7borigin=\"open_proxy\"\x7d", counts.openProxyDownloads),
        ("\x7borigin=\"upstream\"\x7d", counts.homeDownloads)]⟩,
   ⟨"modprox_modules_failed_total", "Modules that failed to download or index", "counter",
      [("", counts.failures)]⟩,
   ⟨"modprox_reconcile_cycle_failures_total",
      "Cycles abandoned because the index or registry could not be read", "counter",
      [("", counts.cycleFailures)]⟩,
   ⟨"modprox_reconcile_cycles_total", "Total number of reconciliation cycles run", "counter",
      [("", counts.cycles)]⟩,
   ⟨"modprox_reconcile_duration_seconds", "Time taken by one reconciliation cycle", "histogram",
      [("_count", counts.cycles - counts.cycleFailures)]⟩,
   ⟨"modprox_serial_ids_updated_total",
      "Indexed modules whose registry serial ID was corrected in place", "counter",
      [("", counts.renumberings)]⟩]

def Family.lines (f : Family) : List String :=
  ["# HELP " ++ f.name ++ " " ++ f.help, "# TYPE " ++ f.name ++ " " ++ f.type] ++
    f.samples.map fun (suffix, n) => f.name ++ suffix ++ " " ++ toString n

def text (counts : Counts) : String :=
  String.join ((counts.families.flatMap Family.lines).map (· ++ "\n"))

end Counts

end ModuleDepot.Proxy
