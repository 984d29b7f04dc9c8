import Supervisor.JobDomain

namespace Supervisor

inductive ConflictReason where
  | alreadyRunning | notRunning | nameConflict | jobNameConflict | hasDependents | jobHasActiveRuns
  | scheduleRevisionConflict | operationBusy
deriving DecidableEq, Repr

/-- What an operation of the facade answers when it fails. -/
inductive AppError where
  | notFound (kind name : String)
  | conflict (reason : ConflictReason)
  | invalidRequest (message : String)
  | invalidConfig (message : String)
  | invalidCron (message : String)
  | cycleDetected
  | configRecoveryRequired (what : String)
  | jobDeletionRecoveryRequired (what : String)
  | internal (message : String)
deriving DecidableEq, Repr

/-- The conversion of a repository failure. -/
def RepoError.toAppError : RepoError → AppError
  | .conflict why => .invalidRequest why
  | .notFound what => .internal ("repository: " ++ what)
  | .backend why => .internal ("repository: " ++ why)

def RepoError.message : RepoError → String
  | .notFound what => "not found: " ++ what
  | .conflict why => "conflict: " ++ why
  | .backend why => "backend error: " ++ why

end Supervisor
