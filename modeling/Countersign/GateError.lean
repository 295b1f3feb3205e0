namespace Countersign

-- A failure of the gate itself. A denied update is none: it is a decision.
inductive GateError
  | decode (reason : String)
  | config (reason : String)
  | auditWriteFailed (reason : String)
  deriving DecidableEq, Repr

def GateError.message : GateError → String
  | decode reason => reason
  | config reason => "configuration error: " ++ reason
  | auditWriteFailed reason => "audit write failed: " ++ reason

end Countersign
