import FailureFabric.Authority

namespace FailureFabric

/-!
# Protocol messages

The messages between the coordinator, its workers and its clients.  A connection delivers whole
messages in order, or ends.
-/

/-- `WireMessage`. -/
structure WireMessage where
  type : ProtocolMessage := .HEARTBEAT
  op : OperationId := {}
  attempt : AttemptId := {}
  worker : WorkerId := {}
  boot : WorkerBootId := {}
  authority : AuthorityEnvelope := {}
  flag : Bool := false
  text : Text := []
  seq : UInt64 := 0
deriving DecidableEq

end FailureFabric
