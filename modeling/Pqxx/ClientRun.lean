import Pqxx.CommitVerdict
import Pqxx.Lib.Run

set_option autoImplicit false

namespace Pqxx

open Lib

-- What a client may do with a connection and the transactions on it.
inductive ClientOp where
  | openWork (i : Nat) (kind : Kind) (classname name startArgs logTable : String)
  | openSubtransaction (i parent : Nat) (name : String)
  | work (i : Nat) (op : WorkOp)
  | setVariable (var value : String)
  | getVariable (var : String)
  | addReceiver (channel : String) (receiver : Nat)
  | removeReceiver (channel : String) (receiver : Nat)
  | activate
  | deactivate
  | reset
  | simulateFailure
deriving DecidableEq, Repr

def ClientOp.perform (env : Outside) : ClientOp → Client Unit
  | .openWork i kind classname name startArgs logTable => Pqxx.openWork env i kind classname name startArgs logTable
  | .openSubtransaction i parent name => Pqxx.openSubtransaction i parent name
  | .work i op => op.perform env i
  | .setVariable var value => Connection.setVariable env var value
  | .getVariable var => do
      let _ ← Connection.getVariable env var
      pure ()
  | .addReceiver channel receiver => Connection.addReceiver env channel receiver
  | .removeReceiver channel receiver => Connection.removeReceiver env channel receiver
  | .activate => Connection.activate env
  | .deactivate => Connection.deactivate
  | .reset => Connection.reset env
  | .simulateFailure => Connection.simulateFailure

def clientStep (env : Outside) (w : World) (op : ClientOp) : World := (op.perform env w).2

end Pqxx
