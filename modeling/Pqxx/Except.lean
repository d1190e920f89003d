set_option autoImplicit false

namespace Pqxx

-- The classes of except.hxx that the modelled code throws or catches, with the
-- std:: classes it throws directly. The SQLSTATE subclasses of sql_error are
-- one kind here: no modelled handler tells them apart.
inductive ExnKind where
  | failure
  | brokenConnection
  | sqlError
  | inDoubtError
  | internalError
  | usageError
  | argumentError
  | rangeError
  | featureNotSupported
  | logicError
  | runtimeError
  | overflowError
deriving DecidableEq, Repr

structure Exn where
  kind : ExnKind
  what : String
  query : String := ""
deriving DecidableEq, Repr

def Exn.internalError (whatarg : String) : Exn := { kind := .internalError, what := "libpqxx internal error: " ++ whatarg }

-- broken_connection, sql_error and in_doubt_error derive from failure, and
-- feature_not_supported from sql_error; the others stand beside them.
def ExnKind.isA : ExnKind → ExnKind → Bool
  | .brokenConnection, .failure => true
  | .sqlError, .failure => true
  | .inDoubtError, .failure => true
  | .featureNotSupported, .failure => true
  | .featureNotSupported, .sqlError => true
  | .usageError, .logicError => true
  | .internalError, .logicError => true
  | .argumentError, .logicError => true
  | .rangeError, .logicError => true
  | .failure, .runtimeError => true
  | .brokenConnection, .runtimeError => true
  | .sqlError, .runtimeError => true
  | .inDoubtError, .runtimeError => true
  | .featureNotSupported, .runtimeError => true
  | .overflowError, .runtimeError => true
  | kind, wanted => decide (kind = wanted)

def Exn.isA (e : Exn) (wanted : ExnKind) : Bool := e.kind.isA wanted

end Pqxx
