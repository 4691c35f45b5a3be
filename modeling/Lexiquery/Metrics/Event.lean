import Lexiquery.Kind

/-! What a query reports about itself while it is compiled and run. -/

namespace Lexiquery

inductive Event
  | statementCompiled (kind : Kind) (joins ctes : Nat)
  | queryStart (kind : Kind)
  | queryFinish (kind : Kind) (rows : Nat)
  | emptyFirst (kind : Kind)
  | hydration (kind : Kind)
  | databaseError (kind : Kind)
  deriving DecidableEq

def Event.kind : Event → Kind
  | statementCompiled k _ _ | queryStart k | queryFinish k _ | emptyFirst k | hydration k
  | databaseError k => k

end Lexiquery
