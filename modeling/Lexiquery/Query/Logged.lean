import Lexiquery.Error
import Lexiquery.Metrics.Event

/-! Computations that may fail and report events whether they fail or not. -/

namespace Lexiquery

structure Logged (α : Type) where
  result : Except Error α
  events : List Event

namespace Logged

def ok (a : α) : Logged α := ⟨.ok a, []⟩

def fail (e : Error) : Logged α := ⟨.error e, []⟩

def report (events : List Event) : Logged Unit := ⟨.ok (), events⟩

def lift (r : Except Error α) : Logged α := ⟨r, []⟩

def andThen (x : Logged α) (f : α → Logged β) : Logged β :=
  match x.result with
  | .ok a => ⟨(f a).result, x.events ++ (f a).events⟩
  | .error e => ⟨.error e, x.events⟩

instance : Monad Logged where
  pure := ok
  bind := andThen

end Logged

end Lexiquery
