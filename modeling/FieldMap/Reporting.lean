import FieldMap.Traced

/-!
# Reporting as it happens

A program that talks to the world reports its events as it goes along; the traced
computations it uses hand theirs over when they are done.
-/

namespace FieldMap

/-- Where events go. -/
class Reporting (m : Type → Type) where
  /-- Reports events in order. -/
  report : List Event → m Unit

/-- Reports the events of a traced computation and goes on with its result. -/
def perform {m : Type → Type} [Monad m] [Reporting m] {ε α : Type} (x : Traced ε α) :
    ExceptT ε m α := do
  ExceptT.lift (Reporting.report x.events)
  ExceptT.mk (pure x.result)

end FieldMap
