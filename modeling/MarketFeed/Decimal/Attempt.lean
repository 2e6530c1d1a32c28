import MarketFeed.Decimal.Arithmetic

/-!
Computations on a state that stop when an operation on decimals overflows. What was done to the
state before that stays done.
-/

namespace MarketFeed

/-- A computation on states of type `σ` that an overflow can end. -/
abbrev Attempt (σ : Type) := ExceptT Decimal.Overflow (StateM σ)

namespace Attempt

/-- The result of an operation on decimals as a step that leaves the state alone. -/
def of {σ α : Type} (result : Except Decimal.Overflow α) : Attempt σ α := ExceptT.mk (pure result)

/-- Runs on a state; the state comes back also when the computation ended early. -/
def runOn {σ α : Type} (attempt : Attempt σ α) (state : σ) : Except Decimal.Overflow α × σ :=
  StateT.run (ExceptT.run attempt) state

/-- Runs on a part of the state and puts the part back, also when the computation ended early. -/
def onPart {σ τ α : Type} (part : τ) (put : τ → σ → σ) (attempt : Attempt τ α) : Attempt σ α :=
  ExceptT.mk do
    let (result, part) := attempt.runOn part
    modify (put part)
    return result

end Attempt

end MarketFeed
