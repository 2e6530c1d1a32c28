import MarketFeed.Decimal.Attempt
import MarketFeed.Script.Reading

/-!
Steps of a script. They act on one object in turn; a step that fails leaves the object as it was
left when it failed, and the next one goes on with it.
-/

namespace MarketFeed.Script

/-- A step on an object of type `σ`. -/
abbrev Step (σ : Type) := ExceptT Problem (StateM σ)

namespace Step

variable {σ τ α : Type}

def ofAttempt (attempt : Attempt σ α) : Step σ α :=
  ExceptT.mk do
    let (result, object) := attempt.runOn (← get)
    set object
    return result.mapError .overflow

/-- An operation that gives a result and the object after it. -/
def operate (operation : σ → α × σ) : Step σ α := do
  let (result, object) := operation (← get)
  set object
  return result

/-- A step on a part of the object. -/
def onPart (part : σ → τ) (put : τ → σ → σ) (step : Step τ α) : Step σ α :=
  ExceptT.mk do
    let (result, changed) := StateT.run (ExceptT.run step) (part (← get))
    modify (put changed)
    return result

/-- The results of steps that scripts describe. A step that overflows is the last one. -/
def runAll (step : Json → Step σ α) : List Json → σ → List (Except Problem α)
  | [], _ => []
  | script :: rest, object =>
    match StateT.run (ExceptT.run (step script)) object with
    | (.error (.overflow overflow), _) => [.error (.overflow overflow)]
    | (result, object) => result :: runAll step rest object

end Step

/-- The fault of a step that there is none of. -/
def unknown {α : Type} (name : String) : Reading α := unclear ("no step is called " ++ name)

end MarketFeed.Script
