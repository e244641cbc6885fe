import Distributed.Foundation.Result

/-! Updates that each read and write the value under one key.
A sequence of updates does to the value under a key what the updates of that key do to it in
turn, so sequences that agree on the updates of every key leave the same values.
-/

namespace Distributed.Foundation

/-- States seen through the value under each key, and updates of one key each. -/
structure KeyedUpdates (State Update Key Value ε : Type) where
  key : Update → Key
  value : State → Key → Value
  /-- What an update makes of the value under its key. -/
  effect : Update → Value → Except ε Value
  step : State → Update → Except ε State
  step_ok : ∀ {state update next}, step state update = .ok next →
    effect update (value state (key update)) = .ok (value next (key update))
      ∧ ∀ other, other ≠ key update → value next other = value state other
  step_of_effect : ∀ {state update changed},
    effect update (value state (key update)) = .ok changed →
      ∃ next, step state update = .ok next

namespace KeyedUpdates

variable {State Update Key Value ε : Type} [DecidableEq Key]

/-- The updates of one key, in their order. -/
def updatesOf (system : KeyedUpdates State Update Key Value ε) (key : Key)
    (updates : List Update) : List Update :=
  updates.filter fun update => system.key update = key

/-- What a sequence of updates makes of the value under one key. -/
def effects (system : KeyedUpdates State Update Key Value ε) (key : Key)
    (updates : List Update) (value : Value) : Except ε Value :=
  (system.updatesOf key updates).foldlM (fun value update => system.effect update value) value

variable {system : KeyedUpdates State Update Key Value ε} {update : Update}
  {updates : List Update} {state final : State}

end KeyedUpdates

end Distributed.Foundation
