import Distributed.Foundation.Result

/-! Fallible operations on a store.
The state after a failure is part of the result, so "a failed operation changed nothing"
is a property to prove about an operation and not a consequence of its type.
-/

namespace Distributed.Foundation

/-- One part of a larger store, which can be read and replaced. -/
structure Lens (Whole Part : Type) where
  get : Whole → Part
  set : Part → Whole → Whole
  get_set : ∀ part whole, get (set part whole) = part
  set_set : ∀ first second whole, set first (set second whole) = set first whole
  set_get : ∀ whole, set (get whole) whole = whole

/-- The whole store as its own part. -/
def Lens.whole (Whole : Type) : Lens Whole Whole where
  get := fun whole => whole
  set := fun whole _ => whole
  get_set _ _ := rfl
  set_set _ _ _ := rfl
  set_get _ := rfl

/-- An operation on a `State`: an answer or an error, and the state it leaves behind. -/
def Txn (State Error α : Type) : Type := State → Except Error α × State

namespace Txn

variable {State Error α β : Type}

def succeed (value : α) : Txn State Error α := fun state => (.ok value, state)

def andThen (first : Txn State Error α) (second : α → Txn State Error β)
    : Txn State Error β :=
  fun state =>
    match first state with
    | (.ok value, next) => second value next
    | (.error error, next) => (.error error, next)

instance : Monad (Txn State Error) where
  pure := succeed
  bind := andThen

/-- Run a fallible computation that does not see the store. -/
def lift (result : Except Error α) : Txn State Error α := fun state => (result, state)

instance : MonadLift (Except Error) (Txn State Error) where
  monadLift := lift

/-- The current store. -/
def current : Txn State Error State := fun state => (.ok state, state)

/-- Overwrite the store. -/
def update (change : State → State) : Txn State Error Unit :=
  fun state => (.ok (), change state)

/-- Work on a copy of the store and publish the copy if everything succeeded. -/
def staged (work : State → Except Error (α × State)) : Txn State Error α := fun state =>
  match work state with
  | .ok (value, next) => (.ok value, next)
  | .error error => (.error error, state)

/-- `for item in items { operation(item)? }`. -/
def forEach (operation : α → Txn State Error Unit) : List α → Txn State Error Unit
  | [] => pure ()
  | item :: rest => do
      operation item
      forEach operation rest

/-- Report failures as errors of another type. -/
def mapError {Other : Type} (operation : Txn State Error α) (change : Error → Other)
    : Txn State Other α :=
  fun state => ((operation state).1.mapError change, (operation state).2)

/-- Run an operation on one part of a larger store. -/
def onPart {Whole : Type} (lens : Lens Whole State) (operation : Txn State Error α)
    : Txn Whole Error α :=
  fun whole =>
    ((operation (lens.get whole)).1, lens.set (operation (lens.get whole)).2 whole)

/-- Overwrite one part of the store. -/
def updatePart {Part : Type} (lens : Lens State Part) (change : Part → Part)
    : Txn State Error Unit :=
  update fun state => lens.set (change (lens.get state)) state

@[simp] theorem pure_apply (value : α) (state : State)
    : (pure value : Txn State Error α) state = (.ok value, state) :=
  rfl

@[simp] theorem lift_apply (result : Except Error α) (state : State)
    : lift result state = (result, state) :=
  rfl

@[simp] theorem current_apply (state : State)
    : (current : Txn State Error State) state = (.ok state, state) :=
  rfl

@[simp] theorem mapError_apply {Other : Type} (operation : Txn State Error α)
    (change : Error → Other) (state : State)
    : operation.mapError change state
      = ((operation state).1.mapError change, (operation state).2) :=
  rfl

@[simp] theorem update_apply (change : State → State) (state : State)
    : (update change : Txn State Error Unit) state = (.ok (), change state) :=
  rfl

theorem bind_apply (first : Txn State Error α) (second : α → Txn State Error β)
    (state : State)
    : (first >>= second) state
      = match first state with
        | (.ok value, next) => second value next
        | (.error error, next) => (.error error, next) :=
  rfl

theorem bind_ok {first : Txn State Error α} {second : α → Txn State Error β}
    {state next : State} {value : α} (h : first state = (.ok value, next))
    : (first >>= second) state = second value next := by
  rw [bind_apply, h]

/-- A sequence succeeds exactly when both parts do. -/
theorem bind_eq_ok {first : Txn State Error α} {second : α → Txn State Error β}
    {state final : State} {answer : β}
    : (first >>= second) state = (.ok answer, final)
      ↔ ∃ value next, first state = (.ok value, next)
        ∧ second value next = (.ok answer, final) := by
  rw [bind_apply]
  rcases first state with ⟨error | value, next⟩
  · simp
  · simp

theorem lift_bind_eq_ok {result : Except Error α} {next : α → Txn State Error β}
    {state final : State} {answer : β}
    : (lift result >>= next) state = (.ok answer, final)
      ↔ ∃ value, result = .ok value ∧ next value state = (.ok answer, final) := by
  rw [bind_eq_ok]
  simp

theorem mapError_eq_ok {Other : Type} {operation : Txn State Error α}
    {change : Error → Other} {state final : State} {answer : α}
    : operation.mapError change state = (.ok answer, final)
      ↔ operation state = (.ok answer, final) := by
  rw [mapError_apply]
  rcases operation state with ⟨error | value, next⟩
  · simp [Except.mapError]
  · simp [Except.mapError]

@[simp] theorem lift_ok_bind (value : α) (next : α → Txn State Error β)
    : (lift (.ok value) >>= next : Txn State Error β) = next value :=
  rfl

@[simp] theorem lift_error_bind_apply (error : Error) (next : α → Txn State Error β)
    (state : State)
    : (lift (.error error) >>= next : Txn State Error β) state = (.error error, state) :=
  rfl

@[simp] theorem current_bind_apply (next : State → Txn State Error β) (state : State)
    : (current >>= next) state = next state state :=
  rfl

theorem failsWith_bind {Allowed : Error → Prop} {first : Txn State Error α}
    {second : α → Txn State Error β} {state : State}
    (hfirst : Result.FailsWith Allowed (first state).1)
    (hsecond : ∀ value next, Result.FailsWith Allowed (second value next).1)
    : Result.FailsWith Allowed ((first >>= second) state).1 := by
  rw [bind_apply]
  rcases hrun : first state with ⟨error | value, next⟩
  · rw [hrun] at hfirst
    exact Result.failsWith_error.mpr (Result.failsWith_error.mp hfirst)
  · exact hsecond value next

/-- A loop that updates one part of the store folds that part. -/
theorem forEach_updatePart {Part : Type} (lens : Lens State Part) (change : Part → α → Part)
    (items : List α) (state : State)
    : forEach
        (fun item => (updatePart lens fun part => change part item : Txn State Error Unit))
        items state
      = (.ok (), lens.set (items.foldl change (lens.get state)) state) := by
  induction items generalizing state with
  | nil => exact congrArg (Prod.mk _) (lens.set_get state).symm
  | cons item items ih =>
      have hrest := ih (lens.set (change (lens.get state) item) state)
      rw [lens.get_set, lens.set_set] at hrest
      exact hrest

/-- The operation never changes the store. -/
def ReadOnly (operation : Txn State Error α) : Prop :=
  ∀ state, (operation state).2 = state

/-- The operation never fails. -/
def Infallible (operation : Txn State Error α) : Prop :=
  ∀ state, ∃ value, (operation state).1 = .ok value

/-- When the operation fails the store is what it was. -/
def AllOrNothing (operation : Txn State Error α) : Prop :=
  ∀ state error, (operation state).1 = .error error → (operation state).2 = state

theorem readOnly_pure (value : α) : ReadOnly (pure value : Txn State Error α) :=
  fun _ => rfl

theorem readOnly_lift (result : Except Error α)
    : ReadOnly (lift result : Txn State Error α) :=
  fun _ => rfl

theorem readOnly_current : ReadOnly (current : Txn State Error State) :=
  fun _ => rfl

theorem ReadOnly.bind {first : Txn State Error α} {second : α → Txn State Error β}
    (hfirst : ReadOnly first) (hsecond : ∀ value, ReadOnly (second value))
    : ReadOnly (first >>= second) := by
  intro state
  have hstate := hfirst state
  rw [bind_apply]
  rcases hrun : first state with ⟨failure | value, next⟩
  · simpa only [hrun] using hstate
  · rw [hrun] at hstate
    simpa only [← hstate] using hsecond value next

theorem infallible_pure (value : α) : Infallible (pure value : Txn State Error α) :=
  fun _ => ⟨value, rfl⟩

theorem Infallible.bind {first : Txn State Error α} {second : α → Txn State Error β}
    (hfirst : Infallible first) (hsecond : ∀ value, Infallible (second value))
    : Infallible (first >>= second) := by
  intro state
  obtain ⟨value, hvalue⟩ := hfirst state
  have hrun : first state = (.ok value, (first state).2) := Prod.ext hvalue rfl
  rw [bind_ok hrun]
  exact hsecond value _

theorem staged_eq_ok {work : State → Except Error (α × State)} {state next : State}
    {value : α}
    : staged work state = (.ok value, next) ↔ work state = .ok (value, next) := by
  unfold staged
  rcases work state with error | ⟨answer, final⟩
  · simp
  · simp

theorem staged_eq_error {work : State → Except Error (α × State)} {state next : State}
    {error : Error}
    : staged work state = (.error error, next) ↔ work state = .error error ∧ next = state := by
  unfold staged
  rcases work state with failure | ⟨answer, final⟩
  · simp [eq_comm]
  · simp

theorem staged_allOrNothing (work : State → Except Error (α × State))
    : AllOrNothing (staged work) := by
  intro state error herror
  exact (staged_eq_error.mp (Prod.ext herror rfl)).2

/-- What holds of the store, and of the store every success leaves, holds afterwards. -/
theorem AllOrNothing.preserves {operation : Txn State Error α} (h : AllOrNothing operation)
    (Holds : State → Prop) {state : State} (hstate : Holds state)
    (hok : ∀ value next, operation state = (.ok value, next) → Holds next)
    : Holds (operation state).2 := by
  rcases hrun : operation state with ⟨error | value, next⟩
  · have hsame := h state error (by rw [hrun])
    rw [hrun] at hsame
    exact hsame ▸ hstate
  · exact hok value next hrun

theorem AllOrNothing.mapError {Other : Type} {operation : Txn State Error α}
    (h : AllOrNothing operation) (change : Error → Other)
    : AllOrNothing (operation.mapError change) := by
  intro state error herror
  rcases hrun : operation state with ⟨failure | value, next⟩
  · exact h state failure (by rw [hrun])
  · simp [Txn.mapError, hrun, Except.mapError] at herror

theorem Infallible.allOrNothing {operation : Txn State Error α}
    (h : Infallible operation) : AllOrNothing operation := by
  intro state error herror
  obtain ⟨value, hvalue⟩ := h state
  simp only [hvalue, reduceCtorEq] at herror

/-- Checks first, writes last: reading before an all-or-nothing operation keeps it
all-or-nothing. -/
theorem ReadOnly.bind_allOrNothing {first : Txn State Error α}
    {second : α → Txn State Error β} (hfirst : ReadOnly first)
    (hsecond : ∀ value, AllOrNothing (second value))
    : AllOrNothing (first >>= second) := by
  intro state error herror
  have hstate := hfirst state
  rw [bind_apply] at herror ⊢
  rcases hrun : first state with ⟨failure | value, next⟩
  · simpa only [hrun] using hstate
  · rw [hrun] at hstate herror
    simp only at hstate herror ⊢
    subst hstate
    exact hsecond value next error herror

section Frame

variable {Part : Type} {lens : Lens State Part}

/-- The operation writes at most one part of the store. -/
def Within (lens : Lens State Part) (operation : Txn State Error α) : Prop :=
  ∀ state, ∃ part, (operation state).2 = lens.set part state

theorem ReadOnly.within {operation : Txn State Error α} (h : ReadOnly operation)
    : Within lens operation :=
  fun state => ⟨lens.get state, (h state).trans (lens.set_get state).symm⟩

theorem within_updatePart (change : Part → Part)
    : Within lens (updatePart lens change : Txn State Error Unit) :=
  fun _ => ⟨_, rfl⟩

theorem Within.bind {first : Txn State Error α} {second : α → Txn State Error β}
    (hfirst : Within lens first) (hsecond : ∀ value, Within lens (second value))
    : Within lens (first >>= second) := by
  intro state
  obtain ⟨part, hpart⟩ := hfirst state
  rw [bind_apply]
  rcases hrun : first state with ⟨failure | value, next⟩
  · exact ⟨part, by simpa only [hrun] using hpart⟩
  · obtain ⟨last, hlast⟩ := hsecond value next
    refine ⟨last, hlast.trans ?_⟩
    rw [hrun] at hpart
    rw [show next = lens.set part state from hpart, lens.set_set]

end Frame

end Txn

end Distributed.Foundation
