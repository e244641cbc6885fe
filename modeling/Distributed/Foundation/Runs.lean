import Mathlib.Data.List.Chain

/-! Runs of a deterministic system.
An operation carries every input it reads from outside, clock readings included, so a
step is a function and an interleaving of callers is a list of operations.
-/

namespace Distributed.Foundation

/-- One operation of a run, its answer and the states around it. -/
structure Event (State Op Answer : Type) where
  before : State
  op : Op
  answer : Answer
  after : State

variable {State Op Answer : Type}

/-- The event of taking one step. -/
def Event.ofStep (step : Op → State → Answer × State) (state : State) (op : Op)
    : Event State Op Answer :=
  ⟨state, op, (step op state).1, (step op state).2⟩

/-- The events of a run from a state, in order. -/
def history (step : Op → State → Answer × State)
    : State → List Op → List (Event State Op Answer)
  | _, [] => []
  | state, op :: ops => .ofStep step state op :: history step (step op state).2 ops

/-- The state a run ends in. -/
def finalState (step : Op → State → Answer × State) : State → List Op → State
  | state, [] => state
  | state, op :: ops => finalState step (step op state).2 ops

variable {step : Op → State → Answer × State}

theorem finalState_append (state : State) (first second : List Op)
    : finalState step state (first ++ second)
      = finalState step (finalState step state first) second := by
  induction first generalizing state with
  | nil => rfl
  | cons op ops ih => exact ih (step op state).2

/-- A state reached from `initial` by operations whose events all satisfy `Allowed`. -/
inductive Reachable (step : Op → State → Answer × State)
    (Allowed : Event State Op Answer → Prop) (initial : State) : State → Prop
  | start : Reachable step Allowed initial initial
  | next {state : State} (op : Op)
      : Reachable step Allowed initial state →
        Allowed (.ofStep step state op) →
        Reachable step Allowed initial (step op state).2

/-- What holds at the start and is kept by every allowed step holds in every reachable
state. -/
theorem Reachable.invariant {Allowed : Event State Op Answer → Prop}
    {Inv : State → Prop} {initial state : State}
    (hstart : Inv initial)
    (hstep : ∀ (state : State) (op : Op), Inv state → Allowed (.ofStep step state op) →
      Inv (step op state).2)
    (hreach : Reachable step Allowed initial state)
    : Inv state := by
  induction hreach with
  | start => exact hstart
  | next op _ hallowed ih => exact hstep _ op ih hallowed

theorem Reachable.trans {Allowed : Event State Op Answer → Prop}
    {first second third : State}
    (hfirst : Reachable step Allowed first second)
    (hsecond : Reachable step Allowed second third)
    : Reachable step Allowed first third := by
  induction hsecond with
  | start => exact hfirst
  | next op _ hallowed ih => exact .next op ih hallowed

theorem history_step {state : State} {ops : List Op} {event : Event State Op Answer}
    (h : event ∈ history step state ops)
    : step event.op event.before = (event.answer, event.after) := by
  induction ops generalizing state with
  | nil => simp [history] at h
  | cons op ops ih =>
      rcases List.mem_cons.mp h with rfl | h
      · rfl
      · exact ih h

/-- Every event of a run starts and ends in a reachable state. -/
theorem history_reachable (Allowed : Event State Op Answer → Prop) {state : State}
    {ops : List Op} (hallowed : ∀ event ∈ history step state ops, Allowed event)
    : ∀ event ∈ history step state ops,
        Reachable step Allowed state event.before
        ∧ Reachable step Allowed state event.after := by
  induction ops generalizing state with
  | nil => simp [history]
  | cons op ops ih =>
      have hfirst := hallowed _ (List.mem_cons_self ..)
      have hnext : Reachable step Allowed state (step op state).2 := .next op .start hfirst
      intro event hevent
      rcases List.mem_cons.mp hevent with rfl | hevent
      · exact ⟨.start, hnext⟩
      · have hrest := ih (fun later hlater => hallowed later (List.mem_cons_of_mem _ hlater))
        obtain ⟨hbefore, hafter⟩ := hrest event hevent
        exact ⟨hnext.trans hbefore, hnext.trans hafter⟩

/-- The state a run ends in is reachable. -/
theorem finalState_reachable (Allowed : Event State Op Answer → Prop) {state : State}
    {ops : List Op} (hallowed : ∀ event ∈ history step state ops, Allowed event)
    : Reachable step Allowed state (finalState step state ops) := by
  induction ops generalizing state with
  | nil => exact .start
  | cons op ops ih =>
      have hfirst := hallowed _ (List.mem_cons_self ..)
      refine Reachable.trans (.next op .start hfirst) (ih ?_)
      exact fun later hlater => hallowed later (List.mem_cons_of_mem _ hlater)

/-- A split of a history splits the run: the earlier part runs into the state the chosen event
starts in, and the later part runs on from the state it ends in. -/
theorem history_split {state : State} {ops : List Op}
    {earlier later : List (Event State Op Answer)} {event : Event State Op Answer}
    (hsplit : history step state ops = earlier ++ event :: later)
    : ∃ first rest, ops = first ++ event.op :: rest ∧ earlier = history step state first
      ∧ event.before = finalState step state first ∧ later = history step event.after rest
      ∧ finalState step state ops = finalState step event.after rest := by
  induction ops generalizing state earlier with
  | nil => simp [history] at hsplit
  | cons op ops ih =>
      cases earlier with
      | nil =>
          simp only [history, List.nil_append, List.cons.injEq] at hsplit
          obtain ⟨rfl, rfl⟩ := hsplit
          exact ⟨[], ops, rfl, rfl, rfl, rfl, rfl⟩
      | cons other earlier =>
          simp only [history, List.cons_append, List.cons.injEq] at hsplit
          obtain ⟨rfl, hrest⟩ := hsplit
          obtain ⟨first, rest, rfl, rfl, hbefore, hlater, hfinal⟩ := ih hrest
          exact ⟨op :: first, rest, rfl, rfl, hbefore, hlater, hfinal⟩

theorem mem_history_of_split {state : State} {ops : List Op}
    {earlier later : List (Event State Op Answer)} {event : Event State Op Answer}
    (hsplit : history step state ops = earlier ++ event :: later)
    : event ∈ history step state ops := by
  rw [hsplit]
  exact List.mem_append_right _ List.mem_cons_self

theorem history_before {state : State} {ops : List Op} {event : Event State Op Answer}
    (h : event ∈ history step state ops)
    : ∃ taken, event.before = finalState step state taken := by
  obtain ⟨earlier, later, hsplit⟩ := List.append_of_mem h
  obtain ⟨taken, -, -, -, hbefore, -⟩ := history_split hsplit
  exact ⟨taken, hbefore⟩

/-- What holds between the event of a step and every event of every run after it holds
between any two events of a run, in their order. -/
theorem history_pairwise (R : Event State Op Answer → Event State Op Answer → Prop)
    (hstep : ∀ (state : State) (op : Op) (rest : List Op),
      ∀ later ∈ history step (step op state).2 rest, R (.ofStep step state op) later)
    (state : State) (ops : List Op)
    : (history step state ops).Pairwise R := by
  induction ops generalizing state with
  | nil => exact .nil
  | cons op ops ih => exact .cons (hstep state op ops) (ih (step op state).2)

/-- Once an event establishes `Holds` and every allowed step keeps it, every later event
of the run starts in a state where it holds. -/
theorem history_after (Allowed : Event State Op Answer → Prop) (Holds : State → Prop)
    {state : State} {ops : List Op}
    {earlier later : List (Event State Op Answer)} {event : Event State Op Answer}
    (hallowed : ∀ event ∈ history step state ops, Allowed event)
    (hsplit : history step state ops = earlier ++ event :: later)
    (hestablished : Holds event.after)
    (hkept : ∀ (state : State) (op : Op), Holds state → Allowed (.ofStep step state op) →
      Holds (step op state).2)
    : ∀ next ∈ later, Holds next.before := by
  obtain ⟨-, rest, -, -, -, rfl, -⟩ := history_split hsplit
  intro next hnext
  have hlater : ∀ next ∈ history step event.after rest, Allowed next := by
    intro next hnext
    refine hallowed next ?_
    rw [hsplit]
    exact List.mem_append_right _ (List.mem_cons_of_mem _ hnext)
  exact (history_reachable Allowed hlater next hnext).1.invariant hestablished hkept

/-- What holds at the start of a run holds at its end, or some event ends it. -/
theorem history_turn (Holds : State → Prop) {state : State} (h : Holds state) (ops : List Op)
    : Holds (finalState step state ops)
      ∨ ∃ event ∈ history step state ops, Holds event.before ∧ ¬Holds event.after := by
  induction ops generalizing state with
  | nil => exact .inl h
  | cons op ops ih =>
      by_cases hnext : Holds (step op state).2
      · rcases ih hnext with hfinal | ⟨event, hevent, hturn⟩
        · exact .inl hfinal
        · exact .inr ⟨event, List.mem_cons_of_mem _ hevent, hturn⟩
      · exact .inr ⟨_, List.mem_cons_self .., h, hnext⟩

/-- What an event of a run establishes holds at the end of the run, or a later event ends
it. -/
theorem history_turn_after (Holds : State → Prop) {state : State} {ops : List Op}
    {earlier later : List (Event State Op Answer)} {event : Event State Op Answer}
    (hsplit : history step state ops = earlier ++ event :: later) (h : Holds event.after)
    : Holds (finalState step state ops)
      ∨ ∃ turn ∈ later, Holds turn.before ∧ ¬Holds turn.after := by
  obtain ⟨-, rest, -, -, -, rfl, hfinal⟩ := history_split hsplit
  rw [hfinal]
  exact history_turn Holds h rest

/-- Some events emit an item and the state remembers the last one. If every emitted item
follows the remembered one, the items of a run form a chain. -/
theorem history_isChain {Item : Type} (step : Op → State → Answer × State)
    (Inv : State → Prop) (R : Item → Item → Prop) (last : State → Option Item)
    (emit : Event State Op Answer → Option Item)
    (hkept : ∀ (state : State) (op : Op), Inv state → Inv (step op state).2)
    (hstep : ∀ (state : State) (op : Op), Inv state →
      emit (.ofStep step state op) = none ∧ last (step op state).2 = last state
        ∨ ∃ item, emit (.ofStep step state op) = some item
          ∧ last (step op state).2 = some item
          ∧ ∀ previous, last state = some previous → R previous item)
    {state : State} (hstate : Inv state) (ops : List Op)
    : ((last state).toList ++ (history step state ops).filterMap emit).IsChain R := by
  induction ops generalizing state with
  | nil =>
      cases last state with
      | none => exact .nil
      | some item => exact .singleton item
  | cons op ops ih =>
      have hrest := ih (hkept state op hstate)
      rw [history, List.filterMap_cons]
      rcases hstep state op hstate with ⟨hemit, hlast⟩ | ⟨item, hemit, hlast, hfollows⟩
      · rw [hemit]
        rwa [hlast] at hrest
      · rw [hemit]
        rw [hlast] at hrest
        cases hprevious : last state with
        | none => exact hrest
        | some previous => exact .cons_cons (hfollows previous hprevious) hrest

/-- What relates the items emitted so far to the state, and is kept by every step, relates
all items of a run to the state it ends in. -/
theorem history_emitted {Item : Type} (step : Op → State → Answer × State)
    (Inv : List Item → State → Prop) (emit : Event State Op Answer → List Item)
    (hstep : ∀ (items : List Item) (state : State) (op : Op), Inv items state →
      Inv (items ++ emit (.ofStep step state op)) (step op state).2)
    {items : List Item} {state : State} (hstate : Inv items state) (ops : List Op)
    : Inv (items ++ (history step state ops).flatMap emit) (finalState step state ops) := by
  induction ops generalizing items state with
  | nil => simpa [history, finalState] using hstate
  | cons op ops ih =>
      have hrest := ih (hstep items state op hstate)
      rwa [List.append_assoc, ← List.flatMap_cons] at hrest

/-- What relates an account of the events so far to the state, and is kept by every step,
relates the account of a whole run to the state it ends in. -/
theorem history_foldl {Account : Type} (step : Op → State → Answer × State)
    (Inv : Account → State → Prop) (enter : Account → Event State Op Answer → Account)
    (hstep : ∀ (account : Account) (state : State) (op : Op), Inv account state →
      Inv (enter account (.ofStep step state op)) (step op state).2)
    {account : Account} {state : State} (hstate : Inv account state) (ops : List Op)
    : Inv ((history step state ops).foldl enter account) (finalState step state ops) := by
  induction ops generalizing account state with
  | nil => exact hstate
  | cons op ops ih => exact ih (hstep account state op hstate)

/-- A value that only grows can be tracked along a run without being stored in the state.
What holds of an event for the value it was taken with holds for the final one. -/
theorem history_ghost {Ghost : Type} (step : Op → State → Answer × State)
    (Grows : Ghost → Ghost → Prop) (Inv : Ghost → State → Prop)
    (Good : Ghost → Event State Op Answer → Prop) (hrefl : ∀ ghost, Grows ghost ghost)
    (htrans : ∀ {first second third}, Grows first second → Grows second third →
      Grows first third)
    (hmono : ∀ {ghost grown event}, Grows ghost grown → Good ghost event → Good grown event)
    (hstep : ∀ (ghost : Ghost) (state : State) (op : Op), Inv ghost state →
      ∃ grown, Grows ghost grown ∧ Inv grown (step op state).2
        ∧ Good grown (.ofStep step state op))
    {ghost : Ghost} {state : State} (hstate : Inv ghost state) (ops : List Op)
    : ∃ final, Grows ghost final ∧ Inv final (finalState step state ops)
      ∧ ∀ event ∈ history step state ops, Good final event := by
  induction ops generalizing ghost state with
  | nil => exact ⟨ghost, hrefl ghost, hstate, by simp [history]⟩
  | cons op ops ih =>
      obtain ⟨grown, hgrows, hnext, hgood⟩ := hstep ghost state op hstate
      obtain ⟨final, hfinal, hinv, hrest⟩ := ih hnext
      refine ⟨final, htrans hgrows hfinal, hinv, ?_⟩
      intro event hevent
      rcases List.mem_cons.mp hevent with rfl | hevent
      · exact hmono hfinal hgood
      · exact hrest event hevent

end Distributed.Foundation
