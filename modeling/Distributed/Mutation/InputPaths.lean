import Distributed.Mutation.Bind
import Mathlib.Data.List.Find
import Mathlib.Data.List.Nodup

/-! Input bindings resolve by their exact path unless two paths have one joined text.
-/

namespace Distributed.Mutation

open Distributed.Foundation Distributed.Platform Distributed.Projection

theorem toList_joinPath (path : List String)
    : (joinPath path).toList = ['.'].intercalate (path.map String.toList) := by
  rw [joinPath, String.toList_intercalate]
  rfl

@[simp] theorem joinPath_singleton (segment : String) : joinPath [segment] = segment :=
  String.intercalate_singleton

/-- The expression of the binding of exactly this path. -/
def bindingOf (inputs : List MutationInputBinding) (path : List String)
    : Option ProjectionExpression :=
  (inputs.find? fun input => input.path = path).map MutationInputBinding.expression

/-- What binding a path is for: the binding of the path itself, else the body path bound to
the first segment extended by the others, else a missing input. -/
def bindExactly (inputs : List MutationInputBinding) (path : List String)
    (valueType : ProjectionValueType) : Except MutationProgramError ProjectionExpression :=
  match bindingOf inputs path, path with
  | some expression, _ => .ok expression
  | none, root :: next :: rest =>
      match bindingOf inputs [root] with
      | some (.bodyPath base _) =>
          adapted (ProjectionExpression.tryBodyPath valueType (base ++ next :: rest))
      | some _ => .error (.missingInput (joinPath (next :: rest)))
      | none => .error (.missingInput (joinPath path))
  | none, _ => .error (.missingInput (joinPath path))

/-- No two bound paths have one joined text, and neither has the path with a bound one that
is not it. Where the path is not bound and has more than one segment, no bound path but the
first segment alone is joined to it. -/
structure Separate (paths : List (List String)) (path : List String) : Prop where
  bound : ∀ left ∈ paths, ∀ right ∈ paths, joinPath left = joinPath right → left = right
  exactly : ∀ other ∈ paths, joinPath other = joinPath path → other = path
  root : path ∉ paths → ∀ first next rest, path = first :: next :: rest →
    ∀ other ∈ paths, joinPath other = first → other = [first]

section Separate

variable {inputs : List MutationInputBinding} {path : List String}

theorem bindingOf_eq_none_iff
    : bindingOf inputs path = none ↔ path ∉ inputs.map MutationInputBinding.path := by
  rw [bindingOf, Option.map_eq_none_iff, List.find?_eq_none]
  simp

/-- The binder looks a path up by its joined text. -/
theorem get?_joined (hjoined : (inputs.map fun input => joinPath input.path).Nodup)
    (text : String)
    : (InputPathBinder.new inputs).byPath.get? text
      = (inputs.find? fun input => joinPath input.path = text).map
          MutationInputBinding.expression := by
  have hkeys : ((inputs.map fun input => (joinPath input.path, input.expression)).map
      Prod.fst).Nodup := by
    rwa [List.map_map]
  rw [InputPathBinder.new, SortedMap.get?_ofList hkeys, SortedMap.getEntry_eq_find?,
    List.find?_map, Option.map_map]
  rfl

theorem get?_eq_bindingOf (hjoined : (inputs.map fun input => joinPath input.path).Nodup)
    (hexactly : ∀ other ∈ inputs.map MutationInputBinding.path,
      joinPath other = joinPath path → other = path)
    : (InputPathBinder.new inputs).byPath.get? (joinPath path) = bindingOf inputs path := by
  rw [get?_joined hjoined, bindingOf]
  refine congrArg (Option.map MutationInputBinding.expression) (List.find?_congr ?_)
  intro input hinput
  exact decide_eq_decide.mpr
    ⟨hexactly input.path (List.mem_map_of_mem hinput), congrArg joinPath⟩

/-- A bound path is found under its joined text. -/
theorem get?_isSome (hjoined : (inputs.map fun input => joinPath input.path).Nodup)
    {other : List String} (hother : other ∈ inputs.map MutationInputBinding.path)
    : ∃ expression, (InputPathBinder.new inputs).byPath.get? (joinPath other)
      = some expression := by
  obtain ⟨input, hinput, rfl⟩ := List.mem_map.mp hother
  rw [get?_joined hjoined]
  cases hfind : inputs.find? fun entry => joinPath entry.path = joinPath input.path with
  | none => simpa using List.find?_eq_none.mp hfind input hinput
  | some found => exact ⟨found.expression, rfl⟩

/-- The last loop finds only what the lookup of the first segment finds. -/
theorem scanRoots_eq (binder : InputPathBinder) (valueType : ProjectionValueType)
    (root : String) (suffix : List String)
    : binder.scanRoots valueType (root :: suffix)
      = (binder.byPath.get? root).map fun expression =>
          extendExpression expression suffix valueType := by
  rw [InputPathBinder.scanRoots, SortedMap.get?, SortedMap.getEntry_eq_find?, Option.map_map]
  congr 1
  funext entry
  cases suffix <;> rfl

theorem bind_of_exact {binder : InputPathBinder} {path : List String}
    {valueType : ProjectionValueType} {expression : ProjectionExpression}
    (h : binder.byPath.get? (joinPath path) = some expression)
    : binder.bind path valueType = .ok expression := by
  rw [InputPathBinder.bind, h]

theorem bind_of_root {binder : InputPathBinder} {root next : String} {rest : List String}
    {valueType : ProjectionValueType}
    (hexact : binder.byPath.get? (joinPath (root :: next :: rest)) = none)
    : binder.bind (root :: next :: rest) valueType
      = match binder.byPath.get? root with
        | some expression => extendExpression expression (next :: rest) valueType
        | none => .error (.missingInput (joinPath (root :: next :: rest))) := by
  rw [InputPathBinder.bind, hexact]
  simp only [InputPathBinder.extendRoot, scanRoots_eq]
  cases binder.byPath.get? root <;> rfl

theorem extendExpression_cons (root : ProjectionExpression) (next : String)
    (rest : List String) (valueType : ProjectionValueType)
    : extendExpression root (next :: rest) valueType
      = match root with
        | .bodyPath base _ =>
            adapted (ProjectionExpression.tryBodyPath valueType (base ++ next :: rest))
        | _ => .error (.missingInput (joinPath (next :: rest))) := by
  unfold extendExpression
  cases root with
  | bodyPath path bodyType => simp [bodyPathSegments_bodyPath]
  | _ => simp [bodyPathSegments_eq_none]

theorem bind_eq_bindExactly (hjoined : (inputs.map fun input => joinPath input.path).Nodup)
    (h : Separate (inputs.map MutationInputBinding.path) path) (valueType : ProjectionValueType)
    : (InputPathBinder.new inputs).bind path valueType = bindExactly inputs path valueType := by
  have hexact := get?_eq_bindingOf hjoined h.exactly
  cases hbinding : bindingOf inputs path with
  | some expression =>
      rw [bind_of_exact (hexact.trans hbinding)]
      simp [bindExactly, hbinding]
  | none =>
      rw [hbinding] at hexact
      match path, h with
      | [], _ =>
          rw [InputPathBinder.bind, hexact]
          simp [bindExactly, hbinding, InputPathBinder.extendRoot, InputPathBinder.scanRoots]
      | [root], _ =>
          rw [joinPath_singleton] at hexact
          rw [InputPathBinder.bind, joinPath_singleton, hexact, scanRoots_eq, hexact]
          simp [bindExactly, hbinding, InputPathBinder.extendRoot]
      | root :: next :: rest, h =>
          have hfirst := h.root (bindingOf_eq_none_iff.mp hbinding) root next rest rfl
          rw [← joinPath_singleton root] at hfirst
          have hroot := get?_eq_bindingOf hjoined hfirst
          rw [joinPath_singleton] at hroot
          rw [bind_of_root hexact, hroot]
          simp only [bindExactly, hbinding]
          cases bindingOf inputs [root] with
          | none => rfl
          | some expression =>
              simp only [extendExpression_cons]
              cases expression <;> rfl

/-- The error for a part of a path is not that for the whole, nor one of a body path. -/
theorem extendExpression_ne_missing (expression : ProjectionExpression) (root next : String)
    (rest : List String) (valueType : ProjectionValueType)
    : extendExpression expression (next :: rest) valueType
      ≠ .error (.missingInput (joinPath (root :: next :: rest))) := by
  rw [extendExpression_cons]
  have hother : joinPath (next :: rest) ≠ joinPath (root :: next :: rest) := by
    intro heq
    have hlength := congrArg (fun text => text.toList.length) heq
    simp only [toList_joinPath, List.map_cons, List.intercalate_cons_cons, List.length_append,
      List.length_singleton] at hlength
    omega
  cases expression with
  | bodyPath base _ =>
      simp only [adapted]
      cases ProjectionExpression.tryBodyPath valueType (base ++ next :: rest) <;>
        simp [Except.mapError, MutationProgramError.ofProjection]
  | envelope | constant | enum | list | object | transform => simpa using hother

end Separate

theorem eventBinding_tryNew_eq_ok_iff {selector : ProjectionEventSelector}
    {inputs : List MutationInputBinding} {program : MutationProgram}
    {binding : MutationEventBinding}
    : MutationEventBinding.tryNew selector inputs program = .ok binding
      ↔ (inputs.map fun input => joinPath input.path).Nodup
        ∧ binding = { selector, inputs, program } := by
  rw [MutationEventBinding.tryNew, Result.seq_eq_ok_iff, validateDistinct_eq_ok_iff]
  simp [eq_comm]

/-- A list without repeated paths is accepted, and from an accepted one the path resolves by
its own segments and finds no other path's binding. -/
structure BindsExactly (selector : ProjectionEventSelector)
    (inputs : List MutationInputBinding) (program : MutationProgram) (path : List String)
    : Prop where
  accepted : (inputs.map MutationInputBinding.path).Nodup →
    ∃ binding, MutationEventBinding.tryNew selector inputs program = .ok binding
  distinct : ∀ binding, MutationEventBinding.tryNew selector inputs program = .ok binding →
    (binding.inputs.map MutationInputBinding.path).Nodup
  bound : ∀ binding, MutationEventBinding.tryNew selector inputs program = .ok binding →
    (InputPathBinder.new binding.inputs).byPath.get? (joinPath path) = bindingOf inputs path
  binds : ∀ binding, MutationEventBinding.tryNew selector inputs program = .ok binding →
    ∀ valueType, (InputPathBinder.new binding.inputs).bind path valueType
      = bindExactly inputs path valueType

/-- A path binds exactly if and only if the bound paths are repeated or it is separate from
them. -/
theorem inputs_bind_by_exact_path (selector : ProjectionEventSelector)
    (inputs : List MutationInputBinding) (program : MutationProgram) (path : List String)
    : BindsExactly selector inputs program path
      ↔ ((inputs.map MutationInputBinding.path).Nodup →
        Separate (inputs.map MutationInputBinding.path) path) := by
  have hpaths : (inputs.map fun input => joinPath input.path)
      = (inputs.map MutationInputBinding.path).map joinPath := by
    rw [List.map_map]
    rfl
  constructor
  · intro h hnodup
    obtain ⟨binding, hbinding⟩ := h.accepted hnodup
    have hexact := h.bound binding hbinding
    have hbinds := h.binds binding hbinding .string
    obtain ⟨hjoined, rfl⟩ := eventBinding_tryNew_eq_ok_iff.mp hbinding
    have hbound : ∀ left ∈ inputs.map MutationInputBinding.path,
        ∀ right ∈ inputs.map MutationInputBinding.path, joinPath left = joinPath right →
        left = right := fun left hleft right hright =>
      List.inj_on_of_nodup_map (hpaths ▸ hjoined) hleft hright
    refine ⟨hbound, fun other hother hsame => ?_, ?_⟩
    · obtain ⟨expression, hfound⟩ := get?_isSome hjoined hother
      have hmem : path ∈ inputs.map MutationInputBinding.path := by
        by_contra hnot
        rw [← hsame, hfound, bindingOf_eq_none_iff.mpr hnot] at hexact
        cases hexact
      exact hbound other hother path hmem hsame
    · rintro hnot first next rest rfl other hother hfirst
      by_contra hne
      have hroot : [first] ∉ inputs.map MutationInputBinding.path := fun hmem =>
        hne (hbound other hother [first] hmem (hfirst.trans (joinPath_singleton _).symm))
      obtain ⟨expression, hfound⟩ := get?_isSome hjoined hother
      rw [hfirst] at hfound
      have hnone := bindingOf_eq_none_iff.mpr hnot
      rw [bind_of_root (hexact.trans hnone), hfound] at hbinds
      simp only [bindExactly, hnone, bindingOf_eq_none_iff.mpr hroot] at hbinds
      exact extendExpression_ne_missing expression first next rest .string hbinds
  · intro h
    have hseparate (hjoined : (inputs.map fun input => joinPath input.path).Nodup)
        : (inputs.map MutationInputBinding.path).Nodup := (hpaths ▸ hjoined).of_map
    refine ⟨fun hnodup => ?_, ?_, ?_, ?_⟩
    · refine ⟨_, eventBinding_tryNew_eq_ok_iff.mpr ⟨?_, rfl⟩⟩
      rw [hpaths]
      exact hnodup.map_on fun left hleft right hright => (h hnodup).bound left hleft right hright
    all_goals
      intro binding hbinding
      obtain ⟨hjoined, rfl⟩ := eventBinding_tryNew_eq_ok_iff.mp hbinding
      have hnodup := hseparate hjoined
    · exact hnodup
    · exact get?_eq_bindingOf hjoined (h hnodup).exactly
    · exact bind_eq_bindExactly hjoined (h hnodup)

def todoChangedSelector : ProjectionEventSelector where
  occurrenceVersion := 1
  eventName := "todo.changed"
  eventVersion := 1
  bodyKind := .state
  bodyTypeName := "TodoState"
  bodyVersion := 1
  bodySchema := "schema"
  bodyFingerprint := "fingerprint"
  bodyCodec := "json"
  bodyCodecVersion := 1

/-- Deletes the todo of the input. -/
def removeTodo : MutationProgram where
  name := "remove-todo"
  version := 1
  operations := [{
    operationId := "remove"
    stagingOrdinal := 0
    kind := .delete
    target := ⟨"Todo", "todos"⟩
    key := [⟨0, "todo_id", .inputPath ["todo", "id"] .string⟩]
    fields := []
    conflict := none
    relationshipEffects := []
    invalidations := []
    returning := none }]

/-- The whole todo is the body's `state`. -/
def wholeTodo : MutationInputBinding := ⟨["todo"], .bodyPath ["state"] .json⟩

def todoTitle : MutationInputBinding := ⟨["todo", "title"], .bodyPath ["name"] .string⟩

/-- A dotted path of its own. -/
def todoLabels : MutationInputBinding := ⟨["todo.labels"], .bodyPath ["labels"] .json⟩

theorem whole_todo_binds_members
    : ∃ binding, MutationEventBinding.tryNew todoChangedSelector
          [wholeTodo, todoTitle, todoLabels] removeTodo = .ok binding
      ∧ (InputPathBinder.new binding.inputs).bind ["todo", "title"] .string
        = .ok (.bodyPath ["name"] .string)
      ∧ (InputPathBinder.new binding.inputs).bind ["todo", "id"] .string
        = .ok (.bodyPath ["state", "id"] .string) := by
  have htitle := (inputs_bind_by_exact_path todoChangedSelector
    [wholeTodo, todoTitle, todoLabels] removeTodo ["todo", "title"]).mpr fun _ =>
      ⟨by decide +kernel, by decide +kernel, fun hnot => absurd (by decide) hnot⟩
  have hid := (inputs_bind_by_exact_path todoChangedSelector
    [wholeTodo, todoTitle, todoLabels] removeTodo ["todo", "id"]).mpr fun _ =>
      ⟨by decide +kernel, by decide +kernel, by rintro - _ _ _ ⟨⟩; decide +kernel⟩
  obtain ⟨binding, hbinding⟩ := htitle.accepted (by decide)
  refine ⟨binding, hbinding, ?_, ?_⟩
  · rw [htitle.binds binding hbinding]
    rfl
  · rw [hid.binds binding hbinding]
    rfl

def dottedTitle : MutationInputBinding := ⟨["todo.title"], .bodyPath ["label"] .string⟩

/-- A segment with a dot takes the place of a nested path. -/
theorem dotted_path_shares_binding
    : MutationProgram.tryNew "remove-todo" 1 removeTodo.operations = .ok removeTodo
      ∧ MutationInputBinding.tryNew ["todo", "title"] todoTitle.expression = .ok todoTitle
      ∧ MutationInputBinding.tryNew ["todo.title"] dottedTitle.expression = .ok dottedTitle
      ∧ todoTitle.path ≠ dottedTitle.path
      ∧ MutationEventBinding.tryNew todoChangedSelector [todoTitle, dottedTitle] removeTodo
        = .error (.duplicateName "mutation input binding" "todo.title")
      ∧ (∃ binding, MutationEventBinding.tryNew todoChangedSelector [todoTitle] removeTodo
          = .ok binding
        ∧ (∀ input ∈ binding.inputs, input.path ≠ ["todo.title"])
        ∧ (InputPathBinder.new binding.inputs).bind ["todo.title"] .string
          = .ok todoTitle.expression) := by
  refine ⟨rfl, rfl, rfl, by decide, rfl, ⟨_, rfl, by decide, rfl⟩⟩

end Distributed.Mutation
