import Mathlib.Data.List.Basic
import Mathlib.Data.List.Forall2

/-! Fallible pure computations.
Sequences are taken apart with `bind_eq_ok_iff` and loops with `forM_eq_ok_iff` and
`foldlM_invariant`, so that a caller never unfolds a check it does not need.
-/

namespace Distributed.Foundation.Result

variable {ε ε' α β : Type}

@[simp] theorem ok_bind (value : α) (next : α → Except ε β)
    : (Except.ok value >>= next) = next value :=
  rfl

@[simp] theorem error_bind (error : ε) (next : α → Except ε β)
    : (Except.error error >>= next) = .error error :=
  rfl

theorem bind_eq_ok_iff {first : Except ε α} {next : α → Except ε β} {answer : β}
    : (first >>= next) = .ok answer ↔ ∃ value, first = .ok value ∧ next value = .ok answer := by
  cases first with
  | error error => simp
  | ok value => simp

/-- A sequence whose first part answers nothing. -/
theorem seq_eq_ok_iff {first : Except ε Unit} {next : Except ε β} {answer : β}
    : (first >>= fun _ => next) = .ok answer ↔ first = .ok () ∧ next = .ok answer := by
  cases first with
  | error error => simp
  | ok value => simp

theorem bind_eq_error_iff {first : Except ε α} {next : α → Except ε β} {error : ε}
    : (first >>= next) = .error error
      ↔ first = .error error ∨ ∃ value, first = .ok value ∧ next value = .error error := by
  cases first with
  | error error => simp
  | ok value => simp

theorem mapError_eq_ok_iff {change : ε → ε'} {result : Except ε α} {answer : α}
    : result.mapError change = .ok answer ↔ result = .ok answer := by
  cases result <;> simp [Except.mapError]

theorem toOption_eq_some_iff {result : Except ε α} {answer : α}
    : result.toOption = some answer ↔ result = .ok answer := by
  cases result <;> simp [Except.toOption]

/-- `if condition { return Err(error) }` before the rest. -/
theorem guard_eq_ok_iff {condition : Prop} [Decidable condition] {error : ε}
    {rest : Except ε α} {answer : α}
    : (if condition then Except.error error else rest) = .ok answer
      ↔ ¬condition ∧ rest = .ok answer := by
  split
  · simp [*]
  · simp [*]

theorem guard_bind {condition : Prop} [Decidable condition] {error : ε} {rest : Except ε α}
    {next : α → Except ε β}
    : ((if condition then Except.error error else rest) >>= next)
      = if condition then Except.error error else rest >>= next := by
  split
  · rfl
  · rfl

/-- `if condition { first? }` before the rest. -/
theorem optional_eq_ok_iff {condition : Prop} [Decidable condition] {first : Except ε Unit}
    {rest : Unit → Except ε α} {answer : α}
    : (if condition then first >>= rest else rest ()) = .ok answer
      ↔ (condition → first = .ok ()) ∧ rest () = .ok answer := by
  split
  · cases first with
    | error error => simp [*]
    | ok value => simp [*]
  · simp [*]

/-- Every error of the computation satisfies `Allowed`. -/
def FailsWith (Allowed : ε → Prop) (result : Except ε α) : Prop :=
  ∀ error, result = .error error → Allowed error

/-- The error of a failed computation. -/
def failure? : Except ε α → Option ε
  | .error error => some error
  | .ok _ => none

theorem failure?_eq_some {result : Except ε α} {error : ε}
    : failure? result = some error ↔ result = .error error := by
  cases result <;> simp [failure?]

section FailsWith

variable {Allowed : ε → Prop}

@[simp] theorem failsWith_ok (value : α) : FailsWith Allowed (Except.ok value) := nofun

@[simp] theorem failsWith_pure (value : α)
    : FailsWith Allowed (pure value : Except ε α) :=
  nofun

@[simp] theorem failsWith_error {error : ε}
    : FailsWith Allowed (.error error : Except ε α) ↔ Allowed error :=
  ⟨fun h => h error rfl, fun h _ heq => by cases heq; exact h⟩

theorem FailsWith.bind {first : Except ε α} {next : α → Except ε β}
    (hfirst : FailsWith Allowed first) (hnext : ∀ value, FailsWith Allowed (next value))
    : FailsWith Allowed (first >>= next) := by
  cases first with
  | error error => simpa using hfirst
  | ok value => exact hnext value

theorem FailsWith.optional {condition : Prop} [Decidable condition]
    {first : Except ε Unit} {rest : Unit → Except ε α}
    (hfirst : condition → FailsWith Allowed first) (hrest : FailsWith Allowed (rest ()))
    : FailsWith Allowed (if condition then first >>= rest else rest ()) := by
  split
  · rename_i hcondition
    exact (hfirst hcondition).bind fun _ => hrest
  · exact hrest

theorem FailsWith.mapError {Before : ε' → Prop} {change : ε' → ε} {result : Except ε' α}
    (h : FailsWith Before result) (hchange : ∀ error, Before error → Allowed (change error))
    : FailsWith Allowed (result.mapError change) := by
  cases result with
  | error error => exact failsWith_error.mpr (hchange error (h error rfl))
  | ok value => exact failsWith_ok value

theorem failsWith_mapError {change : ε' → ε} (result : Except ε' α)
    (hchange : ∀ error, Allowed (change error))
    : FailsWith Allowed (result.mapError change) := by
  cases result with
  | error error => exact failsWith_error.mpr (hchange error)
  | ok value => exact failsWith_ok value

theorem failsWith_guard {condition : Prop} [Decidable condition] {error : ε}
    {rest : Except ε α} (herror : Allowed error) (hrest : FailsWith Allowed rest)
    : FailsWith Allowed (if condition then Except.error error else rest) := by
  split
  · exact failsWith_error.mpr herror
  · exact hrest

theorem failsWith_foldlM {step : β → α → Except ε β} {items : List α}
    (h : ∀ state item, FailsWith Allowed (step state item)) (start : β)
    : FailsWith Allowed (items.foldlM step start) := by
  induction items generalizing start with
  | nil => exact failsWith_pure start
  | cons item items ih =>
      rw [List.foldlM_cons]
      exact (h start item).bind ih

theorem failsWith_forM {check : α → Except ε Unit} {items : List α}
    (h : ∀ item, FailsWith Allowed (check item))
    : FailsWith Allowed (items.forM check) := by
  induction items with
  | nil => exact failsWith_pure ()
  | cons item items ih => exact (h item).bind fun _ => ih

end FailsWith

theorem forM_eq_ok_iff {check : α → Except ε Unit} {items : List α}
    : items.forM check = .ok () ↔ ∀ item ∈ items, check item = .ok () := by
  induction items with
  | nil => simp [pure, Except.pure]
  | cons item items ih =>
      change (check item >>= fun _ => items.forM check) = _ ↔ _
      rw [seq_eq_ok_iff, ih, List.forall_mem_cons]

/-- What one iteration keeps a successful fold keeps. -/
theorem foldlM_invariant {step : β → α → Except ε β} (Inv : β → Prop) {items : List α}
    {start final : β} (hstart : Inv start)
    (hstep : ∀ state item next, item ∈ items → Inv state →
      step state item = .ok next → Inv next)
    (hrun : items.foldlM step start = .ok final)
    : Inv final := by
  induction items generalizing start with
  | nil =>
      cases hrun
      exact hstart
  | cons item items ih =>
      rw [List.foldlM_cons, bind_eq_ok_iff] at hrun
      obtain ⟨next, hnext, hrest⟩ := hrun
      refine ih (hstep start item next (List.mem_cons_self ..) hstart hnext) ?_ hrest
      exact fun state other result hother =>
        hstep state other result (List.mem_cons_of_mem _ hother)

/-- A loop succeeds when every item has its own result. -/
theorem mapM_eq_ok_iff {read : α → Except ε β} {items : List α} {results : List β}
    : items.mapM read = .ok results
      ↔ List.Forall₂ (fun item result => read item = .ok result) items results := by
  induction items generalizing results with
  | nil => cases results <;> simp [pure, Except.pure]
  | cons item items ih =>
      simp only [List.mapM_cons, bind_eq_ok_iff, List.forall₂_cons_left_iff]
      constructor
      · rintro ⟨first, hfirst, rest, hrest, hresults⟩
        cases hresults
        exact ⟨first, rest, hfirst, ih.mp hrest, rfl⟩
      · rintro ⟨first, rest, hfirst, hrest, rfl⟩
        exact ⟨first, hfirst, rest, ih.mpr hrest, rfl⟩

/-- A loop whose every item succeeds maps the items to their results. -/
theorem mapM_eq_ok_map {read : α → Except ε β} {result : α → β} {items : List α}
    (h : ∀ item ∈ items, read item = .ok (result item))
    : items.mapM read = .ok (items.map result) :=
  mapM_eq_ok_iff.mpr (List.forall₂_map_right_iff.mpr (List.forall₂_same.mpr h))

/-- Reading back what was written item by item. -/
theorem mapM_map_eq_ok {write : α → β} {read : β → Except ε α} {items : List α}
    (h : ∀ item ∈ items, read (write item) = .ok item)
    : (items.map write).mapM read = .ok items := by
  induction items with
  | nil => rfl
  | cons item items ih =>
      have hitem := h item (List.mem_cons_self ..)
      have hitems := ih fun other hother => h other (List.mem_cons_of_mem _ hother)
      simp only [List.map_cons, List.mapM_cons, hitem, hitems, ok_bind]
      rfl

/-- What a loop finds that refuses the keys it has seen: they differ from each other and from
those seen before. -/
theorem nodup_unseen_cons {key : α → β} {seen : List β} {item : α} {items : List α}
    : ((item :: items).map key).Nodup ∧ (∀ other ∈ item :: items, key other ∉ seen)
      ↔ key item ∉ seen
        ∧ (items.map key).Nodup ∧ ∀ other ∈ items, key other ∉ key item :: seen := by
  rw [List.map_cons, List.nodup_cons, List.forall_mem_cons]
  simp only [List.mem_map, not_exists, not_and, List.mem_cons, not_or]
  constructor
  · rintro ⟨⟨hnew, hnodup⟩, hfresh, hothers⟩
    exact ⟨hfresh, hnodup, fun other hother => ⟨hnew other hother, hothers other hother⟩⟩
  · rintro ⟨hfresh, hnodup, hothers⟩
    exact ⟨⟨fun other hother => (hothers other hother).1, hnodup⟩, hfresh,
      fun other hother => (hothers other hother).2⟩

end Distributed.Foundation.Result
