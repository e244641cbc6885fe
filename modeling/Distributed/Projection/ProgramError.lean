import Distributed.Foundation.Result

/-! Validation and resolution failures of projection programs.
-/

namespace Distributed.Projection

open Distributed.Foundation

inductive ProjectionProgramError where
  | emptyName (kind : String)
  | zeroVersion (kind : String)
  | pathTooDeep (segments max : Nat)
  | expressionTooDeep (depth max : Nat)
  | tooManyOperations (count max : Nat)
  | valueTooLarge (kind : String) (len max : Nat)
  | duplicateOrdinal (kind : String) (ordinal : Nat)
  | nonContiguousOrdinal (kind : String) (expected actual : Nat)
  | duplicateName (kind name : String)
  | requiredValueAbsent (path : String)
  | unsetNotAllowed (field : String)
  | invalidKeyValue (field : String)
  | invalidOperation (operation reason : String)
  | ambiguousMutation (model reason : String)
  | nonFiniteFloat
  | valueTypeMismatch (expected actual : String)
deriving DecidableEq

def ProjectionProgramError.text : ProjectionProgramError → String
  | .emptyName kind => s!"{kind} must not be empty"
  | .zeroVersion kind => s!"{kind} must be non-zero"
  | .pathTooDeep segments max => s!"path has {segments} segments; maximum is {max}"
  | .expressionTooDeep depth max => s!"expression depth {depth} exceeds maximum {max}"
  | .tooManyOperations count max => s!"arm has {count} operations; maximum is {max}"
  | .valueTooLarge kind len max => s!"{kind} is {len} bytes; maximum is {max}"
  | .duplicateOrdinal kind ordinal => s!"duplicate {kind} ordinal {ordinal}"
  | .nonContiguousOrdinal kind expected actual =>
      s!"{kind} ordinals must be contiguous: expected {expected}, found {actual}"
  | .duplicateName kind name => s!"duplicate {kind} name `{name}`"
  | .requiredValueAbsent path => s!"required projection value `{path}` is absent"
  | .unsetNotAllowed field => s!"field `{field}` cannot be unset by this operation"
  | .invalidKeyValue field => s!"field `{field}` is not a valid key value"
  | .invalidOperation operation reason =>
      s!"invalid projection operation `{operation}`: {reason}"
  | .ambiguousMutation model reason => s!"ambiguous mutation for model `{model}`: {reason}"
  | .nonFiniteFloat => "projection floats must be finite"
  | .valueTypeMismatch expected actual =>
      s!"expected portable {expected} value, found {actual}"

/-- `non_empty`. -/
def nonEmpty (value kind : String) : Except ProjectionProgramError String :=
  if value = "" then .error (.emptyName kind) else .ok value

section Ordinals

variable {α : Type}

/-- One value of the ordinal loops; `prior` are the values before it. -/
def validateOrdinal (kind : String) (ordinal : α → Nat) (prior : List α) (value : α)
    : Except ProjectionProgramError Unit :=
  if ordinal value = prior.length then .ok ()
  else if prior.any fun earlier => ordinal earlier = ordinal value then
    .error (.duplicateOrdinal kind (ordinal value))
  else .error (.nonContiguousOrdinal kind prior.length (ordinal value))

def validateOrdinalsFrom (kind : String) (ordinal : α → Nat)
    : List α → List α → Except ProjectionProgramError Unit
  | _, [] => .ok ()
  | prior, value :: rest => do
      validateOrdinal kind ordinal prior value
      validateOrdinalsFrom kind ordinal (prior ++ [value]) rest

def validateOrdinals (values : List α) (kind : String) (ordinal : α → Nat)
    : Except ProjectionProgramError Unit :=
  validateOrdinalsFrom kind ordinal [] values

def validateNamedOrdinalsFrom (kind : String) (ordinal : α → Nat) (name : α → String)
    : List α → List α → Except ProjectionProgramError Unit
  | _, [] => .ok ()
  | prior, value :: rest => do
      validateOrdinal kind ordinal prior value
      if prior.any fun earlier => name earlier = name value then
        .error (.duplicateName kind (name value))
      validateNamedOrdinalsFrom kind ordinal name (prior ++ [value]) rest

def validateNamedOrdinals (values : List α) (kind : String) (ordinal : α → Nat)
    (name : α → String) : Except ProjectionProgramError Unit :=
  validateNamedOrdinalsFrom kind ordinal name [] values

variable {kind : String} {ordinal : α → Nat} {name : α → String}

theorem validateOrdinal_eq_ok_iff {prior : List α} {value : α}
    : validateOrdinal kind ordinal prior value = .ok () ↔ ordinal value = prior.length := by
  rw [validateOrdinal]
  split
  · simp [*]
  · split <;> simp [*]

theorem validateNamedOrdinalsFrom_eq_ok_iff {prior rest : List α}
    : validateNamedOrdinalsFrom kind ordinal name prior rest = .ok ()
      ↔ rest.map ordinal = List.range' prior.length rest.length
        ∧ (rest.map name).Nodup ∧ ∀ value ∈ rest, ∀ earlier ∈ prior, name earlier ≠ name value
    := by
  induction rest generalizing prior with
  | nil => simp [validateNamedOrdinalsFrom]
  | cons value rest ih =>
      simp only [validateNamedOrdinalsFrom, Result.error_bind, Result.seq_eq_ok_iff,
        Result.guard_eq_ok_iff, validateOrdinal_eq_ok_iff, ih, List.any_eq_true,
        decide_eq_true_eq, List.map_cons, List.length_cons, List.range'_succ, List.cons.injEq,
        List.nodup_cons, List.mem_map, List.length_append, List.length_nil, Nat.zero_add]
      constructor
      · rintro ⟨hordinal, hfresh, hordinals, hnodup, hothers⟩
        refine ⟨⟨hordinal, hordinals⟩, ⟨?_, hnodup⟩, ?_⟩
        · rintro ⟨other, hother, hname⟩
          exact hothers other hother value (by simp) hname.symm
        · intro other hother earlier hearlier hname
          rcases List.mem_cons.mp hother with rfl | hother
          · exact hfresh ⟨earlier, hearlier, hname⟩
          · exact hothers other hother earlier (by simp [hearlier]) hname
      · rintro ⟨⟨hordinal, hordinals⟩, ⟨hfresh, hnodup⟩, hothers⟩
        refine ⟨hordinal, ?_, hordinals, hnodup, ?_⟩
        · rintro ⟨earlier, hearlier, hname⟩
          exact hothers value (List.mem_cons_self ..) earlier hearlier hname
        · intro other hother earlier hearlier hname
          rcases List.mem_append.mp hearlier with hearlier | hearlier
          · exact hothers other (List.mem_cons_of_mem _ hother) earlier hearlier hname
          · rw [List.mem_singleton.mp hearlier] at hname
            exact hfresh ⟨other, hother, hname.symm⟩

/-- The values are numbered from zero and named apart. -/
theorem validateNamedOrdinals_eq_ok_iff {values : List α}
    : validateNamedOrdinals values kind ordinal name = .ok ()
      ↔ values.map ordinal = List.range values.length ∧ (values.map name).Nodup := by
  rw [validateNamedOrdinals, validateNamedOrdinalsFrom_eq_ok_iff, List.range_eq_range']
  simp

end Ordinals

end Distributed.Projection
