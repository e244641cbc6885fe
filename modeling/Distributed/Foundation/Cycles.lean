import Mathlib.Data.Fintype.Pigeonhole
import Mathlib.Data.List.Dedup
import Mathlib.Data.Set.Finite.Basic
import Mathlib.Logic.Relation

/-! Cycles of relations.
On a finite type, a map that moves every point along a relation runs into a cycle of it.
-/

namespace Distributed.Foundation

open Relation

variable {α : Type}

/-- Two different points lead to each other. -/
def HasMutualPair (r : α → α → Prop) : Prop :=
  ∃ first second, first ≠ second ∧ TransGen r first second ∧ TransGen r second first

theorem transGen_iterate {r : α → α → Prop} {next : α → α} (hnext : ∀ point, r point (next point))
    (point : α) (steps : Nat) : TransGen r point (next^[steps + 1] point) := by
  induction steps generalizing point with
  | zero => exact .single (hnext point)
  | succ steps ih =>
      rw [Function.iterate_succ_apply]
      exact .head (hnext point) (ih (next point))

/-- A map of a finite type that moves every point along the relation runs into a cycle. -/
theorem hasMutualPair_of_moves [Finite α] [Nonempty α] {r : α → α → Prop} {next : α → α}
    (hnext : ∀ point, r point (next point)) (hmoves : ∀ point, next point ≠ point)
    : HasMutualPair r := by
  obtain ⟨start⟩ := ‹Nonempty α›
  obtain ⟨low, high, hlt, heq⟩ : ∃ low high, low < high ∧ next^[low] start = next^[high] start := by
    obtain ⟨first, second, hne, heq⟩ :=
      Finite.exists_ne_map_eq_of_infinite fun steps : Nat => next^[steps] start
    rcases Nat.lt_or_gt_of_ne hne with hlt | hlt
    · exact ⟨first, second, hlt, heq⟩
    · exact ⟨second, first, hlt, heq.symm⟩
  -- The point reached twice comes back to itself, and not in one step.
  obtain ⟨steps, rfl⟩ := Nat.exists_eq_add_of_lt hlt
  generalize hpoint : next^[low] start = point at heq
  have hreturns : next^[steps + 1] point = point := by
    conv_rhs => rw [heq]
    rw [← hpoint, ← Function.iterate_add_apply]
    congr 1
    omega
  cases steps with
  | zero => exact absurd hreturns (hmoves point)
  | succ steps =>
      refine ⟨point, next point, (hmoves point).symm, .single (hnext point), ?_⟩
      have hback := transGen_iterate hnext (next point) steps
      rwa [← Function.iterate_succ_apply, hreturns] at hback

/-- A nonempty finite set without a point that leads to no other. -/
theorem hasMutualPair_of_stuck {r : α → α → Prop} (points : List α) (hnonempty : points ≠ [])
    (hstuck : ∀ point ∈ points, ∃ other ∈ points, other ≠ point ∧ r point other)
    : HasMutualPair r := by
  choose! next hmem hmoves hnext using hstuck
  have hnonempty : Nonempty { point // point ∈ points } := by
    obtain ⟨point, hpoint⟩ := List.exists_mem_of_ne_nil points hnonempty
    exact ⟨point, hpoint⟩
  have hfinite : Finite { point // point ∈ points } := points.finite_toSet
  let inside (first second : { point // point ∈ points }) : Prop := r first.1 second.1
  let step (point : { point // point ∈ points }) : { point // point ∈ points } :=
    ⟨next point.1, hmem point.1 point.2⟩
  have hstep : ∀ point, inside point (step point) := fun point => hnext point.1 point.2
  have hstepMoves : ∀ point, step point ≠ point :=
    fun point heq => hmoves point.1 point.2 (congrArg Subtype.val heq)
  obtain ⟨first, second, hne, hforth, hback⟩ := hasMutualPair_of_moves hstep hstepMoves
  refine ⟨first.1, second.1, fun heq => hne (Subtype.ext heq), ?_, ?_⟩
  · exact hforth.lift Subtype.val fun _ _ h => h
  · exact hback.lift Subtype.val fun _ _ h => h

theorem rank_le_of_transGen {r : α → α → Prop} {rank : α → Nat}
    (hrank : ∀ first second, r first second → rank second ≤ rank first) {first second : α}
    (h : TransGen r first second) : rank second ≤ rank first := by
  induction h with
  | single h => exact hrank _ _ h
  | tail _ hlast ih => exact (hrank _ _ hlast).trans ih

/-- No two points lead to each other when a rank never grows and tells apart the points the
relation starts from. -/
theorem not_hasMutualPair_of_rank {r : α → α → Prop} (rank : α → Nat)
    (hrank : ∀ first second, r first second → rank second ≤ rank first)
    (hinj : ∀ first second, (∃ next, r first next) → (∃ next, r second next) →
      rank first = rank second → first = second)
    : ¬ HasMutualPair r := by
  rintro ⟨first, second, hne, hforth, hback⟩
  have heq : rank first = rank second :=
    le_antisymm (rank_le_of_transGen hrank hback) (rank_le_of_transGen hrank hforth)
  obtain ⟨next, hfirst, -⟩ := TransGen.head'_iff.mp hforth
  obtain ⟨other, hsecond, -⟩ := TransGen.head'_iff.mp hback
  exact hne (hinj first second ⟨next, hfirst⟩ ⟨other, hsecond⟩ heq)

end Distributed.Foundation
