import Mathlib.Data.List.Forall2

/-! Lists whose items correspond one to one.
-/

namespace Distributed.Foundation

/-- Lists of one length whose items agree pairwise in what `view` reads of them. -/
theorem map_eq_map_iff_zip {α β : Type} {view : α → β} {left right : List α}
    : left.map view = right.map view
      ↔ left.length = right.length ∧ ∀ pair ∈ left.zip right, view pair.1 = view pair.2 := by
  induction left generalizing right with
  | nil => cases right <;> simp
  | cons first rest ih =>
      cases right with
      | nil => simp
      | cons other others => simp [ih, and_left_comm]

theorem forall₂_zip {α β γ : Type} {P : α → γ → Prop} {Q : β → γ → Prop} {left : List α}
    {right : List β} {results : List γ} (hleft : List.Forall₂ P left results)
    (hright : List.Forall₂ Q right results)
    : ∀ pair ∈ left.zip right, ∃ result, P pair.1 result ∧ Q pair.2 result := by
  induction hleft generalizing right with
  | nil => simp
  | cons hfirst _ ih =>
      cases hright with
      | cons hother hothers =>
          simp only [List.zip_cons_cons, List.mem_cons, forall_eq_or_imp]
          exact ⟨⟨_, hfirst, hother⟩, ih hothers⟩

theorem forall₂_mem_right {α β : Type} {P : α → β → Prop} {left : List α} {right : List β}
    (h : List.Forall₂ P left right) {result : β} (hmem : result ∈ right)
    : ∃ item ∈ left, P item result := by
  induction h with
  | nil => cases hmem
  | cons hfirst _ ih =>
      rcases List.mem_cons.mp hmem with rfl | hmem
      · exact ⟨_, List.mem_cons_self .., hfirst⟩
      · obtain ⟨item, hitem, hresult⟩ := ih hmem
        exact ⟨item, List.mem_cons_of_mem _ hitem, hresult⟩

/-- Two loops over one list whose results look the same. -/
theorem forall₂_map_eq {α β γ : Type} {P Q : α → β → Prop} {view : β → γ} {items : List α}
    {left right : List β} (hleft : List.Forall₂ P items left)
    (hright : List.Forall₂ Q items right)
    (hview : ∀ item first second, P item first → Q item second → view first = view second)
    : left.map view = right.map view := by
  induction hleft generalizing right with
  | nil =>
      cases hright
      rfl
  | cons hfirst _ ih =>
      cases hright with
      | cons hother hothers => simp [hview _ _ _ hfirst hother, ih hothers]

/-- What holds of every pair of items holds of every pair of their results. -/
theorem forall₂_pairwise {α β : Type} {P : α → α → Prop} {Q : β → β → Prop} {R : α → β → Prop}
    {items : List α} {results : List β} (h : List.Forall₂ R items results)
    (hitems : items.Pairwise P)
    (hpair : ∀ first ∈ items, ∀ second ∈ items, ∀ firstResult ∈ results,
      ∀ secondResult ∈ results, R first firstResult → R second secondResult →
        P first second → Q firstResult secondResult)
    : results.Pairwise Q := by
  induction h with
  | nil => exact List.Pairwise.nil
  | cons hfirst hrest ih =>
      obtain ⟨hhead, htail⟩ := List.pairwise_cons.mp hitems
      refine List.pairwise_cons.mpr ⟨?_, ih htail ?_⟩
      · intro result hresult
        obtain ⟨item, hitem, hrelated⟩ := forall₂_mem_right hrest hresult
        exact hpair _ (List.mem_cons_self ..) item (List.mem_cons_of_mem _ hitem) _
          (List.mem_cons_self ..) result (List.mem_cons_of_mem _ hresult) hfirst hrelated
          (hhead item hitem)
      · intro first hfirstMem second hsecondMem firstResult hfirstResult secondResult hsecondResult
        exact hpair first (List.mem_cons_of_mem _ hfirstMem) second
          (List.mem_cons_of_mem _ hsecondMem) firstResult (List.mem_cons_of_mem _ hfirstResult)
          secondResult (List.mem_cons_of_mem _ hsecondResult)

end Distributed.Foundation
