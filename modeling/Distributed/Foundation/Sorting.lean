import Mathlib.Data.List.Forall2
import Mathlib.Data.List.Pairwise
import Mathlib.Data.List.Sort

/-! Stable sorting with comparisons that may fail to be orders.
-/

namespace Distributed.Foundation

variable {α : Type}

/-- The relation orders the items strictly and totally. -/
structure StrictTotalOn (items : List α) (less : α → α → Prop) : Prop where
  irrefl : ∀ x ∈ items, ¬ less x x
  trans : ∀ x ∈ items, ∀ y ∈ items, ∀ z ∈ items, less x y → less y z → less x z
  total : ∀ x ∈ items, ∀ y ∈ items, x ≠ y → less x y ∨ less y x

theorem StrictTotalOn.asymm {items : List α} {less : α → α → Prop}
    (h : StrictTotalOn items less) {x y : α} (hx : x ∈ items) (hy : y ∈ items)
    (hless : less x y)
    : ¬ less y x :=
  fun hback => h.irrefl x hx (h.trans x hx y hy x hx hless hback)

/-- Stable sorting, spelled as the standard library sorts a short slice: from left to right,
each item moves back past the items it is less than. For a strict weak order every stable
sort gives this list. -/
def sortBy (less : α → α → Bool) (items : List α) : List α :=
  (items.reverse.insertionSort fun item before => less item before = false).reverse

/-- `sort_by`. A short slice is sorted by insertion whatever the comparison. Nothing is said
of a longer one that the comparison does not order weakly: the sort may panic or leave any
order. -/
def sortSlice (less : α → α → Bool) (items : List α) : Option (List α) :=
  if items.length ≤ 20 || items.all (fun x => items.all fun y =>
      !(less x y && less y x) && items.all fun z => !less x z || less x y || less y z) then
    some (sortBy less items)
  else none

theorem sortSlice_eq {less : α → α → Bool} {items : List α}
    (h : items.length ≤ 20 ∨ StrictTotalOn items fun x y => less x y = true)
    : sortSlice less items = some (sortBy less items) := by
  refine if_pos ?_
  rcases h with hshort | horder
  · simp [hshort]
  · simp only [Bool.or_eq_true, List.all_eq_true, Bool.and_eq_true, Bool.not_eq_true',
      Bool.and_eq_false_iff]
    refine .inr fun x hx y hy => ⟨?_, fun z hz => ?_⟩
    · by_contra hboth
      simp only [not_or, Bool.not_eq_false] at hboth
      exact horder.asymm hx hy hboth.1 hboth.2
    · by_contra hnone
      simp only [not_or, Bool.not_eq_false, Bool.not_eq_true] at hnone
      obtain ⟨⟨hxz, hxy⟩, hyz⟩ := hnone
      -- The item between the two is neither, and is above the one and below the other.
      have hbelow : less y x = true := by
        refine (horder.total y hy x hx ?_).resolve_right (by simp [hxy])
        rintro rfl
        simp [hxz] at hyz
      simp [horder.trans y hy x hx z hz hbelow hxz] at hyz

theorem sortBy_perm (less : α → α → Bool) (items : List α)
    : (sortBy less items).Perm items :=
  (List.reverse_perm _).trans ((List.perm_insertionSort _ _).trans (List.reverse_perm _))

theorem orderedInsert_descending {less : α → α → Bool} {items sorted : List α} {item : α}
    (horder : StrictTotalOn items fun x y => less x y = true)
    (hsorted : sorted.Pairwise fun x y => less y x = true) (hitem : item ∈ items)
    (hitems : ∀ x ∈ sorted, x ∈ items) (hfresh : item ∉ sorted)
    : (sorted.orderedInsert (fun item before => less item before = false) item).Pairwise
        fun x y => less y x = true := by
  induction sorted with
  | nil => simp
  | cons first rest ih =>
      obtain ⟨hfirst, hrest⟩ := List.pairwise_cons.mp hsorted
      have hmem : first ∈ items := hitems first (List.mem_cons_self ..)
      have hne : item ≠ first := fun heq => hfresh (heq ▸ List.mem_cons_self ..)
      by_cases hless : less item first = false
      · rw [List.orderedInsert_cons, if_pos hless]
        have hbelow : less first item = true :=
          (horder.total first hmem item hitem hne.symm).resolve_right (by simp [hless])
        refine List.pairwise_cons.mpr ⟨?_, hsorted⟩
        intro other hother
        rcases List.mem_cons.mp hother with rfl | hother
        · exact hbelow
        · exact horder.trans other (hitems other (List.mem_cons_of_mem _ hother)) first hmem
            item hitem (hfirst other hother) hbelow
      · rw [List.orderedInsert_cons, if_neg hless]
        refine List.pairwise_cons.mpr ⟨?_, ?_⟩
        · intro other hother
          rcases (List.mem_orderedInsert _).mp hother with rfl | hother
          · simpa using hless
          · exact hfirst other hother
        · exact ih hrest (fun x hx => hitems x (List.mem_cons_of_mem _ hx))
            (fun hmem => hfresh (List.mem_cons_of_mem _ hmem))

/-- Sorting by a strict total order puts every item after the smaller ones. -/
theorem sortBy_pairwise {less : α → α → Bool} {items : List α} (hnodup : items.Nodup)
    (horder : StrictTotalOn items fun x y => less x y = true)
    : (sortBy less items).Pairwise fun x y => less x y = true := by
  rw [sortBy, List.pairwise_reverse]
  -- The induction is on the items still to insert, all of them from `items`.
  suffices h : ∀ pending : List α, pending.Nodup → (∀ x ∈ pending, x ∈ items) →
      (pending.insertionSort fun item before => less item before = false).Pairwise
        fun x y => less y x = true from
    h items.reverse (List.nodup_reverse.mpr hnodup) fun x hx => List.mem_reverse.mp hx
  intro pending
  induction pending with
  | nil => simp
  | cons item rest ih =>
      intro hpending hitems
      obtain ⟨hfresh, hrest⟩ := List.nodup_cons.mp hpending
      rw [List.insertionSort_cons]
      refine orderedInsert_descending horder
        (ih hrest fun x hx => hitems x (List.mem_cons_of_mem _ hx))
        (hitems item (List.mem_cons_self ..)) ?_ ?_
      · intro x hx
        exact hitems x (List.mem_cons_of_mem _ ((List.mem_insertionSort _).mp hx))
      · exact fun hmem => hfresh ((List.mem_insertionSort _).mp hmem)

/-- What holds along the sorted items holds of every item and a greater one. -/
theorem sortBy_pairwise_iff {less : α → α → Bool} {items : List α} {R : α → α → Prop}
    (hnodup : items.Nodup) (horder : StrictTotalOn items fun x y => less x y = true)
    : (sortBy less items).Pairwise R
      ↔ ∀ x ∈ items, ∀ y ∈ items, less x y = true → R x y := by
  have hsorted := sortBy_pairwise hnodup horder
  have hmem : ∀ {x}, x ∈ sortBy less items ↔ x ∈ items := (sortBy_perm less items).mem_iff
  constructor
  · intro hall x hx y hy
    let Holds (x y : α) : Prop := (less x y = true → R x y) ∧ (less y x = true → R y x)
    have : Std.Symm Holds := ⟨fun _ _ h => ⟨h.2, h.1⟩⟩
    have hpairs : (sortBy less items).Pairwise Holds :=
      (hsorted.and hall).imp_of_mem fun hx hy h =>
        ⟨fun _ => h.2, fun hback => absurd hback (horder.asymm (hmem.mp hx) (hmem.mp hy) h.1)⟩
    have hself : ∀ x ∈ sortBy less items, Holds x x := fun x hx =>
      have hirrefl := horder.irrefl x (hmem.mp hx)
      ⟨fun h => absurd h hirrefl, fun h => absurd h hirrefl⟩
    exact (hpairs.forall_of_forall hself (hmem.mpr hx) (hmem.mpr hy)).1
  · intro hall
    exact hsorted.imp_of_mem fun hx hy hless => hall _ (hmem.mp hx) _ (hmem.mp hy) hless

theorem filter_orderedInsert {keep : α → Bool} {less : α → α → Bool} {sorted : List α}
    {item : α}
    (hstays : keep item = true → ∀ x ∈ sorted, keep x = true → less item x = false)
    : (sorted.orderedInsert (fun item before => less item before = false) item).filter keep
      = (item :: sorted).filter keep := by
  induction sorted with
  | nil => rfl
  | cons first rest ih =>
      by_cases hless : less item first = false
      · rw [List.orderedInsert_cons, if_pos hless]
      · rw [List.orderedInsert_cons, if_neg hless, List.filter_cons,
          ih fun hitem x hx => hstays hitem x (List.mem_cons_of_mem _ hx)]
        -- the item only moves past items that are not kept with it
        cases hfirst : keep first with
        | false => simp [hfirst, List.filter_cons]
        | true =>
            have hitem : keep item = false := by
              by_contra hitem
              exact hless (hstays (by simpa using hitem) first (List.mem_cons_self ..) hfirst)
            simp [hfirst, hitem]

/-- Items that are in order already keep their order, whatever the comparison does to the
others. -/
theorem sortBy_filter {keep : α → Bool} {less : α → α → Bool} {items : List α}
    (horder : items.Pairwise fun earlier later =>
      keep earlier = true → keep later = true → less later earlier = false)
    : (sortBy less items).filter keep = items.filter keep := by
  rw [sortBy, List.filter_reverse, List.reverse_eq_iff, ← List.filter_reverse]
  have hpending := List.pairwise_reverse.mpr horder
  generalize items.reverse = pending at hpending
  induction pending with
  | nil => rfl
  | cons item rest ih =>
      obtain ⟨hitem, hrest⟩ := List.pairwise_cons.mp hpending
      rw [List.insertionSort_cons, filter_orderedInsert, List.filter_cons, ih hrest,
        ← List.filter_cons]
      intro hkeep x hx hkept
      exact hitem x ((List.mem_insertionSort _).mp hx) hkept hkeep

/-- A list that is in order already is left as it is. -/
theorem sortBy_eq_self {less : α → α → Bool} {items : List α}
    (h : items.Pairwise fun earlier later => less later earlier = false)
    : sortBy less items = items := by
  have hkept : (sortBy less items).filter (fun _ => true) = items.filter fun _ => true :=
    sortBy_filter (h.imp fun hless _ _ => hless)
  simpa using hkept

section Keys

variable {Key : Type} [LinearOrder Key] {less : α → α → Bool} (key : α → Key)
  (hlt : ∀ x y, key x < key y → less x y = true) (hle : ∀ x y, less x y = true → key x ≤ key y)

include hlt hle

theorem orderedInsert_keys {item : α} {sorted : List α}
    (h : sorted.Pairwise fun x y => key y ≤ key x)
    : (sorted.orderedInsert (fun item before => less item before = false) item).Pairwise
        fun x y => key y ≤ key x := by
  induction sorted with
  | nil => simp
  | cons first rest ih =>
      obtain ⟨hfirst, hrest⟩ := List.pairwise_cons.mp h
      by_cases hless : less item first = false
      · rw [List.orderedInsert_cons, if_pos hless]
        have hkey : key first ≤ key item := by
          by_contra hbelow
          rw [hlt _ _ (not_le.mp hbelow)] at hless
          cases hless
        refine List.pairwise_cons.mpr ⟨?_, h⟩
        intro other hother
        rcases List.mem_cons.mp hother with rfl | hother
        · exact hkey
        · exact le_trans (hfirst other hother) hkey
      · rw [List.orderedInsert_cons, if_neg hless]
        refine List.pairwise_cons.mpr ⟨?_, ih hrest⟩
        intro other hother
        rcases (List.mem_orderedInsert _).mp hother with rfl | hother
        · exact hle _ _ (by simpa using hless)
        · exact hfirst other hother

/-- A comparison that puts smaller keys first leaves no item before one with a smaller key,
whatever it says of equal keys. -/
theorem sortBy_ordered (items : List α)
    : (sortBy less items).Pairwise fun earlier later => key earlier ≤ key later := by
  rw [sortBy, List.pairwise_reverse]
  induction items.reverse with
  | nil => simp
  | cons item rest ih =>
      rw [List.insertionSort_cons]
      exact orderedInsert_keys key hlt hle ih

end Keys

/-- Items in the order of their ranks; within a rank a direct precedence decides, and where
it says nothing, the tie-break. -/
def Before (rank : α → Nat) (precedes ties : α → α → Prop) (x y : α) : Prop :=
  rank x < rank y
    ∨ rank x = rank y
      ∧ (precedes x y ∨ (¬ precedes x y ∧ ¬ precedes y x ∧ ties x y))

/-- The precedence leads back to no item in two or three steps. -/
structure ShortAcyclic (items : List α) (precedes : α → α → Prop) : Prop where
  asymm : ∀ x ∈ items, ∀ y ∈ items, precedes x y → ¬ precedes y x
  noTriangle : ∀ x ∈ items, ∀ y ∈ items, ∀ z ∈ items,
    precedes x y → precedes y z → ¬ precedes z x

/-- The tie-break never contradicts the precedence of other items of the rank. -/
structure Unambiguous (rank : α → Nat) (precedes ties : α → α → Prop) (items : List α)
    : Prop where
  between : ∀ x ∈ items, ∀ y ∈ items, ∀ z ∈ items, rank x = rank y → rank y = rank z →
    precedes x y → ties y z → ties z x →
      (precedes x z ∨ precedes z x) ∨ precedes y z ∨ precedes z y
  chained : ∀ x ∈ items, ∀ y ∈ items, ∀ z ∈ items, rank x = rank y → rank y = rank z →
    precedes x y → precedes y z → precedes x z ∨ ties x z

section Before

variable {rank : α → Nat} {precedes ties : α → α → Prop} {items : List α}

theorem Before.rank_le {x y : α} (h : Before rank precedes ties x y) : rank x ≤ rank y := by
  rcases h with hlt | ⟨heq, -⟩
  · exact le_of_lt hlt
  · exact le_of_eq heq

/-- Within a rank the items are compared directly or by the tie-break. -/
theorem Before.same_rank {x y : α} (h : Before rank precedes ties x y)
    (hrank : rank x = rank y)
    : precedes x y ∨ (¬ precedes x y ∧ ¬ precedes y x ∧ ties x y) := by
  rcases h with hlt | ⟨-, h⟩
  · exact absurd hrank (Nat.ne_of_lt hlt)
  · exact h

theorem before_asymm (hacyclic : ShortAcyclic items precedes)
    (hties : StrictTotalOn items ties) {x y : α} (hx : x ∈ items) (hy : y ∈ items)
    (hxy : Before rank precedes ties x y)
    : ¬ Before rank precedes ties y x := by
  intro hyx
  have hrank : rank x = rank y := le_antisymm hxy.rank_le hyx.rank_le
  rcases hxy.same_rank hrank with hdirect | ⟨hforward, hback, htie⟩
  · rcases hyx.same_rank hrank.symm with hdirect' | ⟨-, hforward, -⟩
    · exact hacyclic.asymm x hx y hy hdirect hdirect'
    · exact hforward hdirect
  · rcases hyx.same_rank hrank.symm with hdirect | ⟨-, -, htie'⟩
    · exact hback hdirect
    · exact hties.asymm hx hy htie htie'

theorem before_total (hties : StrictTotalOn items ties) {x y : α} (hx : x ∈ items)
    (hy : y ∈ items) (hne : x ≠ y)
    : Before rank precedes ties x y ∨ Before rank precedes ties y x := by
  rcases Nat.lt_trichotomy (rank x) (rank y) with hlt | heq | hgt
  · exact .inl (.inl hlt)
  · by_cases hforward : precedes x y
    · exact .inl (.inr ⟨heq, .inl hforward⟩)
    · by_cases hback : precedes y x
      · exact .inr (.inr ⟨heq.symm, .inl hback⟩)
      · rcases hties.total x hx y hy hne with htie | htie
        · exact .inl (.inr ⟨heq, .inr ⟨hforward, hback, htie⟩⟩)
        · exact .inr (.inr ⟨heq.symm, .inr ⟨hback, hforward, htie⟩⟩)
  · exact .inr (.inl hgt)

/-- No cycle of three items starts with a direct precedence. -/
theorem Unambiguous.no_direct_cycle (h : Unambiguous rank precedes ties items)
    (hacyclic : ShortAcyclic items precedes) (hties : StrictTotalOn items ties) {x y z : α}
    (hx : x ∈ items) (hy : y ∈ items) (hz : z ∈ items) (hxy : rank x = rank y)
    (hyz : rank y = rank z) (hdirect : precedes x y)
    (hsecond : precedes y z ∨ (¬ precedes y z ∧ ¬ precedes z y ∧ ties y z))
    (hthird : precedes z x ∨ (¬ precedes z x ∧ ¬ precedes x z ∧ ties z x))
    : False := by
  have hzx : rank z = rank x := (hxy.trans hyz).symm
  rcases hsecond with hsecond | ⟨hsecond, hsecond', htie⟩
  · rcases hthird with hthird | ⟨hthird, hthird', htie⟩
    · exact hacyclic.noTriangle x hx y hy z hz hdirect hsecond hthird
    · rcases h.chained x hx y hy z hz hxy hyz hdirect hsecond with hxz | hxz
      · exact hthird' hxz
      · exact hties.asymm hx hz hxz htie
  · rcases hthird with hthird | ⟨hthird, hthird', htie'⟩
    · rcases h.chained z hz x hx y hy hzx hxy hthird hdirect with hzy | hzy
      · exact hsecond' hzy
      · exact hties.asymm hz hy hzy htie
    · rcases h.between x hx y hy z hz hxy hyz hdirect htie htie' with
        (hrelated | hrelated) | hrelated | hrelated
      · exact hthird' hrelated
      · exact hthird hrelated
      · exact hsecond hrelated
      · exact hsecond' hrelated

theorem Unambiguous.no_cycle (h : Unambiguous rank precedes ties items)
    (hacyclic : ShortAcyclic items precedes) (hties : StrictTotalOn items ties) {x y z : α}
    (hx : x ∈ items) (hy : y ∈ items) (hz : z ∈ items)
    (hxy : Before rank precedes ties x y) (hyz : Before rank precedes ties y z)
    (hzx : Before rank precedes ties z x)
    : False := by
  have hrank : rank x = rank y ∧ rank y = rank z := by
    have := hxy.rank_le
    have := hyz.rank_le
    have := hzx.rank_le
    omega
  have hback : rank z = rank x := (hrank.1.trans hrank.2).symm
  have hfirst := hxy.same_rank hrank.1
  have hsecond := hyz.same_rank hrank.2
  have hthird := hzx.same_rank hback
  -- A cycle with a direct step is turned until it starts with that step.
  rcases hfirst with hdirect | hfirst
  · exact h.no_direct_cycle hacyclic hties hx hy hz hrank.1 hrank.2 hdirect hsecond hthird
  rcases hsecond with hdirect | hsecond
  · exact h.no_direct_cycle hacyclic hties hy hz hx hrank.2 hback hdirect hthird (.inr hfirst)
  rcases hthird with hdirect | hthird
  · exact h.no_direct_cycle hacyclic hties hz hx hy hback hrank.1 hdirect (.inr hfirst)
      (.inr hsecond)
  have hties' := hties.trans x hx y hy z hz hfirst.2.2 hsecond.2.2
  exact hties.asymm hx hz hties' hthird.2.2

/-- The comparison is a strict total order exactly when the tie-break is unambiguous. -/
theorem strictTotalOn_before_iff (hacyclic : ShortAcyclic items precedes)
    (hties : StrictTotalOn items ties)
    : StrictTotalOn items (Before rank precedes ties)
      ↔ Unambiguous rank precedes ties items := by
  constructor
  · intro horder
    have hdirect : ∀ {x y}, rank x = rank y → precedes x y →
        Before rank precedes ties x y := fun hrank h => .inr ⟨hrank, .inl h⟩
    constructor
    · intro x hx y hy z hz hxy hyz hprecedes hbelow habove
      by_contra hunrelated
      simp only [not_or] at hunrelated
      obtain ⟨⟨hxz, hzx⟩, hyz', hzy⟩ := hunrelated
      have hsecond : Before rank precedes ties y z := .inr ⟨hyz, .inr ⟨hyz', hzy, hbelow⟩⟩
      have hthird : Before rank precedes ties z x :=
        .inr ⟨(hxy.trans hyz).symm, .inr ⟨hzx, hxz, habove⟩⟩
      exact horder.asymm hx hz
        (horder.trans x hx y hy z hz (hdirect hxy hprecedes) hsecond) hthird
    · intro x hx y hy z hz hxy hyz hfirst hsecond
      have hbefore := horder.trans x hx y hy z hz (hdirect hxy hfirst) (hdirect hyz hsecond)
      exact (hbefore.same_rank (hxy.trans hyz)).imp id fun h => h.2.2
  · intro h
    refine ⟨fun x hx hself => before_asymm hacyclic hties hx hx hself hself, ?_,
      fun x hx y hy => before_total hties hx hy⟩
    intro x hx y hy z hz hxy hyz
    by_cases hne : x = z
    · subst hne
      exact absurd hyz (before_asymm hacyclic hties hx hy hxy)
    · exact (before_total hties hx hz hne).resolve_right fun hzx =>
        h.no_cycle hacyclic hties hx hy hz hxy hyz hzx

end Before

end Distributed.Foundation
