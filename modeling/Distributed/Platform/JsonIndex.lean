import Distributed.Platform.Integers
import Distributed.Platform.Json
import Mathlib.Data.Nat.Pairing

/-! A number for every JSON value.
Printed, it is a text that tells all values apart.
-/

namespace Distributed.Platform

def textIndex (text : String) : Nat :=
  text.toList.foldr (fun c index => Nat.pair c.toNat index + 1) 0

theorem textIndex_injective : Function.Injective textIndex := by
  have hchars : ∀ left right : List Char,
      left.foldr (fun c index => Nat.pair c.toNat index + 1) 0
        = right.foldr (fun c index => Nat.pair c.toNat index + 1) 0 → left = right := by
    intro left
    induction left with
    | nil =>
        intro right h
        cases right with
        | nil => rfl
        | cons c right => cases h
    | cons c left ih =>
        intro right h
        cases right with
        | nil => cases h
        | cons other right =>
            obtain ⟨hc, hrest⟩ := Nat.pair_eq_pair.mp (Nat.succ.inj h)
            rw [Char.toNat_inj.mp hc, ih right hrest]
  exact fun left right h => String.toList_inj.mp (hchars _ _ h)

def JsonNumber.index : JsonNumber → Nat
  | .posInt value => Nat.pair 0 value
  | .negInt value => Nat.pair 1 (textIndex (toString value))
  | .float bits => Nat.pair 2 bits.toNat

theorem JsonNumber.index_injective : Function.Injective JsonNumber.index := by
  intro number other h
  cases number <;> cases other <;> simp only [index, Nat.pair_eq_pair] at h <;>
    obtain ⟨hkind, h⟩ := h <;> first
    | cases hkind; done
    | skip
  · rw [h]
  · rw [toString_int_injective (textIndex_injective h)]
  · rw [UInt64.toNat_inj.mp h]

mutual

def Json.index : Json → Nat
  | .null => Nat.pair 0 0
  | .bool flag => Nat.pair 1 flag.toNat
  | .number value => Nat.pair 2 value.index
  | .string text => Nat.pair 3 (textIndex text)
  | .array items => Nat.pair 4 (indexItems items)
  | .object fields => Nat.pair 5 (indexFields fields)

def Json.indexItems : List Json → Nat
  | [] => 0
  | item :: rest => Nat.pair item.index (indexItems rest) + 1

def Json.indexFields : List (String × Json) → Nat
  | [] => 0
  | (name, value) :: rest =>
      Nat.pair (Nat.pair (textIndex name) value.index) (indexFields rest) + 1

end

theorem Json.indexItems_inj {items : List Json}
    (hitems : ∀ item ∈ items, ∀ other : Json, item.index = other.index → item = other)
    {others : List Json} (h : indexItems items = indexItems others)
    : items = others := by
  induction items generalizing others with
  | nil =>
      cases others with
      | nil => rfl
      | cons other others => cases h
  | cons item items ih =>
      obtain ⟨hitem, hitems⟩ := List.forall_mem_cons.mp hitems
      cases others with
      | nil => cases h
      | cons other others =>
          obtain ⟨hfirst, hrest⟩ := Nat.pair_eq_pair.mp (Nat.succ.inj h)
          rw [hitem other hfirst, ih hitems hrest]

theorem Json.indexFields_inj {fields : List (String × Json)}
    (hfields : ∀ field ∈ fields, ∀ other : Json, field.2.index = other.index → field.2 = other)
    {others : List (String × Json)} (h : indexFields fields = indexFields others)
    : fields = others := by
  induction fields generalizing others with
  | nil =>
      cases others with
      | nil => rfl
      | cons other others => cases h
  | cons field fields ih =>
      obtain ⟨hfield, hfields⟩ := List.forall_mem_cons.mp hfields
      cases others with
      | nil => cases h
      | cons other others =>
          obtain ⟨hfirst, hrest⟩ := Nat.pair_eq_pair.mp (Nat.succ.inj h)
          obtain ⟨hname, hvalue⟩ := Nat.pair_eq_pair.mp hfirst
          rw [ih hfields hrest, Prod.ext (textIndex_injective hname) (hfield other.2 hvalue)]

theorem Json.index_injective : Function.Injective Json.index := by
  intro value
  induction value using Json.inductionOn with
  | null =>
      intro other h
      cases other <;> simp only [index, Nat.pair_eq_pair] at h <;> first | rfl | cases h.1
  | bool flag =>
      intro other h
      cases other <;> simp only [index, Nat.pair_eq_pair] at h <;> obtain ⟨hkind, h⟩ := h <;>
        first
        | cases hkind; done
        | skip
      rename_i image
      cases flag <;> cases image <;> first | rfl | cases h
  | number number =>
      intro other h
      cases other <;> simp only [index, Nat.pair_eq_pair] at h <;> obtain ⟨hkind, h⟩ := h <;>
        first
        | cases hkind; done
        | rw [JsonNumber.index_injective h]
  | string text =>
      intro other h
      cases other <;> simp only [index, Nat.pair_eq_pair] at h <;> obtain ⟨hkind, h⟩ := h <;>
        first
        | cases hkind; done
        | rw [textIndex_injective h]
  | array items hitems =>
      intro other h
      cases other <;> simp only [index, Nat.pair_eq_pair] at h <;> obtain ⟨hkind, h⟩ := h <;>
        first
        | cases hkind; done
        | rw [indexItems_inj hitems h]
  | object fields hfields =>
      intro other h
      cases other <;> simp only [index, Nat.pair_eq_pair] at h <;> obtain ⟨hkind, h⟩ := h <;>
        first
        | cases hkind; done
        | rw [indexFields_inj hfields h]

def Json.indexText (value : Json) : String := toString value.index

theorem Json.indexText_injective : Function.Injective Json.indexText :=
  toString_nat_injective.comp Json.index_injective

end Distributed.Platform
