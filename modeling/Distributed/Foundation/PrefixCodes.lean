import Mathlib.Data.List.Basic
import Mathlib.Data.List.Forall2

/-! Codes whose words say where they end.
A word is read off the front of a text, whatever follows it. Words of fixed width, texts that
start with their length and lists that start with their count are such codes.
-/

namespace Distributed.Foundation

variable {α σ : Type}

/-- No word of a coded value starts the text of a value that is not the same. -/
def ReadsOff (code : α → List σ) (Coded : α → Prop) (Same : α → α → Prop) (value : α)
    : Prop :=
  ∀ other, Coded other → ∀ rest others, code value ++ rest = code other ++ others →
    Same value other ∧ rest = others

/-- Lists of the same items have one text. -/
theorem flatMap_eq_of_same {code : α → List σ} {Same : α → α → Prop} {items images : List α}
    (h : List.Forall₂ Same items images)
    (hcode : ∀ item ∈ items, ∀ image ∈ images, Same item image → code item = code image)
    : items.flatMap code = images.flatMap code := by
  induction h with
  | nil => rfl
  | cons hfirst _ ih =>
      rw [List.flatMap_cons, List.flatMap_cons,
        hcode _ (List.mem_cons_self ..) _ (List.mem_cons_self ..) hfirst,
        ih fun item hitem image himage =>
          hcode item (List.mem_cons_of_mem _ hitem) image (List.mem_cons_of_mem _ himage)]

/-- Lists of nonempty words are read off to their end. -/
theorem flatMap_readsOff_all {code : α → List σ} {Coded : α → Prop} {Same : α → α → Prop}
    {items images : List α} (hitems : ∀ item ∈ items, ReadsOff code Coded Same item)
    (himages : ∀ image ∈ images, Coded image) (hword : ∀ value, code value ≠ [])
    (h : items.flatMap code = images.flatMap code)
    : List.Forall₂ Same items images := by
  induction items generalizing images with
  | nil =>
      cases images with
      | nil => exact .nil
      | cons image images =>
          exact absurd (List.append_eq_nil_iff.mp h.symm).1 (hword image)
  | cons item items ih =>
      cases images with
      | nil => exact absurd (List.append_eq_nil_iff.mp h).1 (hword item)
      | cons image images =>
          obtain ⟨hsame, hrest⟩ := hitems item (List.mem_cons_self ..) image
            (himages image (List.mem_cons_self ..)) _ _ h
          exact .cons hsame (ih
            (fun other hother => hitems other (List.mem_cons_of_mem _ hother))
            (fun other hother => himages other (List.mem_cons_of_mem _ hother)) hrest)

/-- Where the words may hold the delimiter, two readings of a text agree or one of the words
starts with the other one and a delimiter. -/
theorem append_delimiter_eq_iff {delimiter : σ} {word image rest others : List σ}
    : word ++ delimiter :: rest = image ++ delimiter :: others
      ↔ word = image ∧ rest = others
        ∨ (∃ more, image = word ++ delimiter :: more ∧ rest = more ++ delimiter :: others)
        ∨ ∃ more, word = image ++ delimiter :: more ∧ others = more ++ delimiter :: rest := by
  constructor
  · intro h
    rcases List.append_eq_append_iff.mp h with ⟨more, himage, hrest⟩ | ⟨more, hword, hrest⟩
    · cases more with
      | nil => exact .inl ⟨by simpa using himage.symm, (List.cons.inj hrest).2⟩
      | cons symbol more =>
          obtain ⟨rfl, htail⟩ := List.cons.inj hrest
          exact .inr (.inl ⟨more, himage, htail⟩)
    · cases more with
      | nil => exact .inl ⟨by simpa using hword, (List.cons.inj hrest).2.symm⟩
      | cons symbol more =>
          obtain ⟨rfl, htail⟩ := List.cons.inj hrest
          exact .inr (.inr ⟨more, hword, htail⟩)
  · rintro (⟨rfl, rfl⟩ | ⟨more, rfl, rfl⟩ | ⟨more, rfl, rfl⟩) <;> simp

/-- A word without the delimiter ends at the first one. -/
theorem delimited_inj {delimiter : σ} {word image rest others : List σ}
    (hword : delimiter ∉ word) (himage : delimiter ∉ image)
    (h : word ++ delimiter :: rest = image ++ delimiter :: others)
    : word = image ∧ rest = others := by
  rcases append_delimiter_eq_iff.mp h with hsame | ⟨more, rfl, -⟩ | ⟨more, rfl, -⟩
  · exact hsame
  · simp at himage
  · simp at hword

/-- A separator that starts with a symbol of no word keeps nonempty words apart. -/
theorem separated_inj {delimiter : σ} {gap : List σ} {words images : List (List σ)}
    (hwords : ∀ word ∈ words, word ≠ [] ∧ delimiter ∉ word)
    (himages : ∀ image ∈ images, image ≠ [] ∧ delimiter ∉ image)
    (h : (delimiter :: gap).intercalate words = (delimiter :: gap).intercalate images)
    : words = images := by
  -- The first word of a text ends the text or stands before a separator.
  have hfirst : ∀ word rest, ∃ tail,
      (delimiter :: gap).intercalate (word :: rest) = word ++ tail
        ∧ (rest = [] ∧ tail = []
          ∨ tail = delimiter :: (gap ++ (delimiter :: gap).intercalate rest)) := by
    intro word rest
    cases rest with
    | nil => exact ⟨[], by simp [List.intercalate], .inl ⟨rfl, rfl⟩⟩
    | cons next rest =>
        exact ⟨_, by simp [List.intercalate], .inr rfl⟩
  induction words generalizing images with
  | nil =>
      cases images with
      | nil => rfl
      | cons image images =>
          obtain ⟨tail, htext, -⟩ := hfirst image images
          rw [htext] at h
          exact absurd (List.append_eq_nil_iff.mp h.symm).1
            (himages image (List.mem_cons_self ..)).1
  | cons word words ih =>
      obtain ⟨hword, hrests⟩ := List.forall_mem_cons.mp hwords
      obtain ⟨tail, htext, htail⟩ := hfirst word words
      cases images with
      | nil =>
          rw [htext] at h
          exact absurd (List.append_eq_nil_iff.mp h).1 hword.1
      | cons image images =>
          obtain ⟨himage, hothers⟩ := List.forall_mem_cons.mp himages
          obtain ⟨tail', htext', htail'⟩ := hfirst image images
          rw [htext, htext'] at h
          rcases htail with ⟨rfl, rfl⟩ | rfl <;> rcases htail' with ⟨rfl, rfl⟩ | rfl
          · simpa using h
          · rw [List.append_nil] at h
            exact absurd (h ▸ List.mem_append_right _ (List.mem_cons_self ..)) hword.2
          · rw [List.append_nil] at h
            exact absurd (h ▸ List.mem_append_right _ (List.mem_cons_self ..)) himage.2
          · obtain ⟨rfl, hrest⟩ := delimited_inj hword.2 himage.2 h
            rw [ih hrests hothers (List.append_cancel_left hrest)]

/-- Words that are read off before a stop, joined by one stop and closed by another. -/
theorem joined_readsOff {code : α → List σ} {Same : α → α → Prop} {Stops : List σ → Prop}
    {separator close : σ} (hne : separator ≠ close)
    (hstops : ∀ rest, Stops (separator :: rest) ∧ Stops (close :: rest))
    {items images : List α}
    (hitems : ∀ item ∈ items, ∀ image ∈ images, ∀ rest others, Stops rest → Stops others
      → code item ++ rest = code image ++ others → Same item image ∧ rest = others)
    (hopen : ∀ item rest others, item ∈ items ∨ item ∈ images
      → code item ++ rest ≠ close :: others)
    {rest others : List σ}
    (h : [separator].intercalate (items.map code) ++ close :: rest
      = [separator].intercalate (images.map code) ++ close :: others)
    : List.Forall₂ Same items images ∧ rest = others := by
  -- After the first word comes the closing symbol, or a separator and the other words.
  have hfirst : ∀ (word : List σ) (words : List (List σ)) (rest : List σ),
      [separator].intercalate (word :: words) ++ close :: rest
        = word ++ (if words = [] then close :: rest
          else separator :: ([separator].intercalate words ++ close :: rest)) := by
    intro word words rest
    cases words with
    | nil => simp [List.intercalate]
    | cons next words => simp [List.intercalate]
  induction items generalizing images with
  | nil =>
      cases images with
      | nil => exact ⟨.nil, by simpa using h⟩
      | cons image images =>
          rw [List.map_cons, hfirst] at h
          exact absurd h.symm (hopen image _ _ (.inr (List.mem_cons_self ..)))
  | cons item items ih =>
      rw [List.map_cons, hfirst] at h
      cases images with
      | nil => exact absurd h (hopen item _ _ (.inl (List.mem_cons_self ..)))
      | cons image images =>
          rw [List.map_cons, hfirst] at h
          have hstop : ∀ (words : List (List σ)) (rest : List σ),
              Stops (if words = [] then close :: rest
                else separator :: ([separator].intercalate words ++ close :: rest)) := by
            intro words rest
            split
            · exact (hstops _).2
            · exact (hstops _).1
          obtain ⟨hsame, htail⟩ := hitems item (List.mem_cons_self ..) image
            (List.mem_cons_self ..) _ _ (hstop _ _) (hstop _ _) h
          split at htail <;> split at htail
          · rename_i hnone hnone'
            rw [List.map_eq_nil_iff] at hnone hnone'
            subst hnone hnone'
            exact ⟨.cons hsame .nil, (List.cons.inj htail).2⟩
          · exact absurd (List.cons.inj htail).1.symm hne
          · exact absurd (List.cons.inj htail).1 hne
          · obtain ⟨hrests, hrest⟩ := ih
              (fun item hitem image himage => hitems item (List.mem_cons_of_mem _ hitem) image
                (List.mem_cons_of_mem _ himage))
              (fun item rest others hmem => hopen item rest others
                (hmem.imp (List.mem_cons_of_mem _) (List.mem_cons_of_mem _)))
              (List.cons.inj htail).2
            exact ⟨.cons hsame hrests, hrest⟩

end Distributed.Foundation
