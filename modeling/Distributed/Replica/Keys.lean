import Distributed.Foundation.NumberedNames
import Distributed.Foundation.Sorting
import Distributed.Replica.Values
import Mathlib.Logic.Encodable.Basic

/-! Cache keys of records and indexes, `identity/keys.ts` and `cacheIndexKey`.
The parts of a key are joined with plain punctuation. Keys still say where their parts end,
because the texts of models escape the colon and canonical JSON is self-delimiting.
-/

namespace Distributed.Replica

open Distributed.Foundation Distributed.Platform

/-- The characters of JSON numbers. -/
def isNumberUnit (value : UInt16) : Bool :=
  (0x30 ≤ value && value ≤ 0x39) || value = 0x2B || value = 0x2D || value = 0x2E
    || value = 0x45 || value = 0x65

/-- `JSON.stringify` of finite numbers: different numbers have different texts, which are
JSON numbers. -/
structure NumberTexts where
  text : Rat → JsString
  injective : Function.Injective text
  nonempty : ∀ value, text value ≠ []
  units : ∀ value, ∀ unit ∈ text value, isNumberUnit unit = true

section Canonical

variable (numbers : NumberTexts)

/-- One property of an object's text. -/
def fieldText (field : JsString × JsString) : JsString := field.1.quote ++ 0x3A :: field.2

mutual

/-- `canonicalCacheValue`, and `canonicalValue` of the cache engine. -/
def canonicalCacheValue : ReplicaValue → JsString
  | .null => JsString.ofText "null"
  | .boolean true => JsString.ofText "true"
  | .boolean false => JsString.ofText "false"
  | .number value => numbers.text value
  | .string value => value.quote
  | .array items => 0x5B :: ([0x2C].intercalate (canonicalItems items) ++ [0x5D])
  | .object fields =>
      -- `Object.keys(record).sort()` orders names by their code units.
      let sorted := sortBy (fun field other => decide (field.1 < other.1)) (canonicalFields fields)
      0x7B :: ([0x2C].intercalate (sorted.map fieldText) ++ [0x7D])

def canonicalItems : List ReplicaValue → List JsString
  | [] => []
  | item :: rest => canonicalCacheValue item :: canonicalItems rest

def canonicalFields : List (JsString × ReplicaValue) → List (JsString × JsString)
  | [] => []
  | (name, value) :: rest => (name, canonicalCacheValue value) :: canonicalFields rest

end

theorem canonicalItems_eq_map (items : List ReplicaValue)
    : canonicalItems numbers items = items.map (canonicalCacheValue numbers) := by
  induction items with
  | nil => rfl
  | cons item rest ih => rw [canonicalItems, ih, List.map_cons]

theorem canonicalFields_eq_map (fields : List (JsString × ReplicaValue))
    : canonicalFields numbers fields
      = fields.map fun field => (field.1, canonicalCacheValue numbers field.2) := by
  induction fields with
  | nil => rfl
  | cons field rest ih => rw [canonicalFields, ih, List.map_cons]

/-- What comes next cannot go on with a number. -/
def Stops (rest : JsString) : Prop := ∀ unit, rest.head? = some unit → isNumberUnit unit = false

theorem stops_cons {unit : UInt16} (h : isNumberUnit unit = false) (rest : JsString)
    : Stops (unit :: rest) := fun other hother => by
  cases hother
  exact h

/-- A number's text is all that looks like a number at the front. -/
theorem numberText_takeWhile (value : Rat) {rest : JsString} (hrest : Stops rest)
    : (numbers.text value ++ rest).takeWhile isNumberUnit = numbers.text value := by
  rw [List.takeWhile_append_of_pos (numbers.units value)]
  cases rest with
  | nil => simp
  | cons unit rest => simp [hrest unit rfl]

theorem numberText_readsOff {value other : Rat} {rest others : JsString} (hrest : Stops rest)
    (hothers : Stops others) (h : numbers.text value ++ rest = numbers.text other ++ others)
    : value = other ∧ rest = others := by
  have htext : numbers.text value = numbers.text other := by
    rw [← numberText_takeWhile numbers value hrest, h, numberText_takeWhile numbers other hothers]
  rw [htext] at h
  exact ⟨numbers.injective htext, List.append_cancel_left h⟩

/-- The kinds of values start differently: a number with one of its units, the others with
a unit of their own. -/
inductive Leads : ReplicaValue → UInt16 → Prop
  | null : Leads .null 0x6E
  | false : Leads (.boolean false) 0x66
  | true : Leads (.boolean true) 0x74
  | number {value unit} (h : isNumberUnit unit = true) : Leads (.number value) unit
  | string {value} : Leads (.string value) 0x22
  | array {items} : Leads (.array items) 0x5B
  | object {fields} : Leads (.object fields) 0x7B

theorem leads_canonicalCacheValue (value : ReplicaValue)
    : ∃ unit rest, canonicalCacheValue numbers value = unit :: rest ∧ Leads value unit := by
  cases value with
  | null => exact ⟨_, _, rfl, .null⟩
  | boolean flag =>
      cases flag with
      | false => exact ⟨_, _, rfl, .false⟩
      | true => exact ⟨_, _, rfl, .true⟩
  | number value =>
      cases htext : numbers.text value with
      | nil => exact absurd htext (numbers.nonempty value)
      | cons unit rest =>
          exact ⟨unit, rest, by rw [canonicalCacheValue, htext],
            .number (numbers.units value unit (htext ▸ List.mem_cons_self ..))⟩
  | string value => exact ⟨_, _, rfl, .string⟩
  | array items => exact ⟨_, _, by rw [canonicalCacheValue], .array⟩
  | object fields => exact ⟨_, _, by rw [canonicalCacheValue], .object⟩

/-- No value's text starts like the end of an array or an object. -/
theorem canonicalCacheValue_ne_close {value : ReplicaValue} {close : UInt16}
    (hclose : close = 0x5D ∨ close = 0x7D) (rest others : JsString)
    : canonicalCacheValue numbers value ++ rest ≠ close :: others := by
  obtain ⟨unit, tail, htext, hlead⟩ := leads_canonicalCacheValue numbers value
  rw [htext]
  rintro h
  cases (List.cons.inj h).1
  rcases hclose with rfl | rfl <;> cases hlead <;> rename_i h <;> exact absurd h (by decide)

/-- The text of the value is read off before a stop, whatever follows it. -/
def ReadsValue (value : ReplicaValue) : Prop :=
  ∀ other rest others, Stops rest → Stops others
    → canonicalCacheValue numbers value ++ rest = canonicalCacheValue numbers other ++ others
    → value.SameJson other ∧ rest = others

variable {numbers} in

theorem ReadsValue.same {value other : ReplicaValue} (h : ReadsValue numbers value)
    (heq : canonicalCacheValue numbers value = canonicalCacheValue numbers other)
    : value.SameJson other :=
  (h other [] [] (fun _ h => by cases h) (fun _ h => by cases h) (by rw [heq])).1

theorem stops_comma (rest : JsString) : Stops (0x2C :: rest) := stops_cons (by decide) rest

theorem arrayText_readsOff {items images : List ReplicaValue}
    (ih : ∀ item ∈ items, ReadsValue numbers item) {rest others : JsString}
    (h : canonicalCacheValue numbers (.array items) ++ rest
      = canonicalCacheValue numbers (.array images) ++ others)
    : ReplicaValue.SameJson (.array items) (.array images) ∧ rest = others := by
  simp only [canonicalCacheValue, canonicalItems_eq_map, List.cons_append, List.append_assoc,
    List.nil_append, List.cons.injEq, true_and] at h
  obtain ⟨hsame, hrest⟩ := joined_readsOff (by decide)
    (fun rest => ⟨stops_comma rest, stops_cons (by decide) rest⟩)
    (fun item hitem image _ => ih item hitem image)
    (fun item rest others _ => canonicalCacheValue_ne_close numbers (.inl rfl) rest others) h
  exact ⟨ReplicaValue.sameItems_iff.mpr hsame, hrest⟩

theorem fieldText_readsOff {field image : JsString × ReplicaValue}
    (ih : ReadsValue numbers field.2) {rest others : JsString} (hrest : Stops rest)
    (hothers : Stops others)
    (h : fieldText (field.1, canonicalCacheValue numbers field.2) ++ rest
      = fieldText (image.1, canonicalCacheValue numbers image.2) ++ others)
    : (field.1, canonicalCacheValue numbers field.2)
        = (image.1, canonicalCacheValue numbers image.2)
      ∧ rest = others := by
  simp only [fieldText, List.append_assoc, List.cons_append] at h
  obtain ⟨hname, hvalue⟩ := JsString.quote_readsOff h
  have hvalue := (List.cons.inj hvalue).2
  obtain ⟨-, rfl⟩ := ih image.2 rest others hrest hothers hvalue
  exact ⟨Prod.ext hname (List.append_cancel_right hvalue), rfl⟩

theorem objectText_readsOff {fields images : List (JsString × ReplicaValue)}
    (ih : ∀ field ∈ fields, ReadsValue numbers field.2) {rest others : JsString}
    (h : canonicalCacheValue numbers (.object fields) ++ rest
      = canonicalCacheValue numbers (.object images) ++ others)
    : ReplicaValue.SameJson (.object fields) (.object images) ∧ rest = others := by
  simp only [canonicalCacheValue, canonicalFields_eq_map, List.cons_append, List.append_assoc,
    List.nil_append, List.cons.injEq, true_and] at h
  obtain ⟨hsame, hrest⟩ := joined_readsOff (by decide)
    (fun rest => ⟨stops_comma rest, stops_cons (by decide) rest⟩)
    (fun item hitem image himage rest others hrest hothers heq => by
      obtain ⟨field, hmem, rfl⟩ := List.mem_map.mp ((sortBy_perm _ _).mem_iff.mp hitem)
      obtain ⟨other, -, rfl⟩ := List.mem_map.mp ((sortBy_perm _ _).mem_iff.mp himage)
      exact fieldText_readsOff numbers (ih field hmem) hrest hothers heq)
    (fun item rest others _ heq => absurd (List.cons.inj heq).1 (by decide)) h
  -- Equal sorted properties are a rearrangement of each other.
  rw [List.forall₂_eq_eq_eq] at hsame
  have hperm := ((sortBy_perm _ _).symm.trans (List.Perm.of_eq hsame)).trans (sortBy_perm _ _)
  refine ⟨⟨by simpa using hperm.length_eq, ReplicaValue.sameFields_iff.mpr ?_⟩, hrest⟩
  intro field hmem
  obtain ⟨image, himage, heq⟩ := List.mem_map.mp (hperm.mem_iff.mp (List.mem_map_of_mem hmem))
  obtain ⟨hname, htext⟩ := Prod.mk.inj heq
  exact ⟨image.2, hname ▸ himage, (ih field hmem).same htext.symm⟩

theorem readsValue (value : ReplicaValue) : ReadsValue numbers value := by
  have hlead {value other : ReplicaValue} {rest others : JsString}
      (h : canonicalCacheValue numbers value ++ rest = canonicalCacheValue numbers other ++ others)
      : ∃ unit, Leads value unit ∧ Leads other unit := by
    obtain ⟨unit, tail, htext, hfirst⟩ := leads_canonicalCacheValue numbers value
    obtain ⟨unit', tail', htext', hsecond⟩ := leads_canonicalCacheValue numbers other
    rw [htext, htext'] at h
    cases (List.cons.inj h).1
    exact ⟨unit, hfirst, hsecond⟩
  induction value using ReplicaValue.inductionOn with
  | null =>
      intro other rest others _ _ h
      obtain ⟨unit, hfirst, hsecond⟩ := hlead h
      cases hfirst
      cases hsecond with
      | null => exact ⟨trivial, List.append_cancel_left h⟩
      | number hunit => exact absurd hunit (by decide)
  | boolean flag =>
      intro other rest others _ _ h
      obtain ⟨unit, hfirst, hsecond⟩ := hlead h
      cases hfirst with
      | false =>
          cases hsecond with
          | false => exact ⟨rfl, List.append_cancel_left h⟩
          | number hunit => exact absurd hunit (by decide)
      | true =>
          cases hsecond with
          | true => exact ⟨rfl, List.append_cancel_left h⟩
          | number hunit => exact absurd hunit (by decide)
  | number value =>
      intro other rest others hrest hothers h
      obtain ⟨unit, hfirst, hsecond⟩ := hlead h
      cases hfirst with
      | number hunit =>
          cases hsecond with
          | number => exact numberText_readsOff numbers hrest hothers h
          | _ => exact absurd hunit (by decide)
  | string value =>
      intro other rest others _ _ h
      obtain ⟨unit, hfirst, hsecond⟩ := hlead h
      cases hfirst
      cases hsecond with
      | string => exact JsString.quote_readsOff h
      | number hunit => exact absurd hunit (by decide)
  | array items ih =>
      intro other rest others _ _ h
      obtain ⟨unit, hfirst, hsecond⟩ := hlead h
      cases hfirst
      cases hsecond with
      | number hunit => exact absurd hunit (by decide)
      | array => exact arrayText_readsOff numbers ih h
  | object fields ih =>
      intro other rest others _ _ h
      obtain ⟨unit, hfirst, hsecond⟩ := hlead h
      cases hfirst
      cases hsecond with
      | number hunit => exact absurd hunit (by decide)
      | object => exact objectText_readsOff numbers ih h

end Canonical

structure ReplicaModelArtifact where
  id : JsString
  identityFields : List JsString

/-- The parts of an identity. A single part may be given bare. -/
def identityParts : ReplicaValue → List ReplicaValue
  | .array parts => parts
  | identity => [identity]

section Keys

variable (numbers : NumberTexts)

def replicaRecordKey (model : ReplicaModelArtifact) (identity : ReplicaValue)
    : Except JsString JsString := do
  assertName model.id "model id"
  if model.identityFields.length = 0 then
    .error (JsString.ofText "model " ++ model.id
      ++ JsString.ofText " must declare at least one identity field")
  else
    let parts := identityParts identity
    if parts.length ≠ model.identityFields.length then
      .error (JsString.ofText "model " ++ model.id ++ JsString.ofText
        s!" identity expected {model.identityFields.length} part(s), received {parts.length}")
    else
      let encoded ← JsString.encodeURIComponent model.id
      .ok (JsString.ofText "record:" ++ encoded
        ++ 0x3A :: canonicalCacheValue numbers (.array parts))

/-- `replicaIndexKey`, which calls `cacheIndexKey`. -/
def replicaIndexKey (parent : Option JsString) (field : JsString)
    (arguments : List (JsString × ReplicaValue))
    : Except JsString JsString := do
  assertName field "index field"
  match parent with
  | some parent => assertName parent "record key"
  | none => .ok ()
  .ok (parent.getD (JsString.ofText "$root") ++ 0x2E :: field
    ++ 0x28 :: canonicalCacheValue numbers (.object arguments) ++ [0x29])

theorem replicaRecordKey_eq_ok {model : ReplicaModelArtifact} {identity : ReplicaValue}
    {key : JsString} (h : replicaRecordKey numbers model identity = .ok key)
    : ∃ encoded, JsString.encodeURIComponent model.id = .ok encoded
      ∧ key = JsString.ofText "record:" ++ encoded
        ++ 0x3A :: canonicalCacheValue numbers (.array (identityParts identity)) := by
  simp only [replicaRecordKey, Result.guard_eq_ok_iff, Result.bind_eq_ok_iff] at h
  obtain ⟨-, -, -, -, encoded, hencoded, hkey⟩ := h
  exact ⟨encoded, hencoded, (Except.ok.inj hkey).symm⟩

/-- A record key is read off the front of a longer key. -/
theorem replicaRecordKey_readsOff {model other : ReplicaModelArtifact}
    {identity image : ReplicaValue} {key key' rest others : JsString}
    (h : replicaRecordKey numbers model identity = .ok key)
    (h' : replicaRecordKey numbers other image = .ok key')
    (heq : key ++ rest = key' ++ others)
    : model.id = other.id
      ∧ ReplicaValue.SameItems (identityParts identity) (identityParts image)
      ∧ rest = others := by
  obtain ⟨encoded, hencoded, rfl⟩ := replicaRecordKey_eq_ok numbers h
  obtain ⟨encoded', hencoded', rfl⟩ := replicaRecordKey_eq_ok numbers h'
  simp only [List.append_assoc, List.cons_append] at heq
  -- The model's text ends at the first colon, the identity where its brackets close.
  obtain ⟨rfl, hparts⟩ := delimited_inj (JsString.colon_notMem_encodeURIComponent hencoded)
    (JsString.colon_notMem_encodeURIComponent hencoded') (List.append_cancel_left heq)
  obtain ⟨hsame, hrest⟩ := arrayText_readsOff numbers (fun item _ => readsValue numbers item)
    hparts
  exact ⟨JsString.encodeURIComponent_injective hencoded hencoded', hsame, hrest⟩

/-- The names of GraphQL fields. -/
def GraphqlName (name : JsString) : Prop :=
  name ≠ [] ∧ ∀ value ∈ name, (Char.ofNat value.toNat).isAlphanum || value = 0x5F

/-- A root field has no parent, a relationship field a record. -/
def BuiltParent : Option JsString → Prop
  | none => True
  | some key => ∃ model identity, replicaRecordKey numbers model identity = .ok key

theorem replicaIndexKey_eq_ok {parent : Option JsString} {field key : JsString}
    {arguments : List (JsString × ReplicaValue)}
    (h : replicaIndexKey numbers parent field arguments = .ok key)
    : key = parent.getD (JsString.ofText "$root") ++ 0x2E :: (field
        ++ 0x28 :: (canonicalCacheValue numbers (.object arguments) ++ [0x29])) := by
  have hkey : parent.getD (JsString.ofText "$root") ++ 0x2E :: field
      ++ 0x28 :: canonicalCacheValue numbers (.object arguments) ++ [0x29] = key := by
    rw [replicaIndexKey, Result.seq_eq_ok_iff] at h
    cases parent with
    | none => exact Except.ok.inj h.2
    | some parent => exact Except.ok.inj (Result.seq_eq_ok_iff.mp h.2).2
  simp [← hkey]

/-- What follows a parent is the field up to its parenthesis, then the arguments. -/
theorem indexTail_inj {field field' : JsString} (hfield : GraphqlName field)
    (hfield' : GraphqlName field') {arguments arguments' : List (JsString × ReplicaValue)}
    (h : 0x2E :: (field ++ 0x28 :: (canonicalCacheValue numbers (.object arguments) ++ [0x29]))
      = 0x2E :: (field' ++ 0x28 :: (canonicalCacheValue numbers (.object arguments') ++ [0x29])))
    : field = field'
      ∧ ReplicaValue.SameJson (.object arguments) (.object arguments') := by
  have hparen {name : JsString} (hname : GraphqlName name) : (0x28 : UInt16) ∉ name :=
    fun hmem => absurd (hname.2 _ hmem) (by decide)
  obtain ⟨hnames, harguments⟩ := delimited_inj (hparen hfield) (hparen hfield')
    (List.cons.inj h).2
  exact ⟨hnames, (readsValue numbers (.object arguments)).same
    (List.append_cancel_right harguments)⟩

theorem replicaIndexKey_inj {parent parent' : Option JsString} {field field' key : JsString}
    {arguments arguments' : List (JsString × ReplicaValue)} (hparent : BuiltParent numbers parent)
    (hparent' : BuiltParent numbers parent') (hfield : GraphqlName field)
    (hfield' : GraphqlName field')
    (h : replicaIndexKey numbers parent field arguments = .ok key)
    (h' : replicaIndexKey numbers parent' field' arguments' = .ok key)
    : parent = parent' ∧ field = field'
      ∧ ReplicaValue.SameJson (.object arguments) (.object arguments') := by
  have heq := (replicaIndexKey_eq_ok numbers h).symm.trans (replicaIndexKey_eq_ok numbers h')
  -- Record keys start with the letter r and the text of a missing parent does not.
  have hroot {model : ReplicaModelArtifact} {identity : ReplicaValue} {key rest others : JsString}
      (hkey : replicaRecordKey numbers model identity = .ok key)
      (heq : JsString.ofText "$root" ++ rest = key ++ others)
      : False := by
    obtain ⟨encoded, -, rfl⟩ := replicaRecordKey_eq_ok numbers hkey
    exact absurd (List.cons.inj heq).1 (by decide)
  cases parent with
  | none =>
      cases parent' with
      | none => exact ⟨rfl, indexTail_inj numbers hfield hfield' (List.append_cancel_left heq)⟩
      | some key' =>
          obtain ⟨model, identity, hkey⟩ := hparent'
          exact (hroot hkey heq).elim
  | some key =>
      obtain ⟨model, identity, hkey⟩ := hparent
      cases parent' with
      | none => exact (hroot hkey heq.symm).elim
      | some key' =>
          obtain ⟨other, image, hkey'⟩ := hparent'
          obtain ⟨-, -, htail⟩ := replicaRecordKey_readsOff numbers hkey hkey' heq
          have hkeys : key = key' := by
            rw [Option.getD_some, Option.getD_some, htail] at heq
            exact List.append_cancel_right heq
          exact ⟨congrArg some hkeys, indexTail_inj numbers hfield hfield' htail⟩

/-- A key tells its parts: a record key the model and the parts of the identity, an index key
the parent, or that there is none, the field and the arguments. -/
theorem replica_keys_unambiguous
    : (∀ model other identity image key,
        replicaRecordKey numbers model identity = .ok key
        → replicaRecordKey numbers other image = .ok key
        → model.id = other.id
          ∧ ReplicaValue.SameItems (identityParts identity) (identityParts image))
      ∧ ∀ parent parent' field field' arguments arguments' key,
        BuiltParent numbers parent → BuiltParent numbers parent'
        → GraphqlName field → GraphqlName field'
        → replicaIndexKey numbers parent field arguments = .ok key
        → replicaIndexKey numbers parent' field' arguments' = .ok key
        → parent = parent' ∧ field = field'
          ∧ ReplicaValue.SameJson (.object arguments) (.object arguments') := by
  refine ⟨fun model other identity image key h h' => ?_, fun _ _ _ _ _ _ _ => ?_⟩
  · obtain ⟨hid, hparts, -⟩ := replicaRecordKey_readsOff numbers h h'
      (rfl : key ++ [] = key ++ [])
    exact ⟨hid, hparts⟩
  · exact replicaIndexKey_inj numbers

end Keys

theorem isNumberUnit_of_isDigit {c : Char} (h : c.isDigit = true)
    : ∀ unit ∈ JsString.ofChar c, isNumberUnit unit = true := by
  have hall : ((List.range 58).all fun n => !(Char.ofNat n).isDigit
      || (JsString.ofChar (Char.ofNat n)).all isNumberUnit) = true := by decide
  have hbound : c.toNat < 58 := by
    simp only [Char.isDigit, Bool.and_eq_true, decide_eq_true_eq, UInt32.le_iff_toNat_le] at h
    exact Nat.lt_succ_of_le h.2
  have hchar := List.all_eq_true.mp hall c.toNat (List.mem_range.mpr hbound)
  rw [Char.ofNat_toNat, h] at hchar
  exact List.all_eq_true.mp hchar

/-- Texts for numbers: the decimal digits of a code of numerator and denominator. -/
def codedNumbers : NumberTexts where
  text value := JsString.ofText (toString (Encodable.encode (value.num, value.den)))
  injective value other h := by
    have htext : "" ++ toString (Encodable.encode (value.num, value.den))
        = "" ++ toString (Encodable.encode (other.num, other.den)) :=
      congrArg ("" ++ ·) (JsString.ofText_injective h)
    have hcode := (numbered_inj (by simp) (by simp) htext).2
    obtain ⟨hnum, hden⟩ := Prod.mk.inj (Encodable.encode_injective hcode)
    exact Rat.ext hnum hden
  nonempty value h := by
    have hchars := JsString.chars_ofText (toString (Encodable.encode (value.num, value.den)))
    rw [h, Nat.toString_eq_repr, Nat.toList_repr] at hchars
    exact Nat.toDigits_ne_nil hchars.symm
  units value unit hunit := by
    obtain ⟨c, hc, hunit⟩ := List.mem_flatMap.mp hunit
    rw [Nat.toString_eq_repr, Nat.toList_repr] at hc
    exact isNumberUnit_of_isDigit (Nat.isDigit_of_mem_toDigits (by decide) (by decide) hc) unit
      hunit

/-- A model identified by one field. -/
def todoModel : ReplicaModelArtifact := ⟨JsString.ofText "Todo", [JsString.ofText "id"]⟩

def openNotes : List (JsString × ReplicaValue) :=
  [(JsString.ofText "done", .boolean false), (JsString.ofText "first", .null)]

/-- A todo whose identity is given bare or as a list, and an index of its notes whose arguments
are given in either order. -/
theorem todo_keys_unambiguous
    : ∃ key index,
        replicaRecordKey codedNumbers todoModel (.string (JsString.ofText "1")) = .ok key
      ∧ replicaRecordKey codedNumbers todoModel (.array [.string (JsString.ofText "1")]) = .ok key
      ∧ ReplicaValue.SameItems (identityParts (.string (JsString.ofText "1")))
        (identityParts (.array [.string (JsString.ofText "1")]))
      ∧ replicaIndexKey codedNumbers (some key) (JsString.ofText "notes") openNotes = .ok index
      ∧ replicaIndexKey codedNumbers (some key) (JsString.ofText "notes") openNotes.reverse
        = .ok index
      ∧ ReplicaValue.SameJson (.object openNotes) (.object openNotes.reverse) := by
  have hunits : ((JsString.ofText "notes").all fun value =>
      (Char.ofNat value.toNat).isAlphanum || value = 0x5F) = true := by decide
  have hname : GraphqlName (JsString.ofText "notes") :=
    ⟨by decide, List.all_eq_true.mp hunits⟩
  have hparent (key : JsString)
      (h : replicaRecordKey codedNumbers todoModel (.string (JsString.ofText "1")) = .ok key)
      : BuiltParent codedNumbers (some key) := ⟨todoModel, _, h⟩
  refine ⟨_, _, rfl, rfl,
    ((replica_keys_unambiguous codedNumbers).1 todoModel todoModel _ _ _ rfl rfl).2, rfl, rfl, ?_⟩
  exact ((replica_keys_unambiguous codedNumbers).2 _ _ _ _ openNotes openNotes.reverse _
    (hparent _ rfl) (hparent _ rfl) hname hname rfl rfl).2.2

/-- A single part may be given bare, so that two identities that are not equal as JSON have
one key. -/
theorem bare_identity_same_key
    : ¬∀ (numbers : NumberTexts) (model other : ReplicaModelArtifact)
        (identity image : ReplicaValue) (key : JsString),
        replicaRecordKey numbers model identity = .ok key
        → replicaRecordKey numbers other image = .ok key
        → model.id = other.id ∧ identity.SameJson image := by
  intro h
  have hkeys : replicaRecordKey codedNumbers todoModel (.array [.string (JsString.ofText "1")])
      = replicaRecordKey codedNumbers todoModel (.string (JsString.ofText "1")) := rfl
  have hok : ∃ key, replicaRecordKey codedNumbers todoModel (.string (JsString.ofText "1"))
      = .ok key := ⟨_, rfl⟩
  obtain ⟨key, hkey⟩ := hok
  exact (h codedNumbers todoModel todoModel _ _ key hkey (hkeys.trans hkey)).2

end Distributed.Replica
