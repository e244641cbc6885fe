import Distributed.Foundation.PrefixCodes
import Distributed.Platform.Utf8

/-! JavaScript strings.
A string is any sequence of UTF-16 code units. A surrogate without its partner stands for no
character, and `TextEncoder` writes U+FFFD for it.
-/

namespace Distributed.Platform

open Distributed.Foundation

abbrev JsString : Type := List UInt16

namespace JsString

def isHighSurrogate (unit : UInt16) : Bool := 0xD800 ≤ unit.toNat && unit.toNat < 0xDC00

def isLowSurrogate (unit : UInt16) : Bool := 0xDC00 ≤ unit.toNat && unit.toNat < 0xE000

/-- The code units of a character. -/
def ofChar (c : Char) : JsString :=
  if c.toNat < 0x10000 then [UInt16.ofNat c.toNat]
  else
    [UInt16.ofNat (0xD800 + (c.toNat - 0x10000) / 0x400),
      UInt16.ofNat (0xDC00 + (c.toNat - 0x10000) % 0x400)]

/-- A text of characters, as every string literal of the source is. -/
def ofText (value : String) : JsString := value.toList.flatMap ofChar

/-- The character of a unit outside a surrogate pair. -/
def loneChar (unit : UInt16) : Char :=
  if isHighSurrogate unit || isLowSurrogate unit then Char.ofNat 0xFFFD
  else Char.ofNat unit.toNat

def pairChar (high low : UInt16) : Char :=
  Char.ofNat (0x10000 + (high.toNat - 0xD800) * 0x400 + (low.toNat - 0xDC00))

/-- The characters a string is read as. -/
def chars : JsString → List Char
  | [] => []
  | [unit] => [loneChar unit]
  | unit :: next :: rest =>
      if isHighSurrogate unit && isLowSurrogate next then pairChar unit next :: chars rest
      else loneChar unit :: chars (next :: rest)

/-- `String.prototype.toWellFormed`. -/
def toWellFormed (value : JsString) : JsString := (chars value).flatMap ofChar

/-- `String.prototype.isWellFormed`: every surrogate has its partner. -/
def WellFormed (value : JsString) : Prop := toWellFormed value = value

instance (value : JsString) : Decidable value.WellFormed :=
  inferInstanceAs (Decidable (_ = _))

/-- `TextEncoder.encode`. -/
def encode (value : JsString) : List UInt8 := (chars value).flatMap String.utf8EncodeChar

-- The bytes tell the characters apart, and a well-formed string is its characters.

theorem encode_injOn {value other : JsString} (hvalue : value.WellFormed)
    (hother : other.WellFormed) (h : value.encode = other.encode)
    : value = other := by
  have hchars : value.chars = other.chars := by
    have hbytes : utf8Bytes (String.ofList value.chars)
        = utf8Bytes (String.ofList other.chars) := by
      rw [utf8Bytes_ofList, utf8Bytes_ofList]
      exact h
    exact String.ofList_injective (utf8Bytes_injective hbytes)
  rw [← hvalue, ← hother, toWellFormed, toWellFormed, hchars]

theorem chars_ofChar_append (c : Char) (rest : JsString)
    : chars (ofChar c ++ rest) = c :: chars rest := by
  have hvalid : c.toNat < 0xD800 ∨ 0xDFFF < c.toNat ∧ c.toNat < 0x110000 := c.valid
  rw [ofChar]
  split
  · rename_i hsmall
    have hunit : (UInt16.ofNat c.toNat).toNat = c.toNat := UInt16.toNat_ofNat_of_lt' hsmall
    have hhigh : isHighSurrogate (UInt16.ofNat c.toNat) = false := by
      simp only [isHighSurrogate, hunit, Bool.and_eq_false_iff, decide_eq_false_iff_not]
      omega
    have hlow : isLowSurrogate (UInt16.ofNat c.toNat) = false := by
      simp only [isLowSurrogate, hunit, Bool.and_eq_false_iff, decide_eq_false_iff_not]
      omega
    have hlone : loneChar (UInt16.ofNat c.toNat) = c := by
      rw [loneChar, hhigh, hlow, hunit]
      exact Char.ofNat_toNat c
    cases rest with
    | nil => simp [chars, hlone]
    | cons next rest => simp [chars, hhigh, hlone]
  · rename_i hlarge
    have hhigh : (UInt16.ofNat (0xD800 + (c.toNat - 0x10000) / 0x400)).toNat
        = 0xD800 + (c.toNat - 0x10000) / 0x400 :=
      UInt16.toNat_ofNat_of_lt' (by simp only [UInt16.size]; omega)
    have hlow : (UInt16.ofNat (0xDC00 + (c.toNat - 0x10000) % 0x400)).toNat
        = 0xDC00 + (c.toNat - 0x10000) % 0x400 :=
      UInt16.toNat_ofNat_of_lt' (by simp only [UInt16.size]; omega)
    have hpair : isHighSurrogate (UInt16.ofNat (0xD800 + (c.toNat - 0x10000) / 0x400))
        && isLowSurrogate (UInt16.ofNat (0xDC00 + (c.toNat - 0x10000) % 0x400)) := by
      simp only [isHighSurrogate, isLowSurrogate, hhigh, hlow, Bool.and_eq_true, decide_eq_true_eq]
      omega
    have hchar : 0x10000 + (0xD800 + (c.toNat - 0x10000) / 0x400 - 0xD800) * 0x400
        + (0xDC00 + (c.toNat - 0x10000) % 0x400 - 0xDC00) = c.toNat := by
      omega
    rw [List.cons_append, List.cons_append, List.nil_append, chars, if_pos hpair, pairChar, hhigh,
      hlow, hchar, Char.ofNat_toNat]

theorem chars_ofText (value : String) : chars (ofText value) = value.toList := by
  rw [ofText]
  induction value.toList with
  | nil => rfl
  | cons c rest ih => rw [List.flatMap_cons, chars_ofChar_append, ih]

theorem ofText_injective : Function.Injective ofText := fun value other h => by
  rw [← String.toList_inj, ← chars_ofText, ← chars_ofText, h]

/-- The code unit of an ASCII character. -/
def unit (c : Char) : UInt16 := UInt16.ofNat c.toNat

theorem hexDigit_unit_inj {a b : Nat} (ha : a < 16) (hb : b < 16)
    (h : unit (hexDigit a) = unit (hexDigit b))
    : a = b := by
  have hall : ∀ m ∈ List.range 16, ∀ n ∈ List.range 16,
      unit (hexDigit m) = unit (hexDigit n) → m = n := by decide
  exact hall a (List.mem_range.mpr ha) b (List.mem_range.mpr hb) h

theorem hexDigit_toUpper_unit_inj {a b : Nat} (ha : a < 16) (hb : b < 16)
    (h : unit (hexDigit a).toUpper = unit (hexDigit b).toUpper)
    : a = b := by
  have hall : ∀ m ∈ List.range 16, ∀ n ∈ List.range 16,
      unit (hexDigit m).toUpper = unit (hexDigit n).toUpper → m = n := by decide
  exact hall a (List.mem_range.mpr ha) b (List.mem_range.mpr hb) h

/-- The units with a short escape, and the letter after the backslash. -/
def shortEscapes : List (UInt16 × UInt16) :=
  [(0x08, unit 'b'), (0x09, unit 't'), (0x0A, unit 'n'), (0x0C, unit 'f'), (0x0D, unit 'r'),
    (0x22, 0x22), (0x5C, 0x5C)]

def shortEscape (value : UInt16) : Option UInt16 :=
  (shortEscapes.find? fun escape => escape.1 = value).map Prod.snd

/-- How a unit is written, which depends on whether it is half of a surrogate pair. -/
def quoteUnit (paired : Bool) (value : UInt16) : JsString :=
  match shortEscape value with
  | some letter => [0x5C, letter]
  | none =>
      if value < 0x20 || ((isHighSurrogate value || isLowSurrogate value) && !paired) then
        [0x5C, unit 'u', unit (hexDigit (value.toNat / 4096)),
          unit (hexDigit (value.toNat / 256 % 16)), unit (hexDigit (value.toNat / 16 % 16)),
          unit (hexDigit (value.toNat % 16))]
      else [value]

/-- The rest of a quoted string, with its closing quote. -/
def quoteFrom (afterHigh : Bool) : JsString → JsString
  | [] => [0x22]
  | value :: rest =>
      let opens := isHighSurrogate value && rest.head?.any isLowSurrogate
      quoteUnit (opens || (isLowSurrogate value && afterHigh)) value ++ quoteFrom opens rest

/-- `JSON.stringify` of a string. -/
def quote (value : JsString) : JsString := 0x22 :: quoteFrom false value

theorem mem_shortEscapes {value letter : UInt16} (h : shortEscape value = some letter)
    : (value, letter) ∈ shortEscapes := by
  obtain ⟨escape, hfind, rfl⟩ := Option.map_eq_some_iff.mp h
  have hvalue : escape.1 = value := by simpa using List.find?_some hfind
  exact hvalue ▸ List.mem_of_find?_eq_some hfind

theorem shortEscape_inj {value other letter : UInt16} (h : shortEscape value = some letter)
    (hother : shortEscape other = some letter)
    : value = other := by
  have hall : (shortEscapes.all fun escape => shortEscapes.all fun image =>
      escape.2 ≠ image.2 || escape.1 = image.1) = true := by decide
  have hone := List.all_eq_true.mp hall _ (mem_shortEscapes h)
  simpa using List.all_eq_true.mp hone _ (mem_shortEscapes hother)

theorem shortEscape_ne_u {value letter : UInt16} (h : shortEscape value = some letter)
    : letter ≠ unit 'u' := by
  have hall : (shortEscapes.all fun escape => escape.2 ≠ unit 'u') = true := by decide
  simpa using List.all_eq_true.mp hall _ (mem_shortEscapes h)

/-- The three ways a unit is written. -/
theorem quoteUnit_cases (paired : Bool) (value : UInt16)
    : (∃ letter, shortEscape value = some letter ∧ quoteUnit paired value = [0x5C, letter])
      ∨ (∃ a b c d, a < 16 ∧ b < 16 ∧ c < 16 ∧ d < 16
        ∧ value.toNat = 4096 * a + 256 * b + 16 * c + d
        ∧ quoteUnit paired value = [0x5C, unit 'u', unit (hexDigit a), unit (hexDigit b),
          unit (hexDigit c), unit (hexDigit d)])
      ∨ (value ≠ 0x5C ∧ value ≠ 0x22 ∧ quoteUnit paired value = [value]) := by
  have hsize := value.toNat_lt
  cases hescape : shortEscape value with
  | some letter => exact .inl ⟨letter, rfl, by rw [quoteUnit, hescape]⟩
  | none =>
      by_cases hlong : value < 0x20
          || ((isHighSurrogate value || isLowSurrogate value) && !paired)
      · refine .inr (.inl ⟨value.toNat / 4096, value.toNat / 256 % 16, value.toNat / 16 % 16,
          value.toNat % 16, by omega, by omega, by omega, by omega, by omega, ?_⟩)
        simp only [quoteUnit, hescape, hlong, if_true]
      · refine .inr (.inr ⟨?_, ?_, ?_⟩)
        · rintro rfl
          exact absurd hescape (by decide)
        · rintro rfl
          exact absurd hescape (by decide)
        · simp only [quoteUnit, hescape, hlong, if_false, Bool.false_eq_true]

theorem quoteUnit_readsOff {paired other : Bool} {value image : UInt16} {rest others : JsString}
    (h : quoteUnit paired value ++ rest = quoteUnit other image ++ others)
    : value = image ∧ rest = others := by
  rcases quoteUnit_cases paired value with ⟨l, hl, hv⟩ | ⟨a, b, c, d, ha, hb, hc, hd, hsum, hv⟩ |
      ⟨hback, _, hv⟩ <;>
    rcases quoteUnit_cases other image with
      ⟨m, hm, hi⟩ | ⟨a', b', c', d', ha', hb', hc', hd', hsum', hi⟩ | ⟨hback', _, hi⟩ <;>
    simp only [hv, hi, List.cons_append, List.nil_append, List.cons.injEq, true_and] at h
  · obtain ⟨rfl, hrest⟩ := h
    exact ⟨shortEscape_inj hl hm, hrest⟩
  · exact absurd h.1 (shortEscape_ne_u hl)
  · exact absurd h.1.symm hback'
  · exact absurd h.1.symm (shortEscape_ne_u hm)
  · obtain ⟨h₁, h₂, h₃, h₄, hrest⟩ := h
    have hva := hexDigit_unit_inj ha ha' h₁
    have hvb := hexDigit_unit_inj hb hb' h₂
    have hvc := hexDigit_unit_inj hc hc' h₃
    have hvd := hexDigit_unit_inj hd hd' h₄
    exact ⟨UInt16.toNat_inj.mp (by omega), hrest⟩
  · exact absurd h.1.symm hback'
  · exact absurd h.1 hback
  · exact absurd h.1 hback
  · exact h

/-- No written unit starts like the closing quote. -/
theorem quoteUnit_ne_close {paired : Bool} {value : UInt16} {rest others : JsString}
    (h : quoteUnit paired value ++ rest = 0x22 :: others)
    : False := by
  rcases quoteUnit_cases paired value with ⟨l, _, hv⟩ | ⟨a, b, c, d, _, _, _, _, _, hv⟩ |
      ⟨_, hquote, hv⟩ <;>
    simp only [hv, List.cons_append, List.nil_append, List.cons.injEq] at h
  · exact absurd h.1 (by decide)
  · exact absurd h.1 (by decide)
  · exact hquote h.1

theorem quoteFrom_readsOff {afterHigh other : Bool} {value image rest others : JsString}
    (h : quoteFrom afterHigh value ++ rest = quoteFrom other image ++ others)
    : value = image ∧ rest = others := by
  induction value generalizing image afterHigh other with
  | nil =>
      cases image with
      | nil => exact ⟨rfl, by simpa [quoteFrom] using h⟩
      | cons first image =>
          rw [quoteFrom, quoteFrom, List.append_assoc] at h
          exact (quoteUnit_ne_close h.symm).elim
  | cons first value ih =>
      cases image with
      | nil =>
          rw [quoteFrom, quoteFrom, List.append_assoc] at h
          exact (quoteUnit_ne_close h).elim
      | cons second image =>
          rw [quoteFrom, quoteFrom, List.append_assoc, List.append_assoc] at h
          obtain ⟨rfl, htail⟩ := quoteUnit_readsOff h
          obtain ⟨rfl, hrest⟩ := ih htail
          exact ⟨rfl, hrest⟩

theorem quote_readsOff {value image rest others : JsString}
    (h : quote value ++ rest = quote image ++ others)
    : value = image ∧ rest = others :=
  quoteFrom_readsOff (List.cons.inj h).2

/-- The bytes that stand for themselves. -/
def isUriUnreserved (byte : UInt8) : Bool :=
  let c := Char.ofNat byte.toNat
  c.isAlphanum || c ∈ ['-', '_', '.', '!', '~', '*', Char.ofNat 0x27, '(', ')']

def uriByte (byte : UInt8) : JsString :=
  if isUriUnreserved byte then [UInt16.ofNat byte.toNat]
  else
    [unit '%', unit (hexDigit (byte.toNat / 16)).toUpper,
      unit (hexDigit (byte.toNat % 16)).toUpper]

/-- `encodeURIComponent`, which throws on a lone surrogate. -/
def encodeURIComponent (value : JsString) : Except JsString JsString :=
  if value.WellFormed then .ok (value.encode.flatMap uriByte)
  else .error (ofText "URI malformed")

theorem uriByte_readsOff (byte : UInt8) : ReadsOff uriByte (fun _ => True) (· = ·) byte := by
  intro other _ rest others h
  have hsize := byte.toNat_lt
  have hsize' := other.toNat_lt
  have hunit : ∀ value : UInt8, (UInt16.ofNat value.toNat).toNat = value.toNat := fun value =>
    UInt16.toNat_ofNat_of_lt' (by have := value.toNat_lt; simp only [UInt16.size]; omega)
  have hpercent {value : UInt8} (hvalue : isUriUnreserved value)
      (hsame : UInt16.ofNat value.toNat = unit '%')
      : False := by
    have hnat : value.toNat = 0x25 := by
      rw [← hunit value, hsame]
      rfl
    have hbyte : value = 0x25 := UInt8.toNat_inj.mp hnat
    subst hbyte
    exact absurd hvalue (by decide)
  rw [uriByte, uriByte] at h
  split at h <;> split at h <;>
    simp only [List.cons_append, List.nil_append, List.cons.injEq, true_and] at h
  · have hnat := (hunit byte).symm.trans ((congrArg UInt16.toNat h.1).trans (hunit other))
    exact ⟨UInt8.toNat_inj.mp hnat, h.2⟩
  · exact (hpercent (by assumption) h.1).elim
  · exact (hpercent (by assumption) h.1.symm).elim
  · have hhigh := hexDigit_toUpper_unit_inj (by omega) (by omega) h.1
    have hlow := hexDigit_toUpper_unit_inj (by omega) (by omega) h.2.1
    exact ⟨UInt8.toNat_inj.mp (by omega), h.2.2⟩

theorem encodeURIComponent_injective {value other text : JsString}
    (h : encodeURIComponent value = .ok text) (hother : encodeURIComponent other = .ok text)
    : value = other := by
  rw [encodeURIComponent] at h hother
  split at h
  · rename_i hvalue
    split at hother
    · rename_i himage
      have htexts := (Except.ok.inj h).trans (Except.ok.inj hother).symm
      have hbytes := flatMap_readsOff_all (fun byte _ => uriByte_readsOff byte)
        (fun _ _ => trivial) (fun byte => by rw [uriByte]; split <;> simp) htexts
      exact encode_injOn hvalue himage (List.forall₂_eq_eq_eq ▸ hbytes)
    · cases hother
  · cases h

/-- A colon is always escaped. -/
theorem colon_notMem_encodeURIComponent {value text : JsString}
    (h : encodeURIComponent value = .ok text)
    : unit ':' ∉ text := by
  rw [encodeURIComponent] at h
  split at h
  · cases h
    intro hmem
    obtain ⟨byte, -, hbyte⟩ := List.mem_flatMap.mp hmem
    have hall : ∀ n ∈ List.range 256, unit ':' ∉ uriByte (UInt8.ofNat n) := by decide +kernel
    have hbound := hall byte.toNat (List.mem_range.mpr byte.toNat_lt)
    rw [UInt8.ofNat_toNat] at hbound
    exact hbound hbyte
  · cases h

end JsString

end Distributed.Platform
