import Distributed.Platform.Base64
import Distributed.Platform.Crates

/-! The compact text that `serde_json` prints for a value, for runs on known values.
-/

namespace Distributed.Platform

/-- A character of a string as the crate escapes it. -/
def escapeChar (char : Char) : List Char :=
  match char with
  | '"' => ['\\', '"']
  | '\\' => ['\\', '\\']
  | '\n' => ['\\', 'n']
  | '\r' => ['\\', 'r']
  | '\t' => ['\\', 't']
  | '\x08' => ['\\', 'b']
  | '\x0c' => ['\\', 'f']
  | other =>
      if other.toNat < 32 then
        ['\\', 'u', '0', '0', hexDigit (other.toNat / 16), hexDigit (other.toNat % 16)]
      else [other]

def quoteChars (text : String) : List Char := '"' :: text.toList.flatMap escapeChar ++ ['"']

mutual

/-- `serde_json::to_string`, the texts of floats being given. -/
def Json.chars (floatText : UInt64 → String) : Json → List Char
  | .null => ['n', 'u', 'l', 'l']
  | .bool true => ['t', 'r', 'u', 'e']
  | .bool false => ['f', 'a', 'l', 's', 'e']
  | .number (.posInt value) => (toString value).toList
  | .number (.negInt value) => (toString value).toList
  | .number (.float bits) => (floatText bits).toList
  | .string text => quoteChars text
  | .array items => '[' :: Json.itemChars floatText items ++ [']']
  | .object fields => '{' :: Json.fieldChars floatText fields ++ ['}']

def Json.itemChars (floatText : UInt64 → String) : List Json → List Char
  | [] => []
  | [item] => item.chars floatText
  | item :: rest => item.chars floatText ++ ',' :: Json.itemChars floatText rest

def Json.fieldChars (floatText : UInt64 → String) : List (String × Json) → List Char
  | [] => []
  | [(name, value)] => quoteChars name ++ ':' :: value.chars floatText
  | (name, value) :: rest =>
      quoteChars name ++ ':' :: value.chars floatText
        ++ ',' :: Json.fieldChars floatText rest

end

/-- The crate on the values of a run without floats: it prints every value, and reads the
texts of the known ones. -/
def serdeCrates (known : List Json) (refusal : String) : Crates :=
  let print (value : Json) : String := String.ofList (value.chars fun _ => "")
  { uncalledCrates with
    jsonToString := print
    jsonFromStr := fun text =>
      match known.find? fun value => print value = text with
      | some value => .ok value
      | none => .error refusal
    base64Encode := fun bytes => String.ofList (Base64.encode bytes)
    base64Decode := fun text => Base64.decode text.toList }

theorem serdeCrates_reads_first (value : Json) (known : List Json) (refusal : String)
    : (serdeCrates (value :: known) refusal).ReadsBack value := by
  simp [Crates.ReadsBack, serdeCrates]

theorem serdeCrates_reads_second {first value : Json} (known : List Json) (refusal : String)
    (h : first.chars (fun _ => "") ≠ value.chars fun _ => "")
    : (serdeCrates (first :: value :: known) refusal).ReadsBack value := by
  have hne : String.ofList (first.chars fun _ => "") ≠ String.ofList (value.chars fun _ => "") :=
    fun heq => h (String.ofList_injective heq)
  simp [Crates.ReadsBack, serdeCrates, List.find?_cons, hne]

theorem serdeCrates_base64 (known : List Json) (refusal : String) (bytes : Bytes)
    : (serdeCrates known refusal).base64Decode ((serdeCrates known refusal).base64Encode bytes)
      = some bytes := by
  simp [serdeCrates, Base64.decode_encode]

theorem serdeCrates_base64_injective (known : List Json) (refusal : String)
    : Function.Injective (serdeCrates known refusal).base64Encode := fun _ _ h =>
  Base64.encode_injective (String.ofList_injective h)

end Distributed.Platform
