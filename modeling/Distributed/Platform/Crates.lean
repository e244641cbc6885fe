import Distributed.Platform.Json
import Distributed.Platform.Text

/-! Functions of other crates, and of the standard library's formatting, that the
repository calls. They are parameters of the model: nothing is assumed about them except
where a result names the fact it uses.
-/

namespace Distributed.Platform

/-- A SHA-256 digest, `[u8; 32]`. -/
structure Digest where
  bytes : Bytes
  length_eq : bytes.length = 32
deriving DecidableEq

def Digest.replicate (byte : UInt8) : Digest :=
  ⟨List.replicate 32 byte, List.length_replicate⟩

structure Crates where
  /-- `sha2::Sha256` over the concatenation of everything fed to it. -/
  sha256 : Bytes → Digest
  /-- `serde_json::to_string` of a `Value`, which cannot fail. -/
  jsonToString : Json → String
  /-- `serde_json::from_str`, with the text of its error. -/
  jsonFromStr : String → Except String Json
  /-- `base64::engine::general_purpose::URL_SAFE_NO_PAD`. -/
  base64Encode : Bytes → String
  base64Decode : String → Option Bytes
  /-- `base64::engine::general_purpose::STANDARD`. -/
  base64StandardEncode : Bytes → String
  /-- The `Debug` form of an `f64` given by its bits. -/
  f64Debug : UInt64 → String
  /-- The `Debug` form of a `str`, quoted and escaped. -/
  strDebug : String → String

/-- The text printed for a value reads back as that value. `serde_json` promises this up
to its nesting limit of 128 and up to the precision of floats. -/
def Crates.ReadsBack (crates : Crates) (value : Json) : Prop :=
  crates.jsonFromStr (crates.jsonToString value) = .ok value

/-- Functions of other crates for a run that calls none of them. -/
def uncalledCrates : Crates where
  sha256 _ := .replicate 0
  jsonToString _ := ""
  jsonFromStr _ := .error ""
  base64Encode _ := ""
  base64Decode _ := none
  base64StandardEncode _ := ""
  f64Debug _ := ""
  strDebug _ := ""

end Distributed.Platform
