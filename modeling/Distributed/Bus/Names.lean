import Distributed.Platform.Text

/-! Stable message ids of the transport vocabulary. -/

namespace Distributed.Bus

open Distributed.Platform

def maxStableMessageIdLen : Nat := 512

/-- `StableMessageIdError`, without the error for an absent id. -/
inductive StableMessageIdError where
  | empty
  | tooLong (len : Nat)
  | invalidCharacter
deriving DecidableEq

def StableMessageIdError.text : StableMessageIdError → String
  | .empty => "stable message id is empty"
  | .tooLong len =>
      s!"stable message id is {len} bytes, exceeding the maximum of {maxStableMessageIdLen}"
  | .invalidCharacter => "stable message id contains a control character"

/-- `validate_stable_message_id` on a present id. -/
def validateStableMessageId (id : String) : Except StableMessageIdError Unit :=
  if isBlank id then .error .empty
  else if maxStableMessageIdLen < id.utf8ByteSize then .error (.tooLong id.utf8ByteSize)
  else if id.toList.any isControl then .error .invalidCharacter
  else .ok ()

end Distributed.Bus
