import Distributed.Bus.Names
import Distributed.Foundation.Runs
import Distributed.ProjectionProtocol.Identity

/-! Transport errors, the failure policy and the receive loop over a message source.
The loop is cut where it waits: a call into the source, the source's next poll, and the
handling of one received message are separate steps, so that other parties can act
between them.
-/

namespace Distributed.Bus

open Distributed.Foundation Distributed.Platform Distributed.ProjectionProtocol

inductive MessageKind where
  | command
  | event
deriving DecidableEq

structure Message where
  id : Option String
  name : String
  kind : MessageKind
  payload : Bytes
  contentType : String
  metadata : List (String × String)
deriving DecidableEq

def Message.new (name : String) (kind : MessageKind) (payload : Bytes) : Message where
  id := none
  name
  kind
  payload
  contentType := "application/json"
  metadata := []

inductive TransportErrorKind where
  | retryable
  | permanent
deriving DecidableEq

/-- `TransportError` without its diagnostic source. -/
structure TransportError where
  kind : TransportErrorKind
  message : String
  retainAndStop : Bool
deriving DecidableEq

def TransportError.permanent (message : String) : TransportError :=
  ⟨.permanent, message, false⟩

def TransportError.isRetryable (error : TransportError) : Bool :=
  error.kind = .retryable

/-- The `Display` text of a transport error. -/
def TransportError.text (error : TransportError) : String :=
  match error.kind with
  | .retryable => s!"transport error (retryable): {error.message}"
  | .permanent => s!"transport error (permanent): {error.message}"

/-- `OrderedDelivery`, with the fact its constructor checked. -/
structure OrderedDelivery where
  source : ProjectionSource
  epoch : ProjectionEpoch
  position : Nat
  gapFree : Bool
  position_valid : position ≤ maxProjectionPosition

def OrderedDelivery.new (source : ProjectionSource) (epoch : ProjectionEpoch)
    (position : Nat) (gapFree : Bool)
    : Except ValidationError
        { delivery : OrderedDelivery // delivery.position = position } :=
  if hlarge : maxProjectionPosition < position then
    .error (.tooLarge "ordered delivery position" position maxProjectionPosition)
  else .ok ⟨⟨source, epoch, position, gapFree, Nat.le_of_not_lt hlarge⟩, rfl⟩

inductive FailureAction where
  | nack
  | deadLetter
  | park
  | logAndAck
  | stop
deriving DecidableEq

inductive FailurePolicy where
  | retry
  | deadLetter
  | park
  | logAndAck
  | stop
deriving DecidableEq

def FailurePolicy.resolve (policy : FailurePolicy) (error : TransportError)
    : FailureAction :=
  if error.isRetryable then .nack
  else
    match policy with
    | .retry => .nack
    | .deadLetter => .deadLetter
    | .park => .park
    | .logAndAck => .logAndAck
    | .stop => .stop

/-- `RunOptions`; an inbox is known here only by its presence. -/
structure RunOptions where
  requiresStableId : Bool
  failurePolicy : FailurePolicy

/-- `validate_message_id`, with the text of the error it returns. -/
def RunOptions.validateMessageId (options : RunOptions) (message : Message)
    : Except String Unit :=
  if options.requiresStableId then
    match message.id with
    | none => .error "stable message id is required but missing"
    | some id => (validateStableMessageId id).mapError StableMessageIdError.text
  else .ok ()

/-- How a received message leaves the hands of the runner. -/
inductive Settlement where
  | ack
  | nack (reason : String)
  | deadLetter (reason : String)
  | park (reason : String)
deriving DecidableEq

/-- Every settlement but a `nack` moves past the message. -/
def Settlement.forward : Settlement → Bool
  | .nack _ => false
  | _ => true

/-- What one pass through a source's receive loop ends with. A `waiting` source sleeps
before its next pass. -/
inductive RecvAnswer (Delivery : Type) where
  | delivered (delivery : Delivery)
  | drained
  | waiting
  | failed (error : TransportError)

/-- `MessageSource` with the `ReceivedMessage` it hands out. A `Call` is what the outside
answers to the calls one operation makes. -/
structure MessageSource (Source Delivery Call : Type) where
  recv : Call → Source → RecvAnswer Delivery × Source
  poll : Call → Source → RecvAnswer Delivery × Source
  message : Delivery → Message
  decodeError : Delivery → Option TransportError
  settle : Call → Settlement → Delivery → Source → Except TransportError Unit × Source

/-- `MessageRouter::handles`; what a dispatch answers is an input of each step. -/
structure MessageRouter where
  handles : MessageKind → String → Bool

/-- What the runner does with a message: the settlement it asks for, if any, and the error
it returns after that, if it ends the run. -/
structure Decision where
  settlement : Option Settlement
  stop : Option TransportError

/-- The arms shared by a failed dispatch and an undecodable delivery; they differ in the
error a `Stop` returns. -/
def Decision.ofAction (reason : String) (stopped : TransportError)
    : FailureAction → Decision
  | .nack => ⟨some (.nack reason), none⟩
  | .deadLetter => ⟨some (.deadLetter reason), none⟩
  | .park => ⟨some (.park reason), none⟩
  | .logAndAck => ⟨some .ack, none⟩
  | .stop => ⟨none, some stopped⟩

/-- `dispatch`: the stable id contract, then the answer of the router. -/
def dispatch (options : RunOptions) (message : Message)
    (answer : Except TransportError Unit) : Except TransportError Unit := do
  (options.validateMessageId message).mapError .permanent
  answer

/-- The body of the loop in `run_source` after a message was received. -/
def decideMessage (options : RunOptions) (router : MessageRouter) (message : Message)
    (decodeError : Option TransportError) (answer : Except TransportError Unit)
    : Decision :=
  match decodeError with
  | some error =>
      .ofAction error.text (.permanent error.text) (options.failurePolicy.resolve error)
  | none =>
      if router.handles message.kind message.name = false then ⟨some .ack, none⟩
      else
        match dispatch options message answer with
        | .ok () => ⟨some .ack, none⟩
        | .error error =>
            if error.retainAndStop then ⟨some (.nack error.text), some error⟩
            else .ofAction error.text error (options.failurePolicy.resolve error)

/-- Where the loop stands between two steps. -/
inductive RunPhase (Delivery : Type) where
  | receiving
  | waiting
  | handling (delivery : Delivery)
  | ended (result : Except TransportError Unit)

structure Runner (Source Delivery : Type) where
  source : Source
  phase : RunPhase Delivery

/-- The steps of a run: the next call of `recv`, the next pass of a waiting `recv`, and
the handling of the message received. -/
inductive RunStep (Call : Type) where
  | recv (call : Call)
  | poll (call : Call)
  | handle (answer : Except TransportError Unit) (call : Call)

/-- What a step shows: a message handed to the runner, or one it is done with. -/
inductive RunEffect (Delivery : Type) where
  | none
  | delivered (delivery : Delivery)
  | settled (delivery : Delivery) (settlement : Option Settlement)

section Loop

variable {Source Delivery Call : Type}

/-- How the runner takes up the answer of the source. -/
def Runner.afterReceive
    : RecvAnswer Delivery × Source → RunEffect Delivery × Runner Source Delivery
  | (.delivered delivery, source) => (.delivered delivery, ⟨source, .handling delivery⟩)
  | (.drained, source) => (.none, ⟨source, .ended (.ok ())⟩)
  | (.waiting, source) => (.none, ⟨source, .waiting⟩)
  | (.failed error, source) => (.none, ⟨source, .ended (.error error)⟩)

/-- How the runner goes on after a settlement: an error of the settlement comes before
the error the decision returns. -/
def Runner.afterSettle (stop : Option TransportError)
    : Except TransportError Unit × Source → Runner Source Delivery
  | (.error error, source) => ⟨source, .ended (.error error)⟩
  | (.ok (), source) =>
      match stop with
      | some error => ⟨source, .ended (.error error)⟩
      | none => ⟨source, .receiving⟩

/-- Carries a decision out. Without a settlement the message is left as it is. -/
def Runner.settle (impl : MessageSource Source Delivery Call) (call : Call)
    (delivery : Delivery) (decision : Decision) (source : Source)
    : Runner Source Delivery :=
  match decision.settlement with
  | none => .afterSettle decision.stop (.ok (), source)
  | some settlement =>
      .afterSettle decision.stop (impl.settle call settlement delivery source)

/-- `run_source`, one step at a time. A step that does not fit the phase changes nothing:
the loop is not at that point. -/
def runSource (impl : MessageSource Source Delivery Call) (options : RunOptions)
    (router : MessageRouter)
    : RunStep Call → Runner Source Delivery → RunEffect Delivery × Runner Source Delivery
  | .recv call, ⟨source, .receiving⟩ => Runner.afterReceive (impl.recv call source)
  | .poll call, ⟨source, .waiting⟩ => Runner.afterReceive (impl.poll call source)
  | .handle answer call, ⟨source, .handling delivery⟩ =>
      let decision := decideMessage options router (impl.message delivery)
        (impl.decodeError delivery) answer
      (.settled delivery decision.settlement, .settle impl call delivery decision source)
  | _, runner => (.none, runner)

end Loop

end Distributed.Bus
