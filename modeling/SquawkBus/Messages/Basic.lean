import SquawkBus.Basic
import Mathlib.Data.Finset.Basic

/-!
# The messages of the protocol

One structure for each of the nine message classes and one sum over them, with the type byte each
class puts in front of its body.
-/

namespace SquawkBus.Messages

/-! ## The classes -/

/-- An entitlement, a content type and the data itself. -/
structure DataPacket where
  entitlement : Int32
  contentType : Bytes
  data : Bytes
  deriving DecidableEq

structure AuthenticationRequest where
  method : Bytes
  data : Bytes
  deriving DecidableEq

structure AuthenticationResponse where
  isAuthenticated : Bool
  deriving DecidableEq

structure MulticastData where
  topic : Bytes
  dataPackets : List DataPacket
  deriving DecidableEq

structure UnicastData where
  clientId : Bytes
  topic : Bytes
  dataPackets : List DataPacket
  deriving DecidableEq

structure ForwardedSubscriptionRequest where
  user : Bytes
  host : Bytes
  clientId : Bytes
  topic : Bytes
  isAdd : Bool
  deriving DecidableEq

structure NotificationRequest where
  topicPattern : Bytes
  isAdd : Bool
  deriving DecidableEq

structure SubscriptionRequest where
  topic : Bytes
  isAdd : Bool
  deriving DecidableEq

structure ForwardedMulticastData where
  user : Bytes
  host : Bytes
  topic : Bytes
  dataPackets : List DataPacket
  deriving DecidableEq

structure ForwardedUnicastData where
  user : Bytes
  host : Bytes
  clientId : Bytes
  topic : Bytes
  dataPackets : List DataPacket
  deriving DecidableEq

/-! ## Messages and their types -/

/-- A message of any class. -/
inductive Message where
  | authenticationRequest (m : AuthenticationRequest)
  | authenticationResponse (m : AuthenticationResponse)
  | multicastData (m : MulticastData)
  | unicastData (m : UnicastData)
  | forwardedSubscriptionRequest (m : ForwardedSubscriptionRequest)
  | notificationRequest (m : NotificationRequest)
  | subscriptionRequest (m : SubscriptionRequest)
  | forwardedMulticastData (m : ForwardedMulticastData)
  | forwardedUnicastData (m : ForwardedUnicastData)
  deriving DecidableEq

/-- The enumerators of `MessageType`. -/
inductive MessageType where
  | authenticationRequest
  | authenticationResponse
  | multicastData
  | unicastData
  | forwardedSubscriptionRequest
  | notificationRequest
  | subscriptionRequest
  | forwardedMulticastData
  | forwardedUnicastData
  deriving DecidableEq, Repr

namespace MessageType

/-- The `char` behind an enumerator. -/
def toChar : MessageType → UInt8
  | authenticationRequest => 1
  | authenticationResponse => 2
  | multicastData => 3
  | unicastData => 4
  | forwardedSubscriptionRequest => 5
  | notificationRequest => 6
  | subscriptionRequest => 7
  | forwardedMulticastData => 8
  | forwardedUnicastData => 9

/-- The enumerator a `char` names. The C++ enumeration can hold any other `char` as well, which is
what the `default` of `Message::make_shared` is for. -/
def ofChar (c : UInt8) : Option MessageType :=
  [authenticationRequest, authenticationResponse, multicastData, unicastData,
    forwardedSubscriptionRequest, notificationRequest, subscriptionRequest,
    forwardedMulticastData, forwardedUnicastData].find? fun t => t.toChar = c

@[simp] theorem ofChar_toChar (t : MessageType) : ofChar t.toChar = some t := by
  cases t <;> rfl

end MessageType

/-- The `message_type` member. -/
def Message.messageType : Message → MessageType
  | .authenticationRequest _ => .authenticationRequest
  | .authenticationResponse _ => .authenticationResponse
  | .multicastData _ => .multicastData
  | .unicastData _ => .unicastData
  | .forwardedSubscriptionRequest _ => .forwardedSubscriptionRequest
  | .notificationRequest _ => .notificationRequest
  | .subscriptionRequest _ => .subscriptionRequest
  | .forwardedMulticastData _ => .forwardedMulticastData
  | .forwardedUnicastData _ => .forwardedUnicastData

/-- Whether a set of granted entitlements lets a packet through. -/
def DataPacket.isAuthorized (p : DataPacket) (grantedEntitlements : Finset Int32) : Bool :=
  decide (p.entitlement ∈ grantedEntitlements)

end SquawkBus.Messages
