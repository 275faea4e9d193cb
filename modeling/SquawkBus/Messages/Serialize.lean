import SquawkBus.Messages.Basic
import SquawkBus.Serialization.FrameBufferIo

/-!
# Serialization of the messages

`serialize_body` and `deserialize_body` of each class, field by field as the class lists them, and
the dispatch on the type byte.
-/

namespace SquawkBus.Messages

open SquawkBus.Serialization SquawkBus.Serialization.FrameStream

/-! ## Packets -/

namespace DataPacket

def serialize (p : DataPacket) : FrameStream Unit := do
  putInt32 p.entitlement
  putString p.contentType
  putVector putChar p.data

def deserialize : FrameStream DataPacket := do
  let entitlement ← getInt32
  let contentType ← getString
  let data ← getVector getChar
  return { entitlement, contentType, data }

end DataPacket

/-! ## The classes -/

namespace AuthenticationRequest

def serializeBody (m : AuthenticationRequest) : FrameStream Unit := do
  putString m.method
  putString m.data

def deserializeBody : FrameStream AuthenticationRequest := do
  let method ← getString
  let data ← getString
  return { method, data }

end AuthenticationRequest

namespace AuthenticationResponse

def serializeBody (m : AuthenticationResponse) : FrameStream Unit :=
  putBool m.isAuthenticated

def deserializeBody : FrameStream AuthenticationResponse := do
  let isAuthenticated ← getBool
  return { isAuthenticated }

end AuthenticationResponse

namespace MulticastData

def serializeBody (m : MulticastData) : FrameStream Unit := do
  putString m.topic
  putVector DataPacket.serialize m.dataPackets

def deserializeBody : FrameStream MulticastData := do
  let topic ← getString
  let dataPackets ← getVector DataPacket.deserialize
  return { topic, dataPackets }

end MulticastData

namespace UnicastData

def serializeBody (m : UnicastData) : FrameStream Unit := do
  putString m.clientId
  putString m.topic
  putVector DataPacket.serialize m.dataPackets

def deserializeBody : FrameStream UnicastData := do
  let clientId ← getString
  let topic ← getString
  let dataPackets ← getVector DataPacket.deserialize
  return { clientId, topic, dataPackets }

end UnicastData

namespace ForwardedSubscriptionRequest

def serializeBody (m : ForwardedSubscriptionRequest) : FrameStream Unit := do
  putString m.user
  putString m.host
  putString m.clientId
  putString m.topic
  putBool m.isAdd

def deserializeBody : FrameStream ForwardedSubscriptionRequest := do
  let user ← getString
  let host ← getString
  let clientId ← getString
  let topic ← getString
  let isAdd ← getBool
  return { user, host, clientId, topic, isAdd }

end ForwardedSubscriptionRequest

namespace NotificationRequest

def serializeBody (m : NotificationRequest) : FrameStream Unit := do
  putString m.topicPattern
  putBool m.isAdd

def deserializeBody : FrameStream NotificationRequest := do
  let topicPattern ← getString
  let isAdd ← getBool
  return { topicPattern, isAdd }

end NotificationRequest

namespace SubscriptionRequest

def serializeBody (m : SubscriptionRequest) : FrameStream Unit := do
  putString m.topic
  putBool m.isAdd

def deserializeBody : FrameStream SubscriptionRequest := do
  let topic ← getString
  let isAdd ← getBool
  return { topic, isAdd }

end SubscriptionRequest

namespace ForwardedMulticastData

def serializeBody (m : ForwardedMulticastData) : FrameStream Unit := do
  putString m.user
  putString m.host
  putString m.topic
  putVector DataPacket.serialize m.dataPackets

def deserializeBody : FrameStream ForwardedMulticastData := do
  let user ← getString
  let host ← getString
  let topic ← getString
  let dataPackets ← getVector DataPacket.deserialize
  return { user, host, topic, dataPackets }

end ForwardedMulticastData

namespace ForwardedUnicastData

def serializeBody (m : ForwardedUnicastData) : FrameStream Unit := do
  putString m.user
  putString m.host
  putString m.clientId
  putString m.topic
  putVector DataPacket.serialize m.dataPackets

def deserializeBody : FrameStream ForwardedUnicastData := do
  let user ← getString
  let host ← getString
  let clientId ← getString
  let topic ← getString
  let dataPackets ← getVector DataPacket.deserialize
  return { user, host, clientId, topic, dataPackets }

end ForwardedUnicastData

/-! ## Messages -/

namespace Message

/-- The virtual `serialize_body`. -/
def serializeBody : Message → FrameStream Unit
  | .authenticationRequest m => m.serializeBody
  | .authenticationResponse m => m.serializeBody
  | .multicastData m => m.serializeBody
  | .unicastData m => m.serializeBody
  | .forwardedSubscriptionRequest m => m.serializeBody
  | .notificationRequest m => m.serializeBody
  | .subscriptionRequest m => m.serializeBody
  | .forwardedMulticastData m => m.serializeBody
  | .forwardedUnicastData m => m.serializeBody

def serialize (m : Message) : Except Fault FrameBuffer := do
  let (_, frame) ← (do
    putChar m.messageType.toChar
    m.serializeBody : FrameStream Unit) FrameBuffer.empty
  return frame

/-- The class that `Message::make_shared` instantiates for a type byte. -/
def makeShared (messageType : UInt8) : FrameStream MessageType :=
  match MessageType.ofChar messageType with
  | some t => return t
  | none => throw (.thrown (.charLiteral "invalid"))

/-- The virtual `deserialize_body`, by the class of the message made. -/
def deserializeBody : MessageType → FrameStream Message
  | .authenticationRequest => .authenticationRequest <$> AuthenticationRequest.deserializeBody
  | .authenticationResponse => .authenticationResponse <$> AuthenticationResponse.deserializeBody
  | .multicastData => .multicastData <$> MulticastData.deserializeBody
  | .unicastData => .unicastData <$> UnicastData.deserializeBody
  | .forwardedSubscriptionRequest =>
      .forwardedSubscriptionRequest <$> ForwardedSubscriptionRequest.deserializeBody
  | .notificationRequest => .notificationRequest <$> NotificationRequest.deserializeBody
  | .subscriptionRequest => .subscriptionRequest <$> SubscriptionRequest.deserializeBody
  | .forwardedMulticastData => .forwardedMulticastData <$> ForwardedMulticastData.deserializeBody
  | .forwardedUnicastData => .forwardedUnicastData <$> ForwardedUnicastData.deserializeBody

def deserialize : FrameStream Message := do
  let messageType ← getChar
  let t ← makeShared messageType
  deserializeBody t

/-- The message a frame holds; `none` where `deserialize` does not return. -/
def ofFrame (frame : Bytes) : Option Message :=
  match deserialize (FrameBuffer.empty.write frame) with
  | .ok (message, _) => some message
  | .error _ => none

end Message

end SquawkBus.Messages
