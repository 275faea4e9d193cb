import SquawkBus.Messages.Basic

/-!
# Messages as text

The `str` of each class, which the client prints.
-/

namespace SquawkBus.Messages

/-! ## Parts -/

/-- `stream_out_collection` with brackets and commas. -/
def streamOutCollection (items : List Bytes) : Bytes :=
  ascii "[" ++ (ascii ",").intercalate items ++ ascii "]"

/-- `to_string` of a message type. -/
def MessageType.toText : MessageType → Bytes
  | authenticationRequest => ascii "AuthenticationRequest"
  | authenticationResponse => ascii "AuthenticationResponse"
  | multicastData => ascii "MulticastData"
  | unicastData => ascii "UnicastData"
  | forwardedSubscriptionRequest => ascii "ForwardedSubscriptionRequest"
  | notificationRequest => ascii "NotificationRequest"
  | subscriptionRequest => ascii "SubscriptionRequest"
  | forwardedMulticastData => ascii "ForwardedMulticastData"
  | forwardedUnicastData => ascii "ForwardedUnicastData"

/-- A data packet on an output stream. -/
def DataPacket.toText (packet : DataPacket) : Bytes :=
  ascii "DataPacket(entitlement=" ++ ascii (toString packet.entitlement.toInt) ++
    ascii ",content_type=" ++ packet.contentType ++
    ascii ",data=" ++ streamOutCollection (packet.data.map fun c => [c]) ++ ascii ")"

/-- The fields of a message behind the name of its class, the message type first. -/
def fieldsText (messageType : MessageType) (fields : List (String × Bytes)) : Bytes :=
  messageType.toText ++ ascii "(message_type=" ++ messageType.toText ++
    (fields.flatMap fun field => ascii "," ++ ascii field.1 ++ ascii "=" ++ field.2) ++ ascii ")"

/-- A string field in quotes. -/
def quotedText (s : Bytes) : Bytes := ascii "\"" ++ s ++ ascii "\""

def packetsText (packets : List DataPacket) : Bytes :=
  streamOutCollection (packets.map DataPacket.toText)

/-! ## Messages -/

/-- `str`. -/
def Message.str (message : Message) : Bytes :=
  fieldsText message.messageType <|
    match message with
    | .authenticationRequest m => [("method", quotedText m.method), ("data", m.data)]
    | .authenticationResponse m =>
        [("is_authenticated", if m.isAuthenticated then ascii "true" else ascii "false")]
    | .multicastData m =>
        [("topic", quotedText m.topic), ("data_packets", packetsText m.dataPackets)]
    | .unicastData m =>
        [("client_id", quotedText m.clientId), ("topic", quotedText m.topic),
          ("data_packets", packetsText m.dataPackets)]
    | .forwardedSubscriptionRequest m =>
        [("user", quotedText m.user), ("host", quotedText m.host),
          ("client_id", quotedText m.clientId), ("topic", quotedText m.topic),
          ("is_add", if m.isAdd then ascii "<true>" else ascii "<false>")]
    | .notificationRequest m =>
        [("topic_pattern", quotedText m.topicPattern),
          ("is_add", if m.isAdd then ascii "<true>" else ascii "<false>")]
    | .subscriptionRequest m =>
        -- The closing bracket is missing in the source.
        [("topic", quotedText m.topic), ("is_add", if m.isAdd then ascii "<true>" else ascii "<false")]
    | .forwardedMulticastData m =>
        [("user", quotedText m.user), ("host", quotedText m.host), ("topic", quotedText m.topic),
          ("data_packets", packetsText m.dataPackets)]
    | .forwardedUnicastData m =>
        [("user", quotedText m.user), ("host", quotedText m.host),
          ("client_id", quotedText m.clientId), ("topic", quotedText m.topic),
          ("data_packets", packetsText m.dataPackets)]

end SquawkBus.Messages
