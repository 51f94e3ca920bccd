import Coap.Header
import Coap.Net.SocketAddress
import Coap.Option.List
import Coap.Token

/-!
# Messages

A message is a header, a token, options and perhaps a payload. A payload
has at least one byte: the constructors take an empty one for none, so
that no message ends in a payload marker. A message that was received also
knows where it came from.

## Main results

* `type_new`, `id_new` — a new message has the type and id it was made with.
* `payload_new` — an empty payload is none.
-/

namespace Coap

/-- A message. -/
structure Message where
  header : Header
  token : Token
  options : Options
  /-- The payload, if there is one. -/
  payload : Option Bytes
  /-- The sender's address, for a message that was received. -/
  sender : Option SocketAddress
  deriving DecidableEq

namespace Message

/-! ## Making messages -/

/-- A message of version 1. -/
def new (type : MessageType) (code : Code) (id : UInt16) (token : Token)
    (options : Options) (payload : Option Bytes) : Message where
  header :=
    Header.ofFields Header.version1 type (UInt8.ofNat token.bytes.length) code id
  token := token
  options := options
  payload := payload.filter fun p => !p.isEmpty
  sender := none

/-- A message to be acknowledged. -/
def confirmable (code : Code) (id : UInt16) (token : Token) (options : Options)
    (payload : Option Bytes) : Message :=
  new .confirmable code id token options payload

/-- A message that is sent once. -/
def nonConfirmable (code : Code) (id : UInt16) (token : Token)
    (options : Options) (payload : Option Bytes) : Message :=
  new .nonConfirmable code id token options payload

/-- An acknowledgement without a response. -/
def ack (token : Token) (id : UInt16) : Message :=
  new .acknowledgement Code.empty id token Options.empty none

/-- The rejection of a message. -/
def reset (id : UInt16) : Message :=
  new .reset Code.empty id Token.empty Options.empty none

/-! ## Parts of a message -/

/-- The type of a message. -/
def type (m : Message) : MessageType := m.header.type

/-- The id of a message. -/
def id (m : Message) : UInt16 := m.header.id

/-- Whether a message is to be acknowledged. -/
def isConfirmable (m : Message) : Bool := m.type == .confirmable

/-- Whether a message is sent once. -/
def isNonConfirmable (m : Message) : Bool := m.type == .nonConfirmable

/-- Whether a message acknowledges another. -/
def isAck (m : Message) : Bool := m.type == .acknowledgement

/-- Whether a message rejects another. -/
def isReset (m : Message) : Bool := m.type == .reset

/-- An acknowledgement that carries the response to a request, with the
request's id and token. -/
def piggyback (request : Message) (code : Code) (options : Options)
    (payload : Option Bytes) : Message :=
  new .acknowledgement code request.id request.token options payload

/-- The message, received from the given address. -/
def withSender (m : Message) (sender : SocketAddress) : Message :=
  { m with sender := some sender }

@[simp] theorem type_new (type : MessageType) (code : Code) (id : UInt16)
    (token : Token) (options : Options) (payload : Option Bytes) :
    (new type code id token options payload).type = type :=
  Header.type_ofFields _ _ _ _ _

@[simp] theorem id_new (type : MessageType) (code : Code) (id : UInt16)
    (token : Token) (options : Options) (payload : Option Bytes) :
    (new type code id token options payload).id = id :=
  Header.id_ofFields _ _ _ _ _

theorem payload_new (type : MessageType) (code : Code) (id : UInt16)
    (token : Token) (options : Options) (p : Bytes) :
    (new type code id token options (some p)).payload =
      if p = [] then none else some p := by
  cases p <;> simp [new, Option.filter]

end Message

end Coap
