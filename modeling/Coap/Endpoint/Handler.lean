import Coap.Endpoint.Scan
import Coap.Endpoint.Send

/-!
# Message handlers

A handler is given the messages that a receive loop takes in. The handlers
here answer confirmable messages, each in one way, and leave all others
alone. A reply that cannot be sent is reported and otherwise forgotten.

## Main results

* `answer_eq_none` — a message that is not confirmable gets no answer.
-/

namespace Coap

/-- How messages are handled. -/
inductive Handler where
  /-- They are not answered. -/
  | record
  /-- They are acknowledged. -/
  | ack
  /-- They are rejected. -/
  | reset
  /-- They are answered with the path they name. -/
  | echo
  deriving DecidableEq, Repr

namespace Handler

/-- The path that a request names: its segments, as far as they are text,
with slashes in between. -/
def path (request : Message) : String :=
  "/".intercalate
    ((request.options.findAll OptionNumber.uriPath).filterMap (·.toText?))

/-- The answer to a confirmable message. -/
def reply : Handler → Message → Option Message
  | record, _ => none
  | ack, m => some (.ack m.token m.id)
  | reset, m => some (.reset m.id)
  | echo, m =>
      some (m.piggyback Code.content Options.empty (some (Bytes.ofText (path m))))

/-- The answer to a message. -/
def answer (h : Handler) (m : Message) : Option Message :=
  if m.isConfirmable then h.reply m else none

theorem answer_eq_none {h : Handler} {m : Message} (hm : m.isConfirmable = false) :
    h.answer m = none := by
  simp [answer, hm]

/-- Handle a message. -/
def handle (h : Handler) (m : Message) : Call Unit :=
  match h.answer m, m.sender with
  | some answer, some sender => do
      match ← Call.send sender answer none with
      | .ok () => return ()
      | .error cause => Call.report (.replyFailed cause)
  | _, _ => return ()

end Handler

end Coap
