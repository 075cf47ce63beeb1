import TradeDesk.Fault
import TradeDesk.Text.Numeral
/-!
# Orders and their lifecycle

An order moves through its states by events from the broker and from its owner. `Order.step`
is the transition rule: it answers the order after the event, or nothing when the event is not
legal in the order's state. `Order.apply` adds idempotent replay: an event that comes with an id
already applied is accepted and changes nothing, and an id is remembered only when its event
was legal.

A fill adds its quantity, capped at the order's total; a fill after the order is filled is
accepted and changes nothing. A fill that arrives while a cancel or replace request is pending
keeps the request pending, and the state the order returns to when the request is rejected
becomes partially filled.
-/

namespace TradeDesk

/-- The lifecycle states of an order. -/
inductive OrderState where
  /-- Accepted and waiting for fills. -/
  | working
  | partiallyFilled
  | cancelPending
  | replacePending
  | filled
  | cancelled
  | rejected
  deriving Repr, DecidableEq, Inhabited

namespace OrderState

/-- The name of a state, as reports show it. -/
def text : OrderState → String
  | .working => "OPEN"
  | .partiallyFilled => "PARTIALLY_FILLED"
  | .cancelPending => "CANCEL_PENDING"
  | .replacePending => "REPLACE_PENDING"
  | .filled => "FILLED"
  | .cancelled => "CANCELLED"
  | .rejected => "REJECTED"

/-- No transition leaves a terminal state. -/
def terminal : OrderState → Bool
  | .filled | .cancelled | .rejected => true
  | _ => false

/-- A live order may be filled, cancelled or replaced. -/
def live : OrderState → Bool
  | .working | .partiallyFilled => true
  | _ => false

/-- A pending order waits for the answer to a cancel or replace request. -/
def pending : OrderState → Bool
  | .cancelPending | .replacePending => true
  | _ => false

end OrderState

/-- The kinds of lifecycle events. A text that names no kind is kept, and no state accepts it. -/
inductive EventKind where
  | ack
  | partialFill
  | fill
  | cancelRequest
  | cancelAck
  | cancelReject
  | replaceRequest
  | replaceAck
  | replaceReject
  | reject
  | other (text : String)
  deriving Repr, DecidableEq, Inhabited

namespace EventKind

/-- The names of the known kinds. -/
def known : List EventKind :=
  [.ack, .partialFill, .fill, .cancelRequest, .cancelAck, .cancelReject, .replaceRequest,
   .replaceAck, .replaceReject, .reject]

/-- The name of a kind. -/
def text : EventKind → String
  | .ack => "ACK"
  | .partialFill => "PARTIAL_FILL"
  | .fill => "FILL"
  | .cancelRequest => "CANCEL_REQUEST"
  | .cancelAck => "CANCEL_ACK"
  | .cancelReject => "CANCEL_REJECT"
  | .replaceRequest => "REPLACE_REQUEST"
  | .replaceAck => "REPLACE_ACK"
  | .replaceReject => "REPLACE_REJECT"
  | .reject => "REJECT"
  | .other t => t

/-- The kind a text names exactly (names are case sensitive). -/
def ofText (t : String) : EventKind :=
  (known.find? fun k => k.text = t).getD (.other t)

/-- Whether the kind adds a filled quantity. -/
def isFill : EventKind → Bool
  | .partialFill | .fill => true
  | _ => false

end EventKind

/-- A lifecycle event. The quantity matters only for fills. -/
structure Event where
  kind : EventKind
  delta : Int64 := 0
  deriving Repr, DecidableEq, Inhabited

/-- How an event is named in a refusal: a fill shows its quantity in braces. -/
def Event.text (e : Event) : String :=
  if e.kind.isFill then e.kind.text ++ "\x7b" ++ Text.ofWord e.delta ++ "\x7d" else e.kind.text

/-- One order's lifecycle: its quantities, its state, the live state to return to when a pending
request is rejected, and the ids of the events applied so far. -/
structure Order where
  id : String
  symbol : String
  totalQty : Int64
  filledQty : Int64 := 0
  state : OrderState := .working
  prior : Option OrderState := none
  seen : List String := []
  deriving Repr, Inhabited

namespace Order

/-- A new working order with nothing filled. -/
def new (id symbol : String) (totalQty : Int64) : Order := { id, symbol, totalQty }

/-- The quantity not yet filled. -/
def remaining (o : Order) : Int64 := o.totalQty - o.filledQty

/-- Whether an event with this id has been applied. -/
def hasSeen (o : Order) (eventId : String) : Bool := o.seen.contains eventId

/-- The state a rejected request returns to: the remembered one, else partially filled when
something is filled, else working. -/
def restored (o : Order) : OrderState :=
  match o.prior with
  | some s => s
  | none => if 0 < o.filledQty then .partiallyFilled else .working

/-- A fill of `delta` on an order that is live or pending. -/
def addFill (o : Order) (closes : Bool) (delta : Int64) : Order :=
  let filled := min (o.filledQty + delta) o.totalQty
  let o := { o with filledQty := filled }
  if closes ∨ filled = o.totalQty then { o with state := .filled }
  else if o.state.pending then { o with prior := some .partiallyFilled }
  else { o with state := .partiallyFilled }

/-- The transition rule: the order after the event, or `none` when the event is not legal in the
order's state. -/
def step (o : Order) (e : Event) : Option Order :=
  match e.kind with
  | .ack => if o.state.live then some o else none
  | .partialFill | .fill =>
    if o.state = .filled then some o
    else if e.delta ≤ 0 ∨ !(o.state.live || o.state.pending) then none
    else some (o.addFill (e.kind = .fill) e.delta)
  | .cancelRequest =>
    if o.state.live then some { o with prior := some o.state, state := .cancelPending } else none
  | .replaceRequest =>
    if o.state.live then some { o with prior := some o.state, state := .replacePending } else none
  | .cancelAck =>
    if o.state = .cancelPending then some { o with state := .cancelled, prior := none } else none
  | .cancelReject =>
    if o.state = .cancelPending then some { o with state := o.restored, prior := none } else none
  | .replaceAck =>
    if o.state = .replacePending then some { o with state := .working, prior := none } else none
  | .replaceReject =>
    if o.state = .replacePending then some { o with state := o.restored, prior := none } else none
  | .reject =>
    if o.state.live || o.state.pending then some { o with state := .rejected } else none
  | .other _ => none

/-- The refusal of an event that is not legal in the order's state. -/
def illegal (o : Order) (e : Event) : Fault :=
  .because .illegalTransition
    ("oms: illegal transition for order " ++ o.id ++ ": " ++ o.state.text ++ " + " ++ e.text)

/-- Applies an event. An event whose non-empty id was already applied changes nothing; the id of
a legal event is remembered. -/
def apply (o : Order) (e : Event) (eventId : String) : Except Fault Order :=
  if eventId ≠ "" ∧ o.hasSeen eventId then .ok o
  else match o.step e with
    | none => .error (o.illegal e)
    | some o' => .ok (if eventId = "" then o' else { o' with seen := o'.seen ++ [eventId] })

/-- The refusal `apply` would give for the event, if any, leaving the order as it is. -/
def check (o : Order) (e : Event) : Except Fault Unit :=
  match o.step e with
  | none => .error (o.illegal e)
  | some _ => .ok ()

end Order

end TradeDesk
