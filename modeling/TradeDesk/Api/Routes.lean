import TradeDesk.Api.Path
import TradeDesk.Api.Request
import TradeDesk.Desk.Intents
import TradeDesk.Desk.Recovery
import TradeDesk.Desk.Report
import TradeDesk.Price
import TradeDesk.Text.Case
/-!
# The control surface

The desk's HTTP routes under `/api/v1`. A path no route has is not found (404, plain text); a
path whose route does not take the method, or a method that is not an HTTP method, is not
allowed (405, empty). An empty method is `GET`. A parameter that ends the path must not be empty,
so `/orders/` is not found, while one inside it may: `/orders//cancel` cancels the order with the
empty id. Every other answer is JSON, except a view that cannot be written (a time of the desk's
clock outside the years 0 to 9999, an order document that is not JSON): its answer keeps its
status and is empty.

A name in the path whose bytes are not UTF-8 text names no order and no outbox row, and is
answered as such a name is: an order lookup is not found, a cancel or replace is refused by the
first closed gate and else as an unknown order, an event is refused as for an order not found.
The refusal writes the name between quotes from its bytes, and otherwise reads it as text with
U+FFFD for each stray byte.

Request symbols are trimmed and put in capitals, sides read as `BUY` or `SELL` in three spellings,
event kinds put in capitals, order types and times in force put in small letters. A refusal of the
desk is answered by its kind: 409 for a gate refusal (with the gate), for a request the order's
state refuses, for an illegal transition, a halted order or an unclean reconcile; 404 for what is
not found; 400 for an invalid intent or disarm reason and a price that is not representable; 422
for risk and ledger refusals; 500 for anything else.
-/

namespace TradeDesk.Api

/-- What an answer carries. -/
inductive Reply where
  | json (j : Json)
  | text (t : String)
  deriving Repr, Inhabited

/-- An HTTP answer. -/
structure Response where
  status : Nat
  reply : Reply
  deriving Repr, Inhabited

/-- A JSON answer. -/
def ok (status : Nat) (j : Json) : Response := ⟨status, .json j⟩

/-- The answer of a view: JSON when it can be written, else empty. -/
def view (status : Nat) : Option Json → Response
  | some j => ok status j
  | none => ⟨status, .text ""⟩

/-- An error answer with a message. -/
def failure (status : Nat) (message : String) : Response := ok status (.obj [("error", .str message)])

/-- The refusal of a body that cannot be read. -/
def badBody : Response := failure 400 "invalid request body"

/-- The answer to a refusal of the desk. -/
def refusal (f : Fault) : Response :=
  match f.gate? with
  | some g => ok 409 (.obj [("error", .str f.message), ("gate", .str g.name)])
  | none =>
    let any := fun (cs : List Cause) => cs.any f.has
    if any [.unknownOrder, .orderNotFound, .notFound] then failure 404 f.message
    else if any [.requestRefused, .illegalTransition, .orderHalted, .reconcileNotClean] then failure 409 f.message
    else if any [.invalidIntent, .invalidReason, .pricing] then failure 400 f.message
    else if any [.symbolLimit, .grossLimit, .missingMark, .ledger] then failure 422 f.message
    else failure 500 f.message

/-- A request symbol as the desk writes it. -/
def symbolOf (s : String) : String := Text.toUpper (Text.trimSpace s)

/-- Reads a body that must hold a value of a request record. -/
def bindBody {α : Type} (fields : List (Json.Field α)) (init : α) (body : String) : Option α :=
  match readBody body with
  | .value j => Json.bind fields init j
  | _ => none

/-- A broker answer with its time. The broker stamps an answer from its own wall clock, which is
always within the years RFC 3339 writes, so the answer is always written; the stamp the desk
keeps is written when it has a text, and empty otherwise. -/
def ackJson (a : BrokerAck) (timeName : String) : Json :=
  .obj [("broker_order_id", .str a.brokerId), (timeName, .str ((Instant.rfc3339? a.stamped).getD "")),
    ("status", .str a.status)]

/-- The refusal of a cancel or replace of an order named by bytes that are not text, which no
order has: the first closed gate, else an unknown order. -/
def unnamedOrder (w : World) (raw : List UInt8) : Fault :=
  match (w.1.gates w.2.now).enforce with
  | .error f => f
  | .ok () => unknownOrderQuoted (Text.quoteBytes raw)

/-- `POST /intents`: queues an intent; 201 when new, 200 when its key was queued before. -/
def createIntent {D : Type} (L : DecimalLib D) (w : World) (body : String) : Response × World :=
  match bindBody IntentRequest.fields {} body with
  | none => (badBody, w)
  | some req =>
    match Side.parse req.side with
    | .error _ => (failure 400 "side must be BUY or SELL", w)
    | .ok side =>
      let limit : Except Fault (Option Int64) :=
        if req.limitPrice = "" then .ok none else (parseMicros L req.limitPrice).map some
      match limit with
      | .error f => (failure 400 ("limit_price: " ++ f.message), w)
      | .ok limit =>
        let intent : Intent :=
          { key := req.key, symbol := symbolOf req.symbol, side, quantity := req.quantity,
            orderType := Text.toLower req.orderType, limit, timeInForce := Text.toLower req.timeInForce }
        match enqueueIntent w intent with
        | (.error f, w) => (refusal f, w)
        | (.ok (queued, created), w) =>
          (ok (if created then 201 else 200) (.obj [("intent", queued.toJson), ("created", .bool created)]), w)

/-- `POST /targets`: queues the intents that reach target positions. -/
def createTargets (w : World) (body : String) : Response × World :=
  match bindBody targetsFields {} body with
  | none => (badBody, w)
  | some targets =>
    let targets := targets.toList.map fun t => (symbolOf t.symbol, t.qty)
    if targets.any (·.1 = "") then (failure 400 "target symbol is required", w)
    else
      match enqueueTargets w targets with
      | (_, some f, w) => (refusal f, w)
      | (intents, none, w) => (ok 201 (.obj [("intents", .arr (intents.map Intent.toJson))]), w)

/-- `POST /orders/{id}/replace`: amends an order. -/
def replaceOrder {D : Type} (L : DecimalLib D) (w : World) (orderId : Segment) (body : String) : Response × World :=
  match bindBody ReplaceRequest.fields {} body with
  | none => (badBody, w)
  | some req =>
    if req.quantity ≤ 0 then (failure 400 "quantity must be positive", w)
    else
      let limit : Except Fault (Option Int64) :=
        if req.limitPrice = "" then .ok none else (parseMicros L req.limitPrice).map some
      match limit with
      | .error f => (failure 400 ("limit_price: " ++ f.message), w)
      | .ok limit =>
        let tif := Text.toLower req.timeInForce
        let tif := if tif = "" then "day" else tif
        match orderId with
        | .bytes raw => (refusal (unnamedOrder w raw), w)
        | .text orderId =>
          match replace w orderId req.quantity limit tif with
          | (_, some f, w) => (refusal f, w)
          | (some a, none, w) => (ok 200 (ackJson a "replaced_at"), w)
          | (none, none, w) => (ok 200 .null, w)

/-- `POST /orders/{id}/events`: applies a broker lifecycle event. -/
def postEvent (w : World) (orderId : Segment) (body : String) : Response × World :=
  match bindBody EventRequest.fields {} body with
  | none => (badBody, w)
  | some req =>
    let ev : Event := { kind := EventKind.ofText (Text.toUpper req.kind), delta := req.deltaQty }
    match orderId with
    | .bytes _ => (refusal (orderNotFound orderId.shown), w)
    | .text orderId =>
      match applyEvent w orderId ev req.eventId with
      | (.error f, w) => (refusal f, w)
      | (.ok o, w) => (ok 200 o.toJson, w)

/-- Reads the execution reports of a fills body, up to the first that cannot be read. -/
def fillsOf {D : Type} (L : DecimalLib D) : List FillRequest → Except Response (List BrokerFill)
  | [] => .ok []
  | f :: rest =>
    match Side.parse f.side with
    | .error _ => .error (failure 400 "side must be BUY or SELL")
    | .ok side =>
      match parseMicros L f.price with
      | .error e => .error (failure 400 ("price: " ++ e.message))
      | .ok price =>
        let fee : Except Fault Int64 := if f.fee = "" then .ok 0 else parseMicros L f.fee
        match fee with
        | .error e => .error (failure 400 ("fee: " ++ e.message))
        | .ok fee =>
          (fillsOf L rest).map fun more =>
            { messageId := f.messageId, seq := f.seq, orderId := f.orderId, symbol := symbolOf f.symbol,
              side, qty := f.qty, price, fee, final := f.final } :: more

/-- `POST /fills`: ingests execution reports. -/
def postFills {D : Type} (L : DecimalLib D) (w : World) (body : String) : Response × World :=
  match bindBody fillsFields {} body with
  | none => (badBody, w)
  | some reqs =>
    match fillsOf L reqs.toList with
    | .error r => (r, w)
    | .ok fills =>
      match ingestFills w fills with
      | (.error f, w) => (refusal f, w)
      | (.ok r, w) => (ok 200 (.obj [("applied", .nat r.applied), ("duplicates", .nat r.duplicates)]), w)

/-- Reads marks: each must be a positive decimal; symbols in capitals. -/
def marksOf {D : Type} (L : DecimalLib D) : List (String × String) → Except Response Marks
  | [] => .ok []
  | (s, t) :: rest =>
    match parseMicros L t with
    | .ok px =>
      if px ≤ 0 then .error (failure 400 ("mark for " ++ s ++ " must be a positive decimal"))
      else (marksOf L rest).map fun more => Marks.set more (Text.toUpper s) px
    | .error _ => .error (failure 400 ("mark for " ++ s ++ " must be a positive decimal"))

/-- The last text given for each key, in order of first appearance. -/
def lastOfEach (ps : List (String × String)) : List (String × String) :=
  ps.foldl (fun acc (k, v) => if (acc.lookup k).isSome then acc.map fun (k', v') => (k', if k' = k then v else v') else acc ++ [(k, v)]) []

/-- `POST /marks`: merges marks and answers the portfolio. -/
def postMarks {D : Type} (L : DecimalLib D) (w : World) (body : String) : Response × World :=
  match bindBody marksFields [] body with
  | none => (badBody, w)
  | some texts =>
    match marksOf L (lastOfEach texts) with
    | .error r => (r, w)
    | .ok marks =>
      let d := w.1.setMarks marks
      (ok 200 d.portfolio, (d, w.2))

/-- `POST /integrity/disarm`: disarms; no body or an empty reason is a manual disarm. -/
def postDisarm (w : World) (body : String) : Response × World :=
  let reason? : Option String := match readBody body with
    | .empty => some ""
    | .value j => Json.bind reasonFields "" j
    | .broken => none
  match reason? with
  | none => (badBody, w)
  | some reason =>
    let reason := if reason = "" then DisarmReason.manualDisarm.text else Text.toUpper reason
    match disarm w reason with
    | (.error f, w) => (refusal f, w)
    | (.ok st, w) => (ok 200 st.toJson, w)

/-- `GET /outbox/{key}`: the outbox row of a key. -/
def getOutbox (w : World) (key : Segment) : Response :=
  match key with
  | .bytes _ => refusal (Store.missingRow key.shown)
  | .text key =>
    match w.2.store.fetch key with
    | .error f => refusal f
    | .ok row => view 200 row.toJson?

/-- `GET /orders/{id}`: a tracked order. -/
def getOrder (w : World) (orderId : Segment) : Response :=
  match orderId with
  | .bytes _ => failure 404 "order not found"
  | .text orderId =>
    match w.1.order? orderId with
    | some o => ok 200 (w.1.orderView o)
    | none => failure 404 "order not found"

/-- `POST /orders/{id}/cancel`: asks the broker to cancel an order. -/
def cancelOrder (w : World) (orderId : Segment) : Response × World :=
  match orderId with
  | .bytes raw => (refusal (unnamedOrder w raw), w)
  | .text orderId =>
    match cancel w orderId with
    | (_, some f, w) => (refusal f, w)
    | (some a, none, w) => (ok 200 (ackJson a "cancelled_at"), w)
    | (none, none, w) => (ok 200 .null, w)

/-- The routes, by path segments after `/api/v1`: the handler of each method the route takes;
prices are read by the decimal library `L`. -/
def routes {D : Type} (L : DecimalLib D) (segments : List Segment) :
    Option (List (String × (World → String → Response × World))) :=
  match segments with
  | [.text "status"] => some [("GET", fun w _ => (view 200 (w.1.status? w.2.now), w))]
  | [.text "integrity", .text "arm"] => some [("POST", fun w _ =>
      match arm w with
      | (.error f, w) => (refusal f, w)
      | (.ok st, w) => (ok 200 st.toJson, w))]
  | [.text "integrity", .text "disarm"] => some [("POST", postDisarm)]
  | [.text "reconcile"] => some [("POST", fun w _ =>
      let (drifts, w) := reconcile w
      (ok 200 (.obj [("clean", .bool drifts.isEmpty),
        ("drifts", if drifts.isEmpty then .null else .arr (drifts.map Drift.toJson))]), w))]
  | [.text "intents"] => some [("POST", createIntent L)]
  | [.text "targets"] => some [("POST", createTargets)]
  | [.text "orders"] => some [("GET", fun w _ => (ok 200 (.obj [("orders", .arr w.1.orderViews)]), w))]
  | [.text "orders", id] => if id = .text "" then none else some [("GET", fun w _ => (getOrder w id, w))]
  | [.text "orders", id, .text "cancel"] => some [("POST", fun w _ => cancelOrder w id)]
  | [.text "orders", id, .text "replace"] => some [("POST", fun w b => replaceOrder L w id b)]
  | [.text "orders", id, .text "events"] => some [("POST", fun w b => postEvent w id b)]
  | [.text "fills"] => some [("POST", postFills L)]
  | [.text "marks"] => some [("POST", postMarks L)]
  | [.text "portfolio"] => some [("GET", fun w _ => (ok 200 w.1.portfolio, w))]
  | [.text "outbox", key] => if key = .text "" then none else some [("GET", fun w _ => (getOutbox w key, w))]
  | _ => none

/-- The methods of HTTP. -/
def methods : List String := ["GET", "HEAD", "POST", "PUT", "PATCH", "DELETE", "CONNECT", "OPTIONS", "TRACE"]

/-- The segments after `/api/v1` of the path the router matches for a target, if it is under
it. -/
def segmentsOf (target : String) : Option (List Segment) :=
  match routeSegments target with
  | .text "" :: .text "api" :: .text "v1" :: rest@(_ :: _) => some rest
  | _ => none

/-- Serves one request, reading prices by the decimal library `L`. -/
def serve {D : Type} (L : DecimalLib D) (w : World) (method path body : String) : Response × World :=
  let method := if method = "" then "GET" else method
  if !methods.contains method then (⟨405, .text ""⟩, w)
  else
    match (segmentsOf path).bind (routes L) with
    | none => (⟨404, .text "404 page not found\n"⟩, w)
    | some handlers =>
      match handlers.lookup method with
      | some h => h w body
      | none => (⟨405, .text ""⟩, w)

end TradeDesk.Api
