import TradeDesk.Dispatch.Basic
/-!
# One dispatch pass

A dispatcher claims up to a batch of pending rows, oldest first, and walks them in order:

* a row whose intent does not decode, or has no symbol, no positive quantity or no valid side,
  is marked failed;
* otherwise its intent is submitted through the gateway under the row's key and, once accepted,
  completed;
* at the first gate refusal the row and every row after it are released, and the pass stops;
* any other refusal leaves the row claimed.

A batch that is zero or negative is one.
-/

namespace TradeDesk

/-- What a dispatch pass did. -/
structure DispatchResult where
  claimed : Nat := 0
  sent : Nat := 0
  released : Nat := 0
  failed : Nat := 0
  errored : Nat := 0
  deriving Repr, DecidableEq, Inhabited

/-- How one row ended. -/
inductive RowOutcome where
  | sent
  | refused
  | undecodable
  | errored
  deriving Repr, DecidableEq, Inhabited

/-- Whether an intent can be submitted: a symbol, a positive quantity and a valid side. -/
def Intent.complete (i : Intent) : Bool := i.symbol ≠ "" ∧ 0 < i.quantity ∧ i.side.valid

/-- Dispatches one claimed row. -/
def dispatchRow {σ : Type} (gs : Gates) (sink : Sink σ) (row : OutboxRow) (w : σ × Venue) : RowOutcome × (σ × Venue) :=
  match Intent.ofStored row.id row.orderJson with
  | .ok intent =>
    if !intent.complete then (.undecodable, (w.1, { w.2 with store := (w.2.store.markFailed row.key).2 }))
    else
      let intent := { intent with key := row.key }
      match Claim.ofRow (some row) with
      | .error _ => (.errored, w)
      | .ok claim =>
        match w.2.submit gs claim intent with
        | (.error f, v) => (if f.isGateRefusal then .refused else .errored, (w.1, v))
        | (.ok ack, v) =>
          match complete sink intent ack (w.1, v) with
          | (.ok (), w) => (.sent, w)
          | (.error _, w) => (.errored, w)
  | .error _ => (.undecodable, (w.1, { w.2 with store := (w.2.store.markFailed row.key).2 }))

/-- Releases rows, counting those released. -/
def releaseRows (rows : List OutboxRow) (v : Venue) : Nat × Venue :=
  rows.foldl (fun (n, v) r =>
    let (moved, store) := v.store.release r.key
    (if moved then n + 1 else n, { v with store })) (0, v)

/-- Walks the claimed rows in order. -/
def dispatchRows {σ : Type} (gs : Gates) (sink : Sink σ) :
    List OutboxRow → DispatchResult → σ × Venue → DispatchResult × (σ × Venue)
  | [], res, w => (res, w)
  | row :: rest, res, w =>
    match dispatchRow gs sink row w with
    | (.sent, w) => dispatchRows gs sink rest { res with sent := res.sent + 1 } w
    | (.undecodable, w) => dispatchRows gs sink rest { res with failed := res.failed + 1 } w
    | (.errored, w) => dispatchRows gs sink rest { res with errored := res.errored + 1 } w
    | (.refused, w) =>
      let (n, v) := releaseRows (row :: rest) w.2
      ({ res with released := res.released + n }, (w.1, v))

/-- One pass of a dispatcher named `claimant` with a batch size. -/
def dispatchOnce {σ : Type} (gs : Gates) (sink : Sink σ) (claimant : String) (batch : Int) (w : σ × Venue) :
    DispatchResult × (σ × Venue) :=
  let batch := if batch ≤ 0 then 1 else batch
  let (rows, store) := w.2.store.claimBatch w.2.now batch claimant
  dispatchRows gs sink rows { claimed := rows.length } (w.1, { w.2 with store })

end TradeDesk
