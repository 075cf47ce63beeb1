/-!
# Faults

Every refusal of the desk is a `Fault`: the text a caller reads, together with the causes a
caller can test for. Putting a context in front of a fault (`Fault.within`) changes its text and
keeps its causes, so the question "was this a gate refusal?" has the same answer through any
number of wrappings. When a fault has several causes, the one a caller reports is the first in
the order of `Cause.rank`.
-/

namespace TradeDesk

/-- The three gates every broker call passes, in the order they are asked. -/
inductive Gate where
  /-- The desk is armed for trading. -/
  | integrity
  /-- The risk limits allow new broker activity. -/
  | risk
  /-- The last comparison with the broker's book is clean and fresh. -/
  | reconcile
  deriving Repr, DecidableEq, Inhabited

/-- The name of a gate, as refusals show it. -/
def Gate.name : Gate → String
  | .integrity => "integrity"
  | .risk => "risk"
  | .reconcile => "reconcile"

/-- The causes a caller can test a fault for. -/
inductive Cause where
  | requestRefused
  | orderHalted
  | orderNotFound
  | reconcileNotClean
  | invalidIntent
  | gateRefused (gate : Gate)
  | unknownOrder
  | illegalTransition
  | ledger
  | pricing
  | exposureBreach
  | symbolLimit
  | grossLimit
  | missingMark
  | invalidReason
  | invalidClaim
  | notFound
  | unknownBrokerOrder
  | orderClosed
  | forgedToken
  /-- A text that is not the expected JSON document. -/
  | malformed
  deriving Repr, DecidableEq, Inhabited

/-- The place of a cause in the order callers test for them: refusals of the desk first, then
those of the gateway and the order book, then the ledger's, then the rest, and a malformed
document last. -/
def Cause.rank : Cause → Nat
  | .requestRefused => 0
  | .orderHalted => 1
  | .orderNotFound => 2
  | .reconcileNotClean => 3
  | .invalidIntent => 4
  | .gateRefused _ => 5
  | .unknownOrder => 6
  | .illegalTransition => 7
  | .ledger => 8
  | .pricing => 9
  | .exposureBreach => 10
  | .symbolLimit => 11
  | .grossLimit => 12
  | .missingMark => 13
  | .invalidReason => 14
  | .invalidClaim => 15
  | .notFound => 16
  | .unknownBrokerOrder => 17
  | .orderClosed => 18
  | .forgedToken => 19
  | .malformed => 20

/-- A refusal: its text and its causes. A fault with no cause is a plain failure. -/
structure Fault where
  message : String
  causes : List Cause := []
  deriving Repr, Inhabited

namespace Fault

/-- A plain failure with the given text. -/
def plain (message : String) : Fault := { message }

/-- A fault with one cause. -/
def because (cause : Cause) (message : String) : Fault := { message, causes := [cause] }

/-- The fault with a context in front of its text, and the same causes. -/
def within (context : String) (f : Fault) : Fault :=
  { f with message := context ++ ": " ++ f.message }

/-- Two faults reported as one: the outer text, then the inner, with the causes of both. -/
def join (outer inner : Fault) : Fault :=
  { message := outer.message ++ ": " ++ inner.message, causes := outer.causes ++ inner.causes }

/-- Whether the fault has the cause. -/
def has (f : Fault) (c : Cause) : Bool := f.causes.contains c

/-- The cause the fault is reported as: of its causes, the first in the order of `Cause.rank`. -/
def cause? (f : Fault) : Option Cause :=
  f.causes.foldl (fun best c =>
    match best with
    | none => some c
    | some b => if c.rank < b.rank then some c else some b) none

/-- The gate that refused, if the fault is a gate refusal. -/
def gate? (f : Fault) : Option Gate :=
  f.causes.findSome? fun
    | .gateRefused g => some g
    | _ => none

end Fault

end TradeDesk
