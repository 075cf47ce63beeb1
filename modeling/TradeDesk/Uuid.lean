import TradeDesk.Text.Quoted
/-!
# Issued identifiers

The desk issues identifiers in order from one counter, shared by everything that needs a fresh
id (broker order ids, default idempotency keys, a default run id). The `n`-th identifier is a
version-4 UUID whose first eight hex digits hold `n / 2^16` and the next four `n mod 2^16`, the
rest fixed; so identifiers are distinct and their order of issue is visible in them.
-/

namespace TradeDesk

/-- The `n`-th identifier. -/
def Uuid.serial (n : Nat) : String :=
  let hi := Text.hexDigits (max 8 (Nat.toDigits 16 (n / 65536)).length) (n / 65536)
  String.ofList (hi ++ '-' :: Text.hexDigits 4 (n % 65536)) ++ "-4000-8000-000000000000"

/-- A counter of issued identifiers. -/
structure IdSource where
  issued : Nat := 0
  deriving Repr, DecidableEq, Inhabited

/-- Issues the next identifier. -/
def IdSource.next (s : IdSource) : String × IdSource :=
  (Uuid.serial (s.issued + 1), ⟨s.issued + 1⟩)

end TradeDesk
