import TradeDesk.Config.Duration
import TradeDesk.Price
import TradeDesk.Text.Case
import TradeDesk.Text.Integer
import TradeDesk.Uuid
/-!
# Settings

The desk's settings come from named text variables; a variable that is unset or empty takes its
default. They are read and checked in a fixed order, and the first refusal is the answer: the
port, the log level (in small letters, one of `debug`, `info`, `warn`, `error`), the run id (a
UUID in one of its four spellings; a fresh one when unset), seven durations (each positive), the
dispatch batch (positive), three amounts of money in decimal text (each turned into micros and not
negative), and last the broker (in small letters, `paper`, or `alpaca` with both credentials).

Integers are read as signed 64-bit decimal words; a refusal quotes the text and says whether it
was not an integer or out of range.
-/

namespace TradeDesk

namespace Settings

/-- Reads an integer setting. -/
def readInt (s : String) : Except String Int :=
  match Text.readInt s.toList 64 with
  | .ok n => .ok n
  | .error .invalid => .error ("strconv.Atoi: parsing " ++ Text.quote s ++ ": invalid syntax")
  | .error .range => .error ("strconv.Atoi: parsing " ++ Text.quote s ++ ": value out of range")

/-- Whether a byte is a hex digit. -/
def isHexByte (b : UInt8) : Bool :=
  (0x30 ≤ b ∧ b ≤ 0x39) ∨ (0x41 ≤ b ∧ b ≤ 0x46) ∨ (0x61 ≤ b ∧ b ≤ 0x66)

/-- Whether bytes are hex digits at the given offsets and the next ones. -/
def hexPairsAt (bs : List UInt8) (offsets : List Nat) : Bool :=
  offsets.all fun i => (bs[i]?.map isHexByte).getD false && (bs[i + 1]?.map isHexByte).getD false

/-- Checks the dashed form of a UUID. -/
def dashedRefusal? (bs : List UInt8) : Option String :=
  if [8, 13, 18, 23].all (fun i => bs[i]? = some 0x2D) ∧
      hexPairsAt bs [0, 2, 4, 6, 9, 11, 14, 16, 19, 21, 24, 26, 28, 30, 32, 34] then none
  else some "invalid UUID format"

/-- Why a text is not a UUID, if it is not: by its length in bytes, the dashed form, the dashed
form with a `urn:uuid:` prefix (in any case), the dashed form with one character on each side, or
32 hex digits. -/
def uuidRefusal? (s : String) : Option String :=
  let bs := s.toUTF8.toList
  let lower := fun (b : UInt8) => if 0x41 ≤ b ∧ b ≤ 0x5A then b + 32 else b
  match bs.length with
  | 36 => dashedRefusal? bs
  | 45 =>
    if (bs.take 9).map lower = "urn:uuid:".toUTF8.toList then dashedRefusal? (bs.drop 9)
    else some ("invalid urn prefix: " ++ Text.quoteBytes (bs.take 9))
  | 38 => dashedRefusal? (bs.drop 1)
  | 32 => if hexPairsAt bs ((List.range 16).map (2 * ·)) then none else some "invalid UUID format"
  | n => some ("invalid UUID length: " ++ Nat.repr n)

end Settings

/-- The desk's settings. Money is in micros, durations in nanoseconds. -/
structure Settings where
  port : Int
  logLevel : String
  databaseUrl : String
  redisUrl : String
  cacheTtl : Int64
  runId : String
  runIdDefault : Bool
  /-- The dispatcher's name; none means the name of the host and process. -/
  dispatcherId : Option String
  dispatchInterval : Int64
  dispatchBatch : Int
  claimTtl : Int64
  sweepInterval : Int64
  reconcileInterval : Int64
  reconcileFresh : Int64
  initialCash : Int64
  maxGross : Int64
  maxPerSymbol : Int64
  broker : String
  alpacaKey : String
  alpacaSecret : String
  alpacaBaseUrl : String
  shutdownTimeout : Int64
  deriving Repr, Inhabited

namespace Settings

/-- The level name of the log level. -/
def slogLevel (s : Settings) : String :=
  if s.logLevel = "debug" then "DEBUG"
  else if s.logLevel = "warn" then "WARN"
  else if s.logLevel = "error" then "ERROR"
  else "INFO"

/-- A duration setting: its value, checked positive. -/
def duration (env : String → String) (key : String) (dflt : Int64) : Except String Int64 :=
  let v := env key
  let r := if v = "" then .ok dflt else Duration.read v
  match r with
  | .error e => .error ("invalid " ++ key ++ ": " ++ e)
  | .ok d => if d ≤ 0 then .error ("invalid " ++ key ++ ": must be positive, got " ++ Duration.text d) else .ok d

/-- A money setting in micros, read by the decimal library `L` and checked not negative. -/
def money {D : Type} (L : DecimalLib D) (env : String → String) (key dflt : String) : Except String Int64 :=
  let v := env key
  match L.ofString (if v = "" then dflt else v) with
  | .error e => .error ("invalid " ++ key ++ ": " ++ e)
  | .ok d =>
    match decimalToMicros L d with
    | .error f => .error ("invalid " ++ key ++ ": " ++ f.message)
    | .ok m => if m < 0 then .error ("invalid " ++ key ++ ": must not be negative") else .ok m

/-- Reads and checks the settings from the variables, amounts of money by the decimal library `L`. -/
def load {D : Type} (L : DecimalLib D) (env : String → String) : Except String Settings := do
  let text := fun (key dflt : String) => let v := env key; if v = "" then dflt else v
  let port ← match (if env "PORT" = "" then .ok 8080 else readInt (env "PORT")) with
    | .error e => .error ("invalid PORT: " ++ e)
    | .ok p => .ok p
  let logLevel := Text.toLower (text "LOG_LEVEL" "info")
  if !(["debug", "info", "warn", "error"].contains logLevel) then
    .error ("invalid LOG_LEVEL: " ++ Text.quote logLevel ++ ", must be one of: debug, info, warn, error")
  let runId := env "RUN_ID"
  if runId ≠ "" then
    match uuidRefusal? runId with
    | some e => .error ("invalid RUN_ID: " ++ e)
    | none => pure ()
  let cacheTtl ← duration env "CACHE_TTL" 30000000000
  let dispatchInterval ← duration env "DISPATCH_INTERVAL" 500000000
  let claimTtl ← duration env "CLAIM_TTL" 120000000000
  let sweepInterval ← duration env "SWEEP_INTERVAL" 30000000000
  let reconcileInterval ← duration env "RECONCILE_INTERVAL" 15000000000
  let reconcileFresh ← duration env "RECONCILE_FRESHNESS" 60000000000
  let shutdownTimeout ← duration env "SHUTDOWN_TIMEOUT" 10000000000
  let dispatchBatch ← match (if env "DISPATCH_BATCH" = "" then .ok 50 else readInt (env "DISPATCH_BATCH")) with
    | .error e => .error ("invalid DISPATCH_BATCH: " ++ e)
    | .ok b => if b ≤ 0 then .error ("invalid DISPATCH_BATCH: must be positive, got " ++ Text.ofInt b) else .ok b
  let initialCash ← money L env "INITIAL_CASH" "100000"
  let maxGross ← money L env "MAX_GROSS_EXPOSURE" "0"
  let maxPerSymbol ← money L env "MAX_SYMBOL_EXPOSURE" "0"
  let broker := Text.toLower (text "BROKER" "paper")
  let alpacaKey := env "ALPACA_API_KEY"
  let alpacaSecret := env "ALPACA_API_SECRET"
  if broker = "alpaca" then
    if alpacaKey = "" ∨ alpacaSecret = "" then
      .error "BROKER=alpaca requires ALPACA_API_KEY and ALPACA_API_SECRET"
  else if broker ≠ "paper" then
    .error ("invalid BROKER: " ++ Text.quote broker ++ ", must be one of: paper, alpaca")
  pure { port, logLevel, databaseUrl := env "DATABASE_URL", redisUrl := env "REDIS_URL", cacheTtl,
         runId := if runId = "" then Uuid.serial 1 else runId, runIdDefault := runId = "",
         dispatcherId := if env "DISPATCHER_ID" = "" then none else some (env "DISPATCHER_ID"),
         dispatchInterval, dispatchBatch, claimTtl, sweepInterval, reconcileInterval, reconcileFresh,
         initialCash, maxGross, maxPerSymbol, broker, alpacaKey, alpacaSecret,
         alpacaBaseUrl := text "ALPACA_BASE_URL" "https://paper-api.alpaca.markets", shutdownTimeout }

end Settings

end TradeDesk
