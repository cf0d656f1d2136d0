import StellarKraal.Foundation.Emitter
import StellarKraal.Foundation.TransitionSystem
import StellarKraal.OracleBridge.JsonText

/-!
# Live price events

A published event is written to the database and then broadcast to the clients that
stream its credit, whether the database took it or not. The broadcasts come in the order
in which the writes end.
-/

namespace StellarKraal.PriceEvents

open OracleBridge (Json)

inductive PriceEventType
  | trade
  | oracleUpdate
  | retire

def PriceEventType.name : PriceEventType → String
  | .trade => "trade"
  | .oracleUpdate => "oracle_update"
  | .retire => "retire"

/-- What is published: a price event without `id` and `timestamp`. -/
structure NewPriceEvent where
  creditId : String
  type : PriceEventType
  priceUSDC : Rat
  volume : Option Rat
  txHash : Option String
  ledger : Option Rat

structure PriceEvent extends NewPriceEvent where
  id : String
  timestamp : String

/-- The fields of the published object come first, here in the order of the interface. -/
def PriceEvent.toJson (event : PriceEvent) : Json :=
  let fields : List (String × Option Json) :=
    [("creditId", some (.string event.creditId)), ("type", some (.string event.type.name)),
      ("priceUSDC", some (.number event.priceUSDC)), ("volume", event.volume.map .number),
      ("txHash", event.txHash.map .string), ("ledger", event.ledger.map .number),
      ("id", some (.string event.id)), ("timestamp", some (.string event.timestamp))]
  .object (fields.filterMap fun field => field.2.map fun value => (field.1, value))

/-- Format a price event as an SSE data frame. -/
def formatSseEvent (event : PriceEvent) : String :=
  "event: price_update\ndata: " ++ event.toJson.stringify 0 ++ "\n\n"

/-! ## Times as text -/

def padded (width n : Nat) : String :=
  String.ofList ((Nat.toDigits 10 n).leftpad width '0')

/-- Year, month and day, from the days since 1970 began. Years are counted from March on,
in periods of 400. -/
def civil (days : Nat) : Nat × Nat × Nat :=
  let shifted := days + 719468
  let inPeriod := shifted % 146097
  let yearOfPeriod :=
    (inPeriod - inPeriod / 1460 + inPeriod / 36524 - inPeriod / 146096) / 365
  let dayOfYear := inPeriod - (365 * yearOfPeriod + yearOfPeriod / 4 - yearOfPeriod / 100)
  let monthFromMarch := (5 * dayOfYear + 2) / 153
  let month := if monthFromMarch < 10 then monthFromMarch + 3 else monthFromMarch - 9
  let year := 400 * (shifted / 146097) + yearOfPeriod
  (if month ≤ 2 then year + 1 else year, month,
    dayOfYear - (153 * monthFromMarch + 2) / 5 + 1)

/-- The ISO text of a time in milliseconds; years after 9999 have a sign and six digits. -/
def toISOString (ms : Nat) : String :=
  let (year, month, day) := civil (ms / 86400000)
  (if year ≤ 9999 then padded 4 year else "+" ++ padded 6 year) ++
    "-" ++ padded 2 month ++ "-" ++ padded 2 day ++
    "T" ++ padded 2 (ms / 3600000 % 24) ++ ":" ++ padded 2 (ms / 60000 % 60) ++
    ":" ++ padded 2 (ms / 1000 % 60) ++ "." ++ padded 3 (ms % 1000) ++ "Z"

example : toISOString 1784368800000 = "2026-07-18T10:00:00.000Z" := by decide

/-! ## The service -/

/-- A registered client. Its number tells apart the callbacks of two registrations under
one id. -/
structure SseClient where
  id : String
  creditId : String
  number : Nat
  deriving DecidableEq

/-- A call of `publishPriceEvent` whose row is being created. -/
structure Publishing where
  event : NewPriceEvent
  timestamp : Nat

structure Service where
  now : Nat
  sseClients : String → Option SseClient
  priceEventBus : Emitter String SseClient
  /-- Every client that was registered, with its handler and its cleanup function. -/
  registrations : List SseClient
  /-- What the write callback of a client has been called with. -/
  written : SseClient → List String
  publishing : Nat → Option Publishing
  published : Nat

inductive Action
  | registerSseClient (clientId creditId : String)
  /-- The function that the registration returned. -/
  | cleanup (client : SseClient)
  | publishPriceEvent (event : NewPriceEvent)
  /-- The database has created the row of this call, with an id, or has failed to; the
  write callbacks return what `writable` says. -/
  | created (call : Nat) (row : Option String) (writable : SseClient → Bool)
  | tick (ms : Nat)

/-- Each credit has a channel of its own. -/
def channel (creditId : String) : String := "price:" ++ creditId

namespace Service

def registerSseClient (s : Service) (clientId creditId : String) : Service :=
  let client : SseClient := ⟨clientId, creditId, s.registrations.length⟩
  { s with
    sseClients := Function.update s.sseClients clientId (some client)
    priceEventBus := s.priceEventBus.on (channel creditId) client
    registrations := s.registrations ++ [client] }

def unregisterSseClient (s : Service) (clientId : String) : Service :=
  if (s.sseClients clientId).isSome then
    { s with sseClients := Function.update s.sseClients clientId none }
  else s

def cleanup (s : Service) (client : SseClient) : Service :=
  { s with priceEventBus := s.priceEventBus.off (channel client.creditId) client }
    |>.unregisterSseClient client.id

/-- A call of the client's write callback. -/
def write (s : Service) (client : SseClient) (sseData : String) : Service :=
  { s with written := Function.update s.written client (s.written client ++ [sseData]) }

/-- What a client's listener does with an event. -/
def handler (event : PriceEvent) (writable : SseClient → Bool) (client : SseClient)
    (s : Service) : Service :=
  let s := s.write client (formatSseEvent event)
  if writable client then s else s.cleanup client

/-- The call goes on. -/
def resume (s : Service) (call : Nat) : Service :=
  { s with publishing := Function.update s.publishing call none }

def fullEvent (s : Service) (publishing : Publishing) (row : Option String) : PriceEvent :=
  { publishing.event with
    id := row.getD ("temp-" ++ toString s.now)
    timestamp := toISOString publishing.timestamp }

def broadcast (s : Service) (event : PriceEvent) (writable : SseClient → Bool) : Service :=
  s.priceEventBus.emit (channel event.creditId) (handler event writable) s

def act (s : Service) : Action → Option Service
  | .registerSseClient clientId creditId => some (s.registerSseClient clientId creditId)
  | .cleanup client => if client ∈ s.registrations then some (s.cleanup client) else none
  | .publishPriceEvent event =>
      some { s with
        publishing := Function.update s.publishing s.published (some ⟨event, s.now⟩)
        published := s.published + 1 }
  | .created call row writable => do
      let publishing ← s.publishing call
      return (s.resume call).broadcast (s.fullEvent publishing row) writable
  | .tick ms => some { s with now := s.now + ms }

/-- A service that nobody has used. -/
structure Fresh (s : Service) : Prop where
  priceEventBus : ∀ channel, s.priceEventBus channel = []
  registrations : s.registrations = []
  written : ∀ client, s.written client = []
  publishing : ∀ call, s.publishing call = none

end Service

def service : TransitionSystem Service Action where
  Initial := Service.Fresh
  Step s a s' := s.act a = some s'

end StellarKraal.PriceEvents
