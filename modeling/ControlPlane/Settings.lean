/-
How a replica is set up, and how the environment overrides the defaults. A
variable that is unset counts like one whose value is no text; a value
that does not parse counts like none.
-/
import ControlPlane.Number.Double
import ControlPlane.Text.Blank
import ControlPlane.Time.Duration

namespace ControlPlane

/-- What the store and the bus are kept in. -/
inductive Backend
  /-- A key-value server that all replicas share. -/
  | etcd
  /-- This process, for development. -/
  | memory
  deriving DecidableEq, Repr

namespace Backend

/-- The name of a backend. -/
def name : Backend → String
  | etcd => "etcd"
  | memory => "memory"

/-- The backend of that very name. -/
def ofName? (s : String) : Option Backend :=
  if s = "etcd" then some etcd else if s = "memory" then some memory else none

end Backend

/-- The intervals of a wait call. -/
structure WaitSettings where
  /-- A tick of a blocked call, on which a keep-alive goes out. -/
  responseInterval : Duration
  /-- The least time between two looks into the store that no wake-up
  asked for. -/
  checkInterval : Duration
  deriving DecidableEq, Repr

namespace WaitSettings

/-- The default tick. -/
def defaultResponse : Duration := .ofSecs 5

/-- The default time between looks into the store. -/
def defaultCheck : Duration := .ofSecs 60

/-- The default intervals. -/
def standard : WaitSettings := ⟨defaultResponse, defaultCheck⟩

/-- The given intervals; the default takes the place of an empty one. -/
def ofIntervals (response check : Duration) : WaitSettings :=
  ⟨response.nonZeroOr defaultResponse, check.nonZeroOr defaultCheck⟩

/-- The given counts of seconds; the default takes the place of one that
is not positive. -/
def ofSecs (response check : Option Int) : WaitSettings :=
  ⟨.positiveSecsOr response defaultResponse,
    .positiveSecsOr check defaultCheck⟩

end WaitSettings

/-- How the intervals between the attempts of a retried call are computed. -/
inductive Precision
  /-- On doubles of nanoseconds, each step rounded. -/
  | double
  /-- Without rounding, up to the whole nanoseconds of the result. -/
  | exact
  deriving DecidableEq, Repr

/-- How conflicts are retried. -/
structure RetrySettings where
  /-- All attempts, the first one included. -/
  maxAttempts : Nat := 10
  initialBackoff : Duration := .ofMillis 100
  maxBackoff : Duration := .ofSecs 2
  multiplier : Double := .ofNat 2
  /-- How far a delay may stray from its interval, as a part of it. -/
  jitter : Double := .round false ⟨1, 2⟩
  precision : Precision := .double
  deriving DecidableEq, Repr

/-- How messages are published and delivered. -/
structure BusSettings where
  allocationTopic : String := "machine.allocation"
  /-- How many deliveries of a subscription may run at once. -/
  handlerConcurrency : Nat := 10
  /-- A delivery that takes longer has failed. -/
  handlerTimeout : Duration := .ofSecs 10
  /-- Older messages are dropped. -/
  messageTtl : Duration := .ofSecs 30
  /-- The pause before a broken watch is opened again. -/
  reconnectDelay : Duration := .ofSecs 1
  deriving DecidableEq, Repr

/-- The settings of one subscription. -/
structure SubscriptionOptions where
  concurrency : Nat
  handlerTimeout : Duration
  messageTtl : Duration
  deriving DecidableEq, Repr

/-- The options that the bus's settings ask for. -/
def SubscriptionOptions.ofSettings (s : BusSettings) : SubscriptionOptions :=
  ⟨max s.handlerConcurrency 1, s.handlerTimeout, s.messageTtl⟩

/-- All settings of a replica. -/
structure ServerSettings where
  bindAddr : String := "0.0.0.0:8080"
  nodeId : String
  backend : Backend := .etcd
  etcdEndpoints : List String := ["http://127.0.0.1:2379"]
  wait : WaitSettings := .standard
  retry : RetrySettings := {}
  bus : BusSettings := {}
  deriving DecidableEq, Repr

/-- The variables of the environment; `none` for one that is unset or no
text. -/
abbrev Environment := String → Option String

namespace Environment

/-- The value of decimal digits, if there is at least one and nothing else. -/
def digits? (cs : List Char) : Option Nat :=
  if cs.isEmpty || cs.any (fun c => ! ('0' ≤ c && c ≤ '9')) then none
  else some (cs.foldl (fun n c => n * 10 + (c.toNat - 48)) 0)

/-- A whole number of 64 bits, with or without a sign. -/
def int64? (s : List Char) : Option Int :=
  match s with
  | '-' :: rest => (digits? rest).bind fun n =>
    if n ≤ 9223372036854775808 then some (-(n : Int)) else none
  | '+' :: rest =>
    (digits? rest).bind fun n =>
      if n < 9223372036854775808 then some n else none
  | cs =>
    (digits? cs).bind fun n => if n < 9223372036854775808 then some n else none

/-- A natural number below `bound`, with or without a plus sign. -/
def natBelow? (bound : Nat) (s : List Char) : Option Nat :=
  match s with
  | '+' :: rest =>
    (digits? rest).bind fun n => if n < bound then some n else none
  | cs => (digits? cs).bind fun n => if n < bound then some n else none

/-- A variable's value without white space at its ends, parsed. -/
def parsed {α : Type} (env : Environment) (key : String)
    (parse : List Char → Option α) : Option α :=
  (env key).bind fun v => parse (Text.trim v.toList)

end Environment

/-- The settings that the environment asks for, of a replica that is
called `node` by default. -/
def ServerSettings.ofEnvironment (node : String) (env : Environment) :
    ServerSettings where
  bindAddr := (env "BIND_ADDR").getD "0.0.0.0:8080"
  nodeId := (env "NODE_ID").getD node
  backend := (env.parsed "STORE_BACKEND" fun cs =>
    Backend.ofName? (String.ofList cs)).getD .etcd
  etcdEndpoints :=
    match env "ETCD_ENDPOINTS" with
    | some v => v.splitOn ","
    | none => ["http://127.0.0.1:2379"]
  wait := .ofSecs (env.parsed "WAIT_RESPONSE_INTERVAL_SECS" Environment.int64?)
    (env.parsed "WAIT_CHECK_INTERVAL_SECS" Environment.int64?)
  retry :=
    match env.parsed "CONFLICT_RETRY_MAX_ATTEMPTS"
      (Environment.natBelow? UInt32.size) with
    | some n => { maxAttempts := max n 1 }
    | none => {}
  bus := {}

/-- How a replica logs and traces. -/
structure TracingSettings where
  /-- Where spans are sent to, if anywhere. -/
  otlpEndpoint : Option String := none
  serviceName : String := "metal-api"
  logFormat : String := "text"
  deriving DecidableEq, Repr

namespace TracingSettings

/-- The settings that the environment asks for. -/
def ofEnvironment (env : Environment) : TracingSettings where
  otlpEndpoint := env "OTEL_EXPORTER_OTLP_ENDPOINT"
  serviceName := (env "OTEL_SERVICE_NAME").getD "metal-api"
  logFormat := (env "LOG_FORMAT").getD "text"

/-- Are log lines to be written as JSON? -/
def isJson (s : TracingSettings) : Bool :=
  s.logFormat.toList.map Char.toLower = ['j', 's', 'o', 'n']

end TracingSettings

end ControlPlane
