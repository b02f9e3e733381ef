/-
From the environment to a replica that takes requests, and from there to
its end: what is logged on the way, and where it may fail.
-/
import ControlPlane.Startup.Address
import ControlPlane.Startup.Endpoint
import ControlPlane.Telemetry.Ambient
import ControlPlane.Telemetry.Filter
import ControlPlane.Text.Quoted
import ControlPlane.Version

namespace ControlPlane.Startup

/-- A line of the log, and the part of the program that says it. -/
structure Said where
  target : String
  line : LogLine
  deriving Repr

/-- What a start finds outside of the program. -/
structure Surroundings where
  /-- Can be listened on under an address? -/
  canListen : String → Bool
  /-- Does the key-value server answer? -/
  hasServer : Bool

/-- How a run of the program goes. -/
inductive Course
  /-- It ends before requests are taken, for a reason. -/
  | failed (reason : String)
  /-- It takes requests, until it is interrupted. -/
  | serving
  deriving DecidableEq, Repr

namespace Said

/-- A line of the program's main part. -/
def main (l : LogLine) : Said := ⟨"metal_api", l⟩

/-- A line of the part that sets the log up. -/
def setup (l : LogLine) : Said := ⟨"metal_api::observability::tracing", l⟩

/-- A line of the part that builds replicas. -/
def server (l : LogLine) : Said := ⟨"metal_api::server", l⟩

/-- The members of a line in the log's JSON form. -/
def toJson (s : Said) : Json :=
  match s.line.toJson with
  | .object ms => .object (ms ++ [("target", .string s.target)])
  | j => j

/-- A line in the log's text form. -/
def text (s : Said) : String :=
  let fields := s.line.fields.map fun (k, v) => " " ++ k ++ "=" ++
    match v with
    | .string x => x
    | v => v.text
  s.line.level.name ++ " " ++ s.target ++ ": " ++ s.line.message ++
    String.join fields

end Said

/-- How the log was set up. -/
def tracingReady (s : TracingSettings) : LogLine :=
  match s.otlpEndpoint with
  | some endpoint =>
    ⟨.info, "OpenTelemetry tracing initialized",
      [("endpoint", .string endpoint),
        ("service_name", .string s.serviceName)]⟩
  | none => ⟨.debug, "Tracing initialized (no OTLP export)", []⟩

/-- The program has begun. -/
def starting (b : Build) : LogLine :=
  ⟨.info, "Starting metal-api", [("version", .string b.fullVersion)]⟩

/-- The settings are known. -/
def loaded (s : ServerSettings) : LogLine :=
  ⟨.info, "Loaded configuration",
    [("node_id", .string s.nodeId), ("bind_addr", .string s.bindAddr),
      ("store_backend", .string s.backend.name),
      ("response_interval", .string s.wait.responseInterval.text),
      ("check_interval", .string s.wait.checkInterval.text)]⟩

/-- The lines about the backends. -/
def backends (s : ServerSettings) : List Said :=
  match s.backend with
  | .memory => []
  | .etcd =>
    let endpoints :=
      "[" ++ ", ".intercalate (s.etcdEndpoints.map Text.quoted) ++ "]"
    [.server ⟨.info, "Connecting to etcd", [("endpoints", .string endpoints)]⟩,
      ⟨"metal_api::store::etcd", ⟨.debug, "Connected to etcd", []⟩⟩,
      .server ⟨.info, "Connected to etcd", []⟩]

/-- The lines about the replica's subscription. -/
def subscribed (s : ServerSettings) (subscription : String) : List Said :=
  (match s.backend with
    | .memory => []
    | .etcd =>
      [⟨"metal_api::bus::etcd",
        .watchStarted subscription
          ("/metal/bus/" ++ s.bus.allocationTopic ++ "/")⟩]) ++
  [⟨"metal_api::wait::notifier",
    .subscribed s.bus.allocationTopic subscription⟩,
    .server (.replicaReady subscription)]

/-- Starts a replica: all that is said on the way, and how it goes on. -/
def start (env : Environment) (around : Surroundings) (b : Build)
    (a : Ambient) : List Said × Course :=
  let (u, a) := a.uuid
  let (v, _) := a.uuid
  let tracing := TracingSettings.ofEnvironment env
  let settings := ServerSettings.ofEnvironment ("metal-api-" ++ u.text) env
  if ! Endpoint.isSound env then
    ([], .failed "failed to initialize tracing")
  else
    let begun :=
      [.setup (tracingReady tracing), .main (starting b),
        .main ⟨.debug, b.info, []⟩, .main (loaded settings)] ++
        backends settings
    if settings.backend = .etcd && ! around.hasServer then
      (begun, .failed "failed to subscribe to allocation events")
    else
      let ready :=
        begun ++ subscribed settings (settings.nodeId ++ "-" ++ v.text)
      if around.canListen settings.bindAddr then
        let serving : LogLine :=
          ⟨.info, "Starting API server",
            [("bind_addr", .string settings.bindAddr)]⟩
        (ready ++ [.main serving], .serving)
      else (ready, .failed ("failed to bind " ++ settings.bindAddr))

/-- What is said once a replica was interrupted. -/
def stop : List Said := [.main ⟨.info, "Shutting down", []⟩]

/-- The lines that are written, of those that are said. -/
def written (env : Environment) (said : List Said) : List Said :=
  let filter := LogFilter.ofText .info ((env "RUST_LOG").getD "")
  said.filter fun s => filter.passes s.target s.line

/-- The wording of a failed start. -/
def failure (reason : String) : String := "Error: " ++ reason

end ControlPlane.Startup
