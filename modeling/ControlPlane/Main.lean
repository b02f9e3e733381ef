/-
The program. A replica over backends in memory, set up by the environment.
It takes one request from each line of its input, a method, a target and
perhaps a JSON body with blanks between them, and writes the response; the
end of the input interrupts it. What a wait stream tells is written as it
comes.
-/
import ControlPlane.Simulation.Script
import ControlPlane.Startup.Run
import Std.Time.DateTime.Timestamp

open ControlPlane

namespace ControlPlane.Program

/-- The variables that are looked at. -/
def settingNames : List String :=
  ["BIND_ADDR", "NODE_ID", "STORE_BACKEND", "ETCD_ENDPOINTS",
    "WAIT_RESPONSE_INTERVAL_SECS", "WAIT_CHECK_INTERVAL_SECS",
    "CONFLICT_RETRY_MAX_ATTEMPTS", "OTEL_EXPORTER_OTLP_ENDPOINT",
    "OTEL_EXPORTER_OTLP_TRACES_ENDPOINT",
    "OTEL_EXPORTER_OTLP_TRACES_COMPRESSION",
    "OTEL_EXPORTER_OTLP_COMPRESSION", "OTEL_SERVICE_NAME", "LOG_FORMAT",
    "RUST_LOG"]

/-- The build of this program. -/
def build : Build where
  commit := "unknown"
  commitTime := "unknown"
  branch := "unknown"
  built := "unknown"
  compiler := "unknown"
  target := "unknown"

/-- The environment as it is now. -/
def environment : IO Environment := do
  let values ← settingNames.mapM fun key => do return (key, ← IO.getEnv key)
  return fun key => (values.find? fun p => p.1 == key).bind Prod.snd

/-- The time of the clock. -/
def clock : IO Timestamp := do
  let now ← Std.Time.Timestamp.now
  let nanos := now.toNanosecondsSinceUnixEpoch.val
  return ⟨nanos.fdiv 1000000000, (nanos.fmod 1000000000).toNat⟩

/-- The clock, and identifiers that no other run draws. -/
def surroundings : IO Ambient := do
  let bytes ← IO.getRandomBytes 8
  let drawn := bytes.foldl (fun n b => n * 256 + b.toNat) 0
  return { clock := ← clock, drawn }

/-- Writes lines of the log. -/
def write (env : Environment) (said : List Startup.Said) : IO Unit :=
  (Startup.written env said).forM fun s =>
    IO.println (if (TracingSettings.ofEnvironment env).isJson then
      s.toJson.text else s.text)

/-- The request on a line of the input. -/
def request? (line : String) : Option Http.Request :=
  match line.splitOn " " with
  | method :: target :: rest =>
    match " ".intercalate rest with
    | "" => some { method, target }
    | body =>
      some { method, target, contentType := some "application/json", body }
  | _ => none

/-- Writes a response. -/
def respond (r : Http.Response) : IO Unit := do
  IO.println (toString r.status)
  match r.body with
  | .empty => return
  | .text s => IO.println s
  | .json j => IO.println j.text

/-- The name of the open stream. -/
def stream : String := "stream"

/-- Takes a step, and writes what was logged meanwhile. -/
def step (env : Environment) (s : Simulation.Session) (x : Simulation.Step) :
    IO (Simulation.Answer × Simulation.Session) := do
  let now ← clock
  let s := s.modify fun w =>
    { w with ambient := { w.ambient with
      clock := if w.ambient.clock < now then now else w.ambient.clock } }
  let (answer, s) := s.run x
  let ((_, _, lines), s) := s.collect
  write env (lines.map Startup.Said.main)
  return (answer, s)

/-- Takes requests until the input ends. -/
partial def serve (env : Environment) (input : IO.FS.Stream)
    (s : Simulation.Session) : IO Unit := do
  let line ← input.getLine
  if line.isEmpty then return
  match request? line.trimAscii.toString with
  | none => serve env input s
  | some r =>
    let (answer, s) ← step env s (.openStream stream 0 r)
    match answer with
    | .response response => respond response
    | _ => pure ()
    let (answer, s) ← step env s (.readStream stream)
    match answer with
    | .stream text _ => IO.print text
    | _ => pure ()
    serve env input s

/-- One replica that hears of allocations and takes requests; what it says
of its start has been said before. -/
def session (settings : ServerSettings) (a : Ambient) : Simulation.Session :=
  let w : Simulation.World :=
    { ambient := a, build, wait := settings.wait, retry := settings.retry
      busSettings := settings.bus }
  let s : Simulation.Session :=
    { world := Simulation.Session.addReplica w settings.nodeId }
  (s.run (.listen "replica" 0 false)).2.collect.2

end ControlPlane.Program

open ControlPlane.Program in
/-- Starts a replica, lets it take requests, and ends it. -/
def main : IO UInt32 := do
  let env ← environment
  let a ← surroundings
  let around : Startup.Surroundings :=
    { canListen := Address.isUsable Host.isOwn, hasServer := false }
  let (said, course) := Startup.start env around build a
  write env said
  match course with
  | .failed reason =>
    IO.eprintln (Startup.failure reason)
    return 1
  | .serving =>
    let settings :=
      ServerSettings.ofEnvironment ("metal-api-" ++ a.uuid.1.text) env
    serve env (← IO.getStdin) (session settings a)
    write env Startup.stop
    return 0
