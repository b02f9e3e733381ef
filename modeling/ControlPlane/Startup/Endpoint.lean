/-
Where spans are sent to. Only the form of the settings matters before
anything is sent.
-/
import ControlPlane.Settings
import ControlPlane.Uri

namespace ControlPlane.Endpoint

/-- The variable that turns sending on. -/
def general : String := "OTEL_EXPORTER_OTLP_ENDPOINT"

/-- The variable that names another place for the spans. -/
def forTraces : String := "OTEL_EXPORTER_OTLP_TRACES_ENDPOINT"

/-- The variables that ask for compression, which is not at hand. -/
def compressions : List String :=
  ["OTEL_EXPORTER_OTLP_TRACES_COMPRESSION", "OTEL_EXPORTER_OTLP_COMPRESSION"]

/-- Can spans be sent as the environment asks? The place has to be a web
address. When nothing is to be sent, nothing else is looked at. -/
def isSound (env : Environment) : Bool :=
  match env general with
  | none => true
  | some place =>
    compressions.all (fun key => (env key).isNone) &&
      (Uri.parse? ((env forTraces).getD place)).isSome

end ControlPlane.Endpoint
