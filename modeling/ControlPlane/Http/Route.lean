/-
What a request asks for. Its target has to be an address. The path is
looked at first, then the method, the machine's id in the path, the body
or the query, and last whether the id may be a machine's; the first of
these that is wrong is answered.
-/
import ControlPlane.Http.Request
import ControlPlane.Http.Response
import ControlPlane.Lifecycle.Operation

namespace ControlPlane.Http

/-- What a request asks for. -/
inductive Plan
  /-- The answer needs no replica. -/
  | reply (r : Response)
  | probe
  | readiness
  | version
  | metrics
  | lookup (machine : String)
  | history (machine : String)
  | call (machine : String) (operation : Operation)
  /-- A stream that lasts until the machine is allocated, or until the
  deadline. -/
  | wait (machine : String) (deadline : Option Duration)
  deriving Repr

/-- How a body fails to be what is expected. -/
def bodyFault : Json.Fault → Response
  | .mismatched =>
    .ofText 422
      "Failed to deserialize the JSON body into the target type: unexpected shape"
  | .malformed =>
    .ofText 400 "Failed to parse the request body as JSON: not JSON"
  | .truncated =>
    .ofText 400 "Failed to parse the request body as JSON: unexpected end"

/-- The most octets of a body. -/
def bodyLimit : Nat := 2097152

/-- Reads the body of a request. -/
def Request.read {α : Type} (r : Request) (form : Json.Form α) :
    Except Response α :=
  if ! r.isJson then
    .error (.ofText 415
      "Expected request with `Content-Type: application/json`")
  else if bodyLimit < r.body.utf8ByteSize then
    .error (.ofText 413
      "Failed to buffer the request body: length limit exceeded")
  else (form.parse r.body).mapError bodyFault

/-- Can this be a machine's id? An id with a slash would reach outside of
its place in the store. -/
def isMachineId (s : String) : Bool := ! s.isEmpty && ! s.toList.contains '/'

/-- Goes on with an id if it can be a machine's. -/
def withMachineId (machine : String) (k : String → Plan) : Plan :=
  if isMachineId machine then k machine
  else .reply (.ofText 400 ("invalid machine id " ++ Text.quoted machine))

/-- A request for an assignment to a virtual network. -/
def vrfForm : Json.Form UInt32 := Json.Form.required "vrf" Json.Draft.uint32

/-- A request to give a reinstallation up. -/
def abortForm : Json.Form Bool :=
  Json.Form.withDefault false "primary_disk_wiped" Json.Draft.flag

/-- A request to attach connections. -/
def connectionsForm : Json.Form (List SwitchConnection) :=
  Json.Form.required "connections" SwitchConnection.readList

/-- What is asked for by posting to a machine's place of that name. -/
def postForm : String → Option (Json.Form Operation)
  | "register" => some (RegisterRequest.form.map .register)
  | "connections" => some (connectionsForm.map .attach)
  | "allocate" => some (AllocateRequest.form.map .allocate)
  | "vrf" => some (vrfForm.map .assignVrf)
  | "report" => some (ReportRequest.form.map .report)
  | "abort-reinstall" => some (abortForm.map .abortReinstall)
  | _ => none

/-- The query was not understood. -/
def queryFault : Response :=
  .ofText 400 "Failed to deserialize query string: unexpected value"

/-- The value of a numeric parameter below `bound`, if it is given; it may
be given once. -/
def numberParameter (u : Uri) (name : String) (bound : Nat) :
    Except Response (Option Nat) :=
  match (parameters u).filter fun p => p.1 = some name with
  | [] => .ok none
  | [(_, some value)] =>
    match Environment.natBelow? bound value.toList with
    | some n => .ok (some n)
    | none => .error queryFault
  | _ => .error queryFault

/-- The plan of a request for a wait stream. -/
def waitPlan (u : Uri) (machine : String) : Plan :=
  match numberParameter u "protocol" UInt32.size,
    numberParameter u "timeout_secs" UInt64.size with
  | .ok protocol, .ok timeout =>
    withMachineId machine fun machine =>
      let spoken := protocol.getD waitProtocol.toNat
      if spoken = waitProtocol.toNat then
        .wait machine ((timeout.filter (0 < ·)).map Duration.ofSecs)
      else
        .reply (.ofText 501
          ("wait protocol v" ++ toString spoken ++
            " is not supported, this server speaks v" ++
            toString waitProtocol.toNat))
  | _, _ => .reply queryFault

/-- Goes on with the id that a segment of the path spells. -/
def withSegment (segment : String) (k : String → Plan) : Plan :=
  match Text.ofOctets? (Text.percentDecode (Text.octets segment)) with
  | some machine => k machine
  | none => .reply (.ofText 400 "Invalid URL: Invalid UTF-8 in `id`")

/-- A place that can be read. -/
def getOnly (r : Request) (plan : Plan) : Plan :=
  if r.method = "GET" ∨ r.method = "HEAD" then plan
  else .reply (.notAllowed "GET,HEAD")

/-- A place that can be posted to. -/
def postOnly (r : Request) (plan : Plan) : Plan :=
  if r.method = "POST" then plan else .reply (.notAllowed "POST")

/-- What a request for an address asks for. -/
def Request.planAt (r : Request) (u : Uri) : Plan :=
  match segments u with
  | ["health"] => getOnly r .probe
  | ["ready"] => getOnly r .readiness
  | ["version"] => getOnly r .version
  | ["metrics"] => getOnly r .metrics
  | ["v1", "machines", segment] =>
    if segment = "" then .reply .notFound
    else
      getOnly r (withSegment segment fun machine =>
        withMachineId machine .lookup)
  | ["v1", "machines", segment, "events"] =>
    getOnly r (withSegment segment fun machine =>
      withMachineId machine .history)
  | ["v1", "machines", segment, "wait"] =>
    getOnly r (withSegment segment (waitPlan u))
  | ["v1", "machines", segment, place] =>
    match postForm place with
    | none => .reply .notFound
    | some form =>
      postOnly r (withSegment segment fun machine =>
        match r.read form with
        | .error response => .reply response
        | .ok operation =>
          withMachineId machine fun machine => .call machine operation)
  | _ => .reply .notFound

/-- What a request asks for. -/
def Request.plan (r : Request) : Plan :=
  match r.uri? with
  | some u => r.planAt u
  | none => .reply (.bare 400)

end ControlPlane.Http
