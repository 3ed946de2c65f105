import UpTunnel.Server.Registry

/-!
# UpTunnel.Server.Request

`Registry.parseRequest` (`server/src/registry.ts`), and `ControlPlane.openTunnel`
(`server/src/control.ts`) with its replies. What `openTunnel` does before it has to wait for a bind
is `openTunnel`; promise continuations run before the next I/O event, so nothing comes in between.
What it does once the bind is settled is `finishTunnel`.

* `parseRequest_reserved`: a request for an http tunnel names a valid label that is not reserved.
-/

namespace UpTunnel

open Js

/-- What the server leaves to Node; nothing here depends on what it is. -/
structure Engine where
  /-- `x.toLowerCase()` -/
  lower : String → String
  /-- How many calls of `Array.prototype.join`, one in the other, fit on the stack. -/
  maxJoins : Nat

def RESERVED_SUBDOMAINS : List String := ["www", "api", "admin", "tunnel", "control", "status"]

/-- What `parseRequest` throws: a `TunnelError` of its own, or a coercion's. -/
inductive RequestError where
  | tunnel (e : TunnelError)
  | js (e : JsError)

namespace RequestError

def code : RequestError → String
  | tunnel e => e.code
  | js _ => "bad_request"

def message : RequestError → String
  | tunnel e => e.message
  | js (.typeError message) => message
  | js (.rangeError message) => message

end RequestError

def badRequest {α : Type} (message : String) : Except RequestError α := .error (.tunnel ⟨"bad_request", message⟩)

/-- A property of a value that may be no object. -/
def ownProperty (x : Option Json) (key : String) : Option Json :=
  match x with
  | some (.obj o) => Obj.get o key
  | _ => none

/-- `Number(x)`, where it is a port number. -/
def portNumber (maxJoins : Nat) (x : Option Json) (what : String) : Except RequestError Nat :=
  match toNumberIn? maxJoins x with
  | .error e => .error (.js e)
  | .ok n =>
    match n.toInt? with
    | some port => if port < 1 ∨ port > 65535 then badRequest (what ++ " must be a port number") else .ok port.toNat
    | none => badRequest (what ++ " must be a port number")

def parseKind (body : Obj) : Except RequestError TunnelKind :=
  match str? (body.get "kind") with
  | some "http" => .ok .http
  | some "tcp" => .ok .tcp
  | _ => badRequest "kind must be \"http\" or \"tcp\""

def parseTarget (maxJoins : Nat) (body : Obj) : Except RequestError Target :=
  let rawTarget := body.get "target"
  (portNumber maxJoins (ownProperty rawTarget "port") "target.port").map fun port =>
    { host := match str? (ownProperty rawTarget "host") with
        | none | some "" => "127.0.0.1"
        | some host => host
      port }

/-- The normalised subdomain, before it is checked. -/
def rawSubdomain (lower : String → String) (body : Obj) : String :=
  match str? (body.get "subdomain") with
  | some s => trim (lower s)
  | none => ""

def parseSubdomain (lower : String → String) (body : Obj) : Except RequestError Label :=
  if rawSubdomain lower body = "" then badRequest "http tunnels need a subdomain"
  else if h : isLabel (rawSubdomain lower body) = true then
    if rawSubdomain lower body ∈ RESERVED_SUBDOMAINS then
      .error (.tunnel ⟨"subdomain_forbidden", rawSubdomain lower body ++ " is reserved"⟩)
    else .ok ⟨rawSubdomain lower body, h⟩
  else badRequest ("subdomain " ++ quote (rawSubdomain lower body) ++ " is not a valid DNS label")

def parseRemotePort (maxJoins : Nat) (body : Obj) : Except RequestError (Option Int) :=
  match body.get "remotePort" with
  | none | some .null => .ok none
  | some x => (portNumber maxJoins (some x) "remotePort").map fun port => some port

def parseAsk (engine : Engine) (body : Obj) : TunnelKind → Except RequestError Ask
  | .http => (parseSubdomain engine.lower body).map .http
  | .tcp => (parseRemotePort engine.maxJoins body).map .tcp

def parseRequest (engine : Engine) (body : Obj) : Except RequestError OpenTunnelRequest := do
  let kind ← parseKind body
  let target ← parseTarget engine.maxJoins body
  let ask ← parseAsk engine body kind
  return { reqId := str? (body.get "reqId"), ask, target }

variable {engine : Engine} {lower : String → String} {body : Obj}

theorem parseRequest_ok {req : OpenTunnelRequest} (h : parseRequest engine body = .ok req) :
    ∃ kind, parseKind body = .ok kind ∧ parseTarget engine.maxJoins body = .ok req.target ∧
      parseAsk engine body kind = .ok req.ask ∧ req.reqId = str? (body.get "reqId") := by
  obtain ⟨kind, hk, h⟩ := bind_ok.mp h
  obtain ⟨target, ht, h⟩ := bind_ok.mp h
  obtain ⟨ask, ha, h⟩ := bind_ok.mp h
  cases h
  exact ⟨kind, hk, ht, ha, rfl⟩

theorem parseSubdomain_ok {sub : Label} (h : parseSubdomain lower body = .ok sub) :
    sub.val = rawSubdomain lower body ∧ sub.val ∉ RESERVED_SUBDOMAINS := by
  unfold parseSubdomain at h
  split at h
  · cases h
  split at h
  · split at h
    · cases h
    · rename_i hr
      cases h
      exact ⟨rfl, hr⟩
  · cases h

/-- A request for an http tunnel names a label that the relay does not keep for itself. -/
theorem parseRequest_reserved {req : OpenTunnelRequest} {sub : Label} (h : parseRequest engine body = .ok req)
    (hs : req.ask = .http sub) : sub.val = rawSubdomain engine.lower body ∧ sub.val ∉ RESERVED_SUBDOMAINS := by
  obtain ⟨kind, -, -, ha, -⟩ := parseRequest_ok h
  cases kind with
  | http =>
    obtain ⟨sub', hsub, ha⟩ := map_ok.mp ha
    cases ha.trans hs
    exact parseSubdomain_ok hsub
  | tcp =>
    obtain ⟨port, -, ha⟩ := map_ok.mp ha
    cases ha.trans hs

/-! ## `openTunnel` -/

/-- `JSON.stringify` leaves out what is undefined. -/
def reqIdField (reqId : Option String) : Obj := (reqId.map fun id => ("reqId", .str id)).toList

def tunnelOk (cfg : Config) (reqId : Option String) (tn : Tunnel) : Frame :=
  .control FrameType.tunnelOk (reqIdField reqId ++ [("tunnelId", .str tn.id)] ++
    match tn.place with
    | .http sub => [("kind", .str "http"), ("subdomain", .str sub.val), ("publicUrl", .str (publicUrl cfg tn))]
    | .tcp port => [("kind", .str "tcp"), ("publicPort", .num (.fin port)), ("publicHost", .str cfg.publicTcpHost)])

def tunnelError (reqId : Option String) (code message : String) : Frame :=
  .control FrameType.error (reqIdField reqId ++ [("code", .str code), ("message", .str message)])

/-- The registry afterwards, and the reply, unless there is a bind to wait for. -/
def openTunnel (cfg : Config) (engine : Engine) (s : Relay) (agent : Nat) (r : Registrant) (body : Obj)
    (id : String) : Relay × Option Frame :=
  let reqId := str? (body.get "reqId")
  match parseRequest engine body with
  | .error e => (s, some (tunnelError reqId e.code e.message))
  | .ok req =>
    match s.begin cfg agent r req id with
    | .error e => (s, some (tunnelError reqId e.code e.message))
    | .ok s' =>
      (s', match req.ask with
        | .http _ => s'.tunnels.getLast?.map (tunnelOk cfg reqId)
        | .tcp _ => none)

/-- The rest, for the tunnel `tn` at `t`, whose request had the `reqId`. -/
def finishTunnel (cfg : Config) (s : Relay) (t : Nat) (tn : Tunnel) (reqId : Option String) (bind : Bind) :
    Option (Relay × Frame) :=
  (s.resume t tn bind).map fun
    | (s', none) => (s', tunnelOk cfg reqId tn)
    | (s', some e) => (s', tunnelError reqId e.code e.message)

end UpTunnel
