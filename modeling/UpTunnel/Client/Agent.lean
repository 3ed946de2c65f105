import UpTunnel.Owner

/-!
# UpTunnel.Client.Agent

`Agent` of `client-node/src/agent.ts`, over one WebSocket: the handshake, the registration of its
tunnels, the frames for its streams, and teardown. What it shares with `AgentSession` is `Hub`.

`step` is one event: of a local socket or a dial, an inbound frame, or the WebSocket's. Its first
frame is HELLO, which goes out before anything here happens.
-/

namespace UpTunnel

open Js

def WS_MAX_BUFFERED : Int := 8 * 1024 * 1024

structure Agent extends Hub ClientStream where
  /-- The spec registered under a tunnel id. -/
  tunnels : Dict String TunnelSpec
  /-- The spec of a request that has no reply yet. -/
  pending : Dict String TunnelSpec
  window : Int
  handshook : Bool

/-- Why a handshake fails; `refused` with the code `unauthorized` or `bad_version` is an
`AuthError`, after which the agent stops. -/
inductive HandshakeError where
  | notControl
  | refused (code message : String)
  | notHelloOk (type : Nat)
  deriving DecidableEq, Repr

namespace Agent

def new : Agent where
  objs := []
  streams := ∅
  wire :=
    { closed := false, readyOpen := true, congested := false, congestionTimer := false
      sent := [], received := [] }
  tunnels := ∅
  pending := ∅
  window := 256 * 1024
  handshook := false

/-- What the agent's `send` reads. -/
def wireEnv (bufferedAmount : Nat → Nat) : WireEnv := ⟨WS_MAX_BUFFERED, bufferedAmount⟩

/-- A method of `ClientStream` as `Hub` calls it. -/
def method (m : ClientCtx → ClientCtx) : ClientStream → Wire → Bool → ClientStream × Wire := fun s w l =>
  ((m ⟨s, w, l⟩).self, (m ⟨s, w, l⟩).wire)

def methodE (m : ClientCtx → Except JsError ClientCtx) :
    ClientStream → Wire → Bool → Except JsError (ClientStream × Wire) :=
  fun s w l => (m ⟨s, w, l⟩).map fun c => (c.self, c.wire)

variable (env : WireEnv)

/-! ## Lifecycle -/

def handleHandshake (a : Agent) : Frame → Except JsError (Except HandshakeError Agent)
  | .stream .. => .ok (.error .notControl)
  | .control type body =>
    if type = FrameType.error then do
      let code ← body.strOr "code" "error"
      let message ← body.strOr "message" ""
      return .error (.refused code message)
    else if type ≠ FrameType.helloOk then .ok (.error (.notHelloOk type))
    else do
      let advertised ← toNumber? (body.get "streamWindow")
      let window := match advertised.toInt? with
        | some n => if 0 < n then n else a.window
        | none => a.window
      let _ ← body.strOr "agentId" "?"
      return .ok { a with window := window }

def openTunnelBody (reqId : String) (spec : TunnelSpec) : Obj :=
  [("reqId", .str reqId), ("kind", .str (match spec.kind with | .http => "http" | .tcp => "tcp")),
    ("target", .obj [("host", .str spec.targetHost), ("port", .num (.fin spec.targetPort))])] ++
  match spec.kind with
  | .http => (spec.subdomain.map fun sub => ("subdomain", .str sub)).toList
  | .tcp => ((spec.remotePort.filter (· ≠ 0)).map fun port => ("remotePort", .num (.fin port))).toList

/-- One turn of the `forEach` in `registerTunnels`. -/
def registerTunnel (a : Agent) (i : Nat) (spec : TunnelSpec) : Agent :=
  let reqId := toString i
  { a with
    toHub := a.toHub.send env (.control FrameType.openTunnel (openTunnelBody reqId spec))
    pending := a.pending.insert reqId spec }

def registerTunnels (a : Agent) (specs : List TunnelSpec) : Agent :=
  specs.zipIdx.foldl (fun a (spec, i) => a.registerTunnel env i spec) a

/-- `ws` is null from here on. -/
def teardownSession (a : Agent) : Agent :=
  let h := a.toHub.clearCongestion
  let h := h.streams.values.foldl
    (fun h x => h.call x (method fun c => ClientStream.destroy env c "peer_reset")) h
  { a with
    toHub := { h with streams := ∅, wire := { h.wire with closed := true } }
    tunnels := ∅
    pending := ∅ }

/-! ## Frames -/

/-- The address that `onTunnelOk` logs. -/
def publicAddress (body : Obj) : Except JsError String :=
  match body.get "publicUrl" with
  | none | some .null => do
    let host ← body.strOr "publicHost" "?"
    let port ← body.strOr "publicPort" "?"
    return host ++ ":" ++ port
  | some url => url.toStr

def onTunnelOk (a : Agent) (body : Obj) : Except JsError Agent := do
  let reqId ← body.strOr "reqId" ""
  let spec := a.pending.lookup reqId
  let tunnelId ← body.strOr "tunnelId" ""
  let _ ← publicAddress body
  return { a with
    pending := a.pending.erase reqId
    tunnels := match spec with
      | some spec => if tunnelId = "" then a.tunnels else a.tunnels.insert tunnelId spec
      | none => a.tunnels }

def onError (a : Agent) (body : Obj) : Except JsError Agent := do
  let reqId ← body.strOr "reqId" ""
  let _ ← body.strOr "message" ""
  let _ ← body.strOr "code" "error"
  return { a with pending := a.pending.erase reqId }

/-- The new stream starts to dial. -/
def onStreamOpen (a : Agent) (streamId : Nat) (tunnelId : String) : Hub ClientStream :=
  match a.tunnels.lookup tunnelId with
  | none => a.toHub.send env (.reset streamId "unknown_tunnel")
  | some spec =>
    let s := ClientStream.new streamId spec a.window a.wire
    a.toHub.insert streamId (if a.wire.congested then s.setGlobalPause true else s)

/-- The frames for a stream that is open; `flushed` is what `socket.write` returns. -/
def handleStreamFrame (h : Hub ClientStream) (type id : Nat) (payload : Bytes) (flushed : Bool) :
    Except JsError (Hub ClientStream) :=
  match h.streams.lookup id with
  | none =>
    -- The server may still be draining a stream we already tore down.
    .ok (if type ≠ FrameType.streamReset then h.send env (.reset id "unknown_stream") else h)
  | some x =>
    if type = FrameType.streamData then h.run x (methodE fun c => ClientStream.onData env c payload flushed)
    else if type = FrameType.streamEof then h.run x (methodE fun c => ClientStream.onEof env c flushed)
    else if type = FrameType.streamAck then
      .ok (if payload.length ≥ 4 then
          h.call x fun s w _ => (s.onAck (readUInt32BE payload), w)
        else h)
    else if type = FrameType.streamReset then .ok (h.call x (method (ClientStream.onReset env)))
    else .ok h

def handleFrame (a : Agent) (flushed : Bool) : Frame → Except JsError Agent
  | .control type body =>
    if type = FrameType.tunnelOk then a.onTunnelOk body
    else if type = FrameType.error then a.onError body
    else .ok a
  | .stream type id payload =>
    if type = FrameType.streamOpen then
      ((streamFrameJson payload).strOr "tunnelId" "").map fun tunnelId =>
        { a with toHub := a.onStreamOpen env id tunnelId }
    else (handleStreamFrame env a.toHub type id payload flushed).map fun h => { a with toHub := h }

/-- The `message` listener, after `decodeFrame`. -/
def onMessage (specs : List TunnelSpec) (a : Agent) (flushed : Bool) (f : Frame) : Except JsError Agent :=
  if a.handshook then a.handleFrame env flushed f
  else (a.handleHandshake f).map fun
    | .error _ => a.teardownSession env
    | .ok a => { a with handshook := true }.registerTunnels env specs

/-! ## Events -/

inductive Event where
  /-- The local connection is up; `flushed i` is what the `i`-th write of `attach` returns. -/
  | dialed (x : Nat) (flushed : Nat → Bool)
  | dialFailed (x : Nat) (message : String)
  | data (x : Nat) (chunk : Bytes)
  | «end» (x : Nat)
  | drain (x : Nat)
  | error (x : Nat)
  | close (x : Nat)
  | frame (f : Frame) (flushed : Bool)
  /-- The congestion timer fires while `ws.bufferedAmount` is `buffered`. -/
  | poll (buffered : Nat)
  /-- `ws.readyState` is no longer OPEN. -/
  | notOpen
  /-- The session is over. -/
  | teardown

/-- Where the local socket of the stream at `x` is up and can have the event, its new state. -/
def onSocket (h : Hub ClientStream) (x : Nat) (p : Socket → Option Socket) : Option (Hub ClientStream) :=
  match h.objs[x]? with
  | none => none
  | some s =>
    if s.connected then
      (p s.socket).map fun socket => { h with objs := h.objs.set x { s with socket := socket } }
    else none

/-- The stream at `x` has no local connection yet. -/
def dialling (h : Hub ClientStream) (x : Nat) : Bool := h.objs[x]?.any fun s => !s.connected

/-- `none` where the event is not possible, or ends the process with an uncaught exception. -/
def step (specs : List TunnelSpec) (a : Agent) : Event → Option Agent
  | .dialed x flushed =>
    if dialling a.toHub x then
      (a.run x (methodE fun c => ClientStream.attach env c flushed)).toOption.map fun h => { a with toHub := h }
    else none
  | .dialFailed x message =>
    if dialling a.toHub x then
      some { a with toHub := a.call x (method fun c => ClientStream.dialFailed env c message) }
    else none
  | .data x chunk =>
    (onSocket a.toHub x fun k => if k.canRead then some { k with read := k.read ++ [chunk] } else none).map
      fun h => { a with toHub := h.call x (method fun c => ClientStream.onLocalData env c chunk) }
  | .end x =>
    (onSocket a.toHub x fun k =>
      if !k.endSeen && !k.destroyed then some { k with endSeen := true } else none).map
      fun h => { a with toHub := h.call x (method (ClientStream.onLocalEnd env)) }
  | .drain x =>
    (onSocket a.toHub x fun k => if k.needDrain then some k else none).bind
      fun h => (h.run x (methodE (ClientStream.onDrain env))).toOption.map fun h => { a with toHub := h }
  | .error x =>
    (onSocket a.toHub x some).map
      fun h => { a with toHub := h.call x (method fun c => ClientStream.destroy env c "local_error") }
  | .close x =>
    (onSocket a.toHub x fun k => some { k with destroyed := true }).map
      fun h => { a with toHub := h.call x (method ClientStream.finish) }
  | .frame f flushed =>
    ({ a with toHub := { a.toHub with wire := { a.wire with received := a.wire.received ++ [f] } } }.onMessage
      env specs flushed f).toOption
  | .poll buffered =>
    if a.wire.congestionTimer then some { a with toHub := a.toHub.poll env buffered } else none
  | .notOpen => some { a with toHub := { a.toHub with wire := { a.wire with readyOpen := false } } }
  | .teardown => some (a.teardownSession env)

end Agent

end UpTunnel
