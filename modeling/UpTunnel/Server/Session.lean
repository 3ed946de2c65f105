import UpTunnel.Owner

/-!
# UpTunnel.Server.Session

`AgentSession` of `server/src/agent.ts`: the streams of one connected device. What it shares with
the device's `Agent` is `Hub`; here are stream ids, `openStream`, the frames for streams and
`destroy`. The tunnels it owns are in `Server.Registry`.

`step` is one event of a session: a public connection that a frontend hands over, an event of a
public socket, an inbound frame, a control frame sent by the control plane, or the WebSocket's.
-/

namespace UpTunnel

open Js

def MAX_STREAM_ID : Nat := 0xfffffffe

structure AgentSession extends Hub Stream where
  /-- The id of the tunnel a stream belongs to. -/
  streamTunnels : Dict Nat String
  /-- `tunnel.openConns` and `tunnel.totalConns`, by the tunnel's id. -/
  openConns : String → Nat
  totalConns : String → Nat
  nextStreamId : Nat

namespace AgentSession

def new : AgentSession where
  objs := []
  streams := ∅
  wire :=
    { closed := false, readyOpen := true, congested := false, congestionTimer := false
      sent := [], received := [] }
  streamTunnels := ∅
  openConns := fun _ => 0
  totalConns := fun _ => 0
  nextStreamId := 1

/-- The HELLO_OK with which the control plane's `handshake` begins a session. -/
def helloOk (agentId : String) (heartbeatMs streamWindow : Int) (httpDomain : String) : Frame :=
  .control FrameType.helloOk
    [("agentId", .str agentId), ("heartbeatMs", .num (.fin heartbeatMs)),
      ("streamWindow", .num (.fin streamWindow)), ("httpDomain", .str httpDomain),
      ("serverVersion", .num (.fin PROTOCOL_VERSION))]

/-! ## Streams -/

/-- The loop of `allocStreamId`, with the tries that are left; the second component is the new
`nextStreamId`. -/
def allocFrom (streams : Dict Nat Nat) : Nat → Nat → Option Nat × Nat
  | 0, next => (none, next)
  | n + 1, id =>
    let next := if id ≥ MAX_STREAM_ID then 1 else id + 1
    if id ∈ streams then allocFrom streams n next else (some id, next)

def allocStreamId (s : AgentSession) : Option Nat × Nat := allocFrom s.streams 1024 s.nextStreamId

/-- The tunnel's share of `onStreamFinished`. -/
def onStreamFinished (s : AgentSession) (id : Nat) : AgentSession :=
  match s.streamTunnels.lookup id with
  | none => s
  | some tunnel =>
    { s with
      openConns := Function.update s.openConns tunnel (s.openConns tunnel - 1)
      streamTunnels := s.streamTunnels.erase id }

/-- `h` is what a method has made of the streams; some may have left the table. -/
def settle (s : AgentSession) (h : Hub Stream) : AgentSession :=
  { (s.streams.keys.filter (· ∉ h.streams)).foldl onStreamFinished s with toHub := h }

@[simp] theorem toHub_settle (s : AgentSession) (h : Hub Stream) : (s.settle h).toHub = h := rfl

/-- A method of `Stream` as `Hub` calls it. -/
def method (m : Ctx → Ctx) : Stream → Wire → Bool → Stream × Wire := fun s w l =>
  ((m ⟨s, w, l⟩).self, (m ⟨s, w, l⟩).wire)

def methodE (m : Ctx → Except JsError Ctx) : Stream → Wire → Bool → Except JsError (Stream × Wire) :=
  fun s w l => (m ⟨s, w, l⟩).map fun c => (c.self, c.wire)

variable (env : WireEnv) (streamWindow : Int)

/-- What `openStream` does to the stream it has just entered in the table. -/
def setUp (preread : Bytes) (c : Ctx) : Ctx :=
  let c := if c.wire.congested then { c with self := c.self.setGlobalPause true } else c
  let c := if preread.length > 0 then Stream.writePreread env c preread else c
  { c with self := c.self.resume }

/-- Where no id is free the connection is dropped. -/
def openStream (s : AgentSession) (tunnelId remoteAddr : String) (socket : Socket) (preread : Bytes) :
    AgentSession :=
  let (id?, next) := s.allocStreamId
  let s := { s with nextStreamId := next }
  match id? with
  | none => s
  | some id =>
    let h := s.toHub.send env (.streamJson FrameType.streamOpen id
      [("tunnelId", .str tunnelId), ("remoteAddr", .str remoteAddr)])
    let a := h.objs.length
    let h := h.insert id (Endpoint.new id socket streamWindow s.wire)
    { s with
      toHub := h.call a (method (setUp env preread))
      streamTunnels := s.streamTunnels.insert id tunnelId
      openConns := Function.update s.openConns tunnelId (s.openConns tunnelId + 1)
      totalConns := Function.update s.totalConns tunnelId (s.totalConns tunnelId + 1) }

/-! ## Inbound frames -/

/-- The stream part of `handleFrame`; `flushed` is what `socket.write` returns. -/
def handleStreamFrame (h : Hub Stream) (type id : Nat) (payload : Bytes) (flushed : Bool) :
    Except JsError (Hub Stream) :=
  match h.streams.lookup id with
  | none =>
    -- Racing close: the public socket went away while the agent was still writing.
    .ok (if type ≠ FrameType.streamReset then h.send env (.reset id "unknown_stream") else h)
  | some a =>
    if type = FrameType.streamData then h.run a (methodE fun c => Stream.onData env c payload flushed)
    else if type = FrameType.streamEof then h.run a (methodE (Stream.onEof env))
    else if type = FrameType.streamAck then
      .ok (if payload.length ≥ 4 then
          h.call a fun s w _ => (s.onAck (readUInt32BE payload), w)
        else h)
    else if type = FrameType.streamReset then .ok (h.call a (method (Ctx.onReset env)))
    else .ok h

/-! ## Teardown -/

/-- `closeAllFor`, which `onClosed` calls, is the registry's. -/
def destroy (s : AgentSession) : AgentSession :=
  if s.wire.closed then s
  else
    let h := { s.toHub with wire := { s.wire with closed := true } }.clearCongestion
    let h := h.streams.values.foldl
      (fun h a => h.call a (method fun c => c.destroy env "agent_gone")) h
    { s.settle h with toHub := { h with streams := ∅ }, streamTunnels := ∅ }

/-! ## Events -/

inductive Event where
  /-- A frontend hands over a connection from which it has read `chunks`: none for TCP, the request
  head for HTTP. -/
  | accept (tunnelId remoteAddr : String) (chunks : List Bytes)
  | data (a : Nat) (chunk : Bytes)
  | «end» (a : Nat)
  | drain (a : Nat)
  | error (a : Nat)
  | close (a : Nat)
  | frame (f : Frame) (flushed : Bool)
  /-- The control plane sends a control frame. -/
  | control (type : Nat) (body : Obj)
  /-- The congestion timer fires while `ws.bufferedAmount` is `buffered`. -/
  | poll (buffered : Nat)
  /-- `ws.readyState` is no longer OPEN. -/
  | notOpen
  /-- The WebSocket is gone. -/
  | destroy

/-- A connection as a frontend hands it over: paused. -/
def accepted (chunks : List Bytes) : Socket := { Socket.fresh with paused := true, read := chunks }

/-- Where the socket of the stream at `a` can have the event, the new state of the socket. -/
def onSocket (h : Hub Stream) (a : Nat) (p : Socket → Option Socket) : Option (Hub Stream) :=
  match h.objs[a]? with
  | none => none
  | some s => (p s.socket).map fun socket => { h with objs := h.objs.set a { s with socket := socket } }

/-- `none` where the event is not possible, or ends the process with an uncaught exception. -/
def step (s : AgentSession) : Event → Option AgentSession
  | .accept tunnelId remoteAddr chunks =>
    some (s.openStream env streamWindow tunnelId remoteAddr (accepted chunks) chunks.flatten)
  | .data a chunk =>
    (onSocket s.toHub a fun k => if k.canRead then some { k with read := k.read ++ [chunk] } else none).map
      fun h => s.settle (h.call a (method fun c => Stream.onSocketData env c chunk))
  | .end a =>
    (onSocket s.toHub a fun k =>
      if !k.endSeen && !k.destroyed then some { k with endSeen := true } else none).map
      fun h => s.settle (h.call a (method (Stream.onSocketEnd env)))
  | .drain a =>
    (onSocket s.toHub a fun k => if k.needDrain then some k else none).bind
      fun h => (h.run a (methodE (Stream.onDrain env))).toOption.map s.settle
  | .error a => some (s.settle (s.call a (method fun c => c.destroy env "socket_error")))
  | .close a =>
    (onSocket s.toHub a fun k => some { k with destroyed := true }).map
      fun h => s.settle (h.call a (method Ctx.finish))
  | .frame f flushed =>
    let h := { s.toHub with wire := { s.wire with received := s.wire.received ++ [f] } }
    match f with
    | .control .. => some { s with toHub := h }
    | .stream type id payload => (handleStreamFrame env h type id payload flushed).toOption.map s.settle
  | .control type body => some { s with toHub := s.toHub.send env (.control type body) }
  | .poll buffered =>
    if s.wire.congestionTimer then some { s with toHub := s.toHub.poll env buffered } else none
  | .notOpen => some { s with toHub := { s.toHub with wire := { s.wire with readyOpen := false } } }
  | .destroy => some (s.destroy env)

end AgentSession

end UpTunnel
