import Mathlib.Data.Rat.Defs
import UpTunnel.Client.Agent

/-!
# UpTunnel.Client.Sessions

`runForever` and `session` of `client-node/src/agent.ts`: one WebSocket after the other, each with listeners and
timers that close over variables of its own and act on the fields of the one `Agent`.

`AgentRun.step` is one event: of a WebSocket or of a timer of its session, of a local socket, or of the process.
-/

namespace UpTunnel

open Js Hub

def CLIENT_ID : String := "uptunnel-node/0.1.0"

/-- `ws.readyState` -/
inductive ReadyState where
  | connecting
  | «open»
  | closing
  | closed
  deriving DecidableEq, Repr

/-- `ws.close()` and `ws.terminate()`: the `close` event is still to come. -/
def ReadyState.close : ReadyState → ReadyState
  | .closed => .closed
  | _ => .closing

/-- The configuration, and what the platform gives. -/
structure RunEnv where
  /-- `cfg.tunnels` -/
  specs : List TunnelSpec
  token : String
  name : String
  pingIntervalMs : ℚ
  pingTimeoutMs : ℚ
  /-- `primaryLanIp()` -/
  lanIp : Option String
  bufferedAmount : Nat → Nat

def RunEnv.wire (env : RunEnv) : WireEnv := Agent.wireEnv env.bufferedAmount

def RunEnv.hello (env : RunEnv) : Frame :=
  .control FrameType.hello
    [("version", .num (.fin PROTOCOL_VERSION)), ("token", .str env.token), ("name", .str env.name),
      ("client", .str CLIENT_ID), ("lanIp", env.lanIp.elim .null .str)]

/-- The variables of one call of `session()`, and its WebSocket. -/
structure ClientSession where
  settled : Bool
  handshook : Bool
  /-- The interval of the pings runs. -/
  ping : Bool
  /-- `pongDeadline` is not null; where `pongArmed` is false, its timer has fired or was cleared. -/
  pongDeadline : Bool
  pongArmed : Bool
  /-- The timer of the handshake runs. -/
  handshakeTimer : Bool
  readyState : ReadyState
  /-- Ghost: every frame handed to `ws.send`, with the address of the stream whose method sent it. -/
  sent : List (Option Nat × Frame)
  /-- Ghost: every frame that has arrived. -/
  received : List Frame

def ClientSession.new : ClientSession where
  settled := false
  handshook := false
  ping := false
  pongDeadline := false
  pongArmed := false
  handshakeTimer := false
  readyState := .connecting
  sent := []
  received := []

structure AgentRun where
  agent : Agent
  /-- `this.ws`, by the number of its session. -/
  ws : Option Nat
  sessions : List ClientSession
  /-- Ghost: the session that each stream object was made in. -/
  origin : List Nat
  stopping : Bool
  /-- `runForever` has thrown an `AuthError`. -/
  rejected : Bool

/-- `err instanceof AuthError` -/
def HandshakeError.isAuth : HandshakeError → Bool
  | .refused code _ => code = "unauthorized" || code = "bad_version"
  | _ => false

/-- The stream that an event of a local socket or of a dial is about. -/
def Agent.Event.address? : Agent.Event → Option Nat
  | .dialed x _ => some x
  | .dialFailed x _ => some x
  | .data x _ => some x
  | .end x => some x
  | .drain x => some x
  | .error x => some x
  | .close x => some x
  | _ => none

namespace AgentRun

def start : AgentRun where
  agent := Agent.new
  ws := none
  sessions := []
  origin := []
  stopping := false
  rejected := false

inductive Event where
  /-- `runForever` calls `session()`. -/
  | connect
  | stop
  /-- Of a local socket or a dial. -/
  | local (e : Agent.Event)
  | poll (buffered : Nat)
  | open (k : Nat)
  | message (k : Nat) (data : Bytes) (isBinary flushed : Bool)
  | pong (k : Nat)
  | error (k : Nat)
  | close (k : Nat) (code : Nat)
  /-- The other side begins to close. -/
  | closing (k : Nat)
  | handshakeTimeout (k : Nat)
  | pingTick (k : Nat)
  | pongTimeout (k : Nat)

/-- The session whose WebSocket or timer has the event. -/
def Event.session? : Event → Option Nat
  | .connect | .stop | .local _ | .poll _ => none
  | .open k | .message k _ _ _ | .pong k | .error k | .close k _ | .closing k | .handshakeTimeout k | .pingTick k
  | .pongTimeout k => some k

variable (env : RunEnv) (s : AgentRun)

def update (k : Nat) (f : ClientSession → ClientSession) : AgentRun := { s with sessions := s.sessions.modify k f }

/-- The agent as its methods find it, with what `this.ws` is now. -/
def view : Agent :=
  { s.agent with
    wire := { s.agent.wire with
      closed := s.ws.isNone
      readyOpen := (s.ws.bind (s.sessions[·]?)).any (·.readyState = .open) } }

/-- A method has made the agent `a`. What it has sent went to `this.ws`; it came from the stream at `source`, if it
came from one. -/
def commit (source : Option Nat) (a : Agent) : AgentRun :=
  { s with
    agent := a
    sessions := s.ws.elim s.sessions fun k => s.sessions.modify k fun x =>
      { x with sent := x.sent ++ (a.wire.sent.drop s.agent.wire.sent.length).map (source, ·) } }

/-- The session has an event, if its WebSocket or its timer is in a state for it. -/
def inSession (k : Nat) (p : ClientSession → Bool) (f : ClientSession → Option AgentRun) : Option AgentRun :=
  s.sessions[k]?.bind fun x => if p x then f x else none

def teardownSession : AgentRun := { s.commit none (s.view.teardownSession env.wire) with ws := none }

/-- `finish(err)`; `auth` says that `err` is an `AuthError`. -/
def finish (k : Nat) (auth : Bool) : AgentRun :=
  if s.sessions[k]?.any (·.settled) then s
  else
    let s := s.update k fun x =>
      { x with settled := true, ping := false, pongArmed := false, handshakeTimer := false }
    { s.teardownSession env with rejected := auth }

/-- A frame has come in on the WebSocket of session `k`. -/
def hear (k : Nat) (f : Frame) : AgentRun :=
  { s.update k fun x => { x with received := x.received ++ [f] } with
    agent := { s.agent with wire := { s.agent.wire with received := s.agent.wire.received ++ [f] } } }

/-- The stream that a frame is for. -/
def target : Frame → Option Nat
  | .control .. => none
  | .stream type id _ => if type = FrameType.streamOpen then none else s.agent.streams.lookup id

/-- A stream object made just now was made in session `k`. -/
def claim (k : Nat) : AgentRun :=
  { s with origin := s.origin ++ List.replicate (s.agent.objs.length - s.origin.length) k }

/-- The `message` listener of session `k`, which is `x`, after `decodeFrame`. -/
def onMessage (k : Nat) (x : ClientSession) (f : Frame) (flushed : Bool) : Except JsError AgentRun :=
  let s := s.hear k f
  if x.handshook then
    (s.view.handleFrame env.wire flushed f).map fun a => (s.commit (s.target f) a).claim k
  else
    (s.view.handleHandshake f).map fun
      | .error e => (s.update k fun x => { x with readyState := x.readyState.close }).finish env k e.isAuth
      | .ok a =>
        let s := (s.commit none a).update k fun x => { x with handshook := true, handshakeTimer := false }
        let s := s.commit none (s.view.registerTunnels env.wire env.specs)
        s.update k fun x => { x with ping := decide (0 < env.pingIntervalMs) || x.ping }

/-- `none` where the event is not possible, or ends the process with an uncaught exception. -/
def step (s : AgentRun) : Event → Option AgentRun
  | .connect =>
    if s.stopping || s.rejected || s.sessions.any (!·.settled) then none
    else some { s with ws := some s.sessions.length, sessions := s.sessions ++ [ClientSession.new] }
  | .stop =>
    let s := { s with stopping := true }
    some (s.ws.elim s fun k => s.update k fun x => { x with readyState := x.readyState.close })
  | .local e =>
    e.address?.bind fun x => (s.view.step env.wire env.specs e).map (s.commit (some x))
  | .poll buffered => (s.view.step env.wire env.specs (.poll buffered)).map (s.commit none)
  | .open k =>
    s.inSession k (·.readyState = .connecting) fun _ => some <|
      s.update k fun x =>
        { x with readyState := .open, sent := x.sent ++ [(none, env.hello)], handshakeTimer := true }
  | .message k data isBinary flushed =>
    s.inSession k (fun x => x.readyState = .open || x.readyState = .closing) fun x =>
      if !isBinary then some s
      else
        match decodeFrame data with
        | .error _ => some s
        | .ok f => (s.onMessage env k x f flushed).toOption
  | .pong k =>
    s.inSession k (fun x => x.readyState = .open || x.readyState = .closing) fun _ => some <|
      s.update k fun x => { x with pongDeadline := false, pongArmed := false }
  | .error k =>
    s.inSession k (·.readyState ≠ .closed) fun _ => some <|
      (s.update k fun x => { x with readyState := .closing }).finish env k false
  | .close k code =>
    s.inSession k (·.readyState ≠ .closed) fun _ => some <|
      (s.update k fun x => { x with readyState := .closed }).finish env k (code = 4001 || code = 4002)
  | .closing k =>
    s.inSession k (·.readyState = .open) fun _ => some <| s.update k fun x => { x with readyState := .closing }
  | .handshakeTimeout k =>
    s.inSession k (·.handshakeTimer) fun x =>
      let s := s.update k fun x => { x with handshakeTimer := false }
      some <|
        if x.handshook then s
        else (s.update k fun x => { x with readyState := x.readyState.close }).finish env k false
  | .pingTick k =>
    s.inSession k (·.ping) fun _ => some <|
      s.update k fun x =>
        -- Only the oldest unanswered ping has a deadline.
        if x.readyState = .open ∧ 0 < env.pingTimeoutMs ∧ x.pongDeadline = false then
          { x with pongDeadline := true, pongArmed := true }
        else x
  | .pongTimeout k =>
    s.inSession k (·.pongArmed) fun _ => some <|
      s.update k fun x => { x with pongArmed := false, readyState := x.readyState.close }

end AgentRun

end UpTunnel
