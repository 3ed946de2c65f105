import UpTunnel.Lib.Dict
import UpTunnel.Python.HostRewrite
import UpTunnel.Python.Protocol

/-!
# UpTunnel.Python.Agent

`Stream` and `Agent` of `client/uptunnel/client.py`: one WebSocket after the other, and for every tunnelled
connection a task that dials and two that pump.

A task runs undisturbed from one `await` to the next, so a step is such a stretch of one task, or a frame that the
read loop handles. A task that was cancelled is never resumed in its loop: nothing in it catches a CancelledError.

* `Stream.step`: what a stream does that concerns nothing but its own fields and the frames it sends.
* `Agent.step`: all that happens to an agent.
-/

namespace UpTunnel.Python

open Js

def CLIENT_ID : String := "uptunnel-py/0.1.0"

def LOCAL_READ_CHUNK : Nat := 64 * 1024

/-- `d.get(key, default)` -/
def get (body : Py.Dict) (key : String) (default : Py.Val) : Py.Val := (body.lookup key).getD default

/-- What is passed to `send`. -/
inductive Message where
  | control (frameType : Nat) (body : Py.Dict)
  | streamJson (frameType streamId : Nat) (body : Py.Dict)
  | streamData (streamId : Nat) (payload : Bytes)
  | streamOnly (frameType streamId : Nat)
  | streamAck (streamId consumed : Nat)

def Message.encode : Message → Except EncodeError Bytes
  | .control frameType body => Python.control frameType body
  | .streamJson frameType streamId body => Python.streamJson frameType streamId body
  | .streamData streamId payload => Python.streamData streamId payload
  | .streamOnly frameType streamId => Python.streamOnly frameType streamId
  | .streamAck streamId consumed => Python.streamAck streamId consumed

/-! ## `Stream` -/

/-- Where `run` is. -/
inductive RunAt where
  /-- `open_connection` has not come back. -/
  | dialing
  | gathering
  | ended
  deriving DecidableEq, Repr

/-- Where `_to_local` is. -/
inductive ToLocalAt where
  /-- There is no task yet. -/
  | unmade
  /-- `inbox.get()` -/
  | item
  /-- `drain`, behind which `consumed` bytes are acknowledged -/
  | drain (consumed : Nat)
  /-- `drain` of a head that was held back until the EOF -/
  | drainHead
  | returned
  | raised
  | cancelled
  deriving DecidableEq, Repr

/-- Where `_to_server` is. -/
inductive ToServerAt where
  | unmade
  /-- The task has been made and has not run. -/
  | start
  /-- `credit.wait()` -/
  | credit
  /-- `reader.read` -/
  | read
  | returned
  | cancelled
  deriving DecidableEq, Repr

inductive Writer where
  | none
  | «open»
  | closed
  deriving DecidableEq, Repr

def ToLocalAt.cancel : ToLocalAt → ToLocalAt
  | .unmade => .unmade
  | .item => .cancelled
  | .drain _ => .cancelled
  | .drainHead => .cancelled
  | .returned => .returned
  | .raised => .raised
  | .cancelled => .cancelled

def ToServerAt.cancel : ToServerAt → ToServerAt
  | .unmade => .unmade
  | .start => .cancelled
  | .credit => .cancelled
  | .read => .cancelled
  | .returned => .returned
  | .cancelled => .cancelled

def Writer.close : Writer → Writer
  | .none => .none
  | .open => .closed
  | .closed => .closed

structure Stream extends ToLocal where
  /-- Oldest first; `none` is the EOF. -/
  inbox : List (Option Bytes)
  sendCredit : Int
  /-- `credit.is_set()` -/
  credit : Bool
  run : RunAt
  toLocalAt : ToLocalAt
  toServerAt : ToServerAt
  writer : Writer
  finished : Bool
  /-- Ghost: the session that it was made in, and the window it was given. -/
  session : Nat
  window : Int
  /-- Ghost: the frames that the read loop has handed to it. -/
  heard : List (Nat × Bytes)
  /-- Ghost: what it has passed to `agent.send`. -/
  queued : List Message
  /-- Ghost: what it has read from the local socket. -/
  chunks : List Bytes

namespace Stream

def new (id : Nat) (spec : TunnelSpec) (window : Int) (session : Nat) : Stream where
  toToLocal := ToLocal.new id spec
  inbox := []
  sendCredit := window
  credit := true
  run := .dialing
  toLocalAt := .unmade
  toServerAt := .unmade
  writer := .none
  finished := false
  session := session
  window := window
  heard := []
  queued := []
  chunks := []

/-- `finish`, but for `agent.streams`. -/
def finish (s : Stream) : Stream :=
  if s.finished then s
  else
    { s with
      finished := true
      toLocalAt := s.toLocalAt.cancel
      toServerAt := s.toServerAt.cancel
      writer := s.writer.close }

def feed (s : Stream) (payload : Bytes) : Stream := { s with inbox := s.inbox ++ [some payload] }

def feedEof (s : Stream) : Stream := { s with inbox := s.inbox ++ [none] }

def addCredit (s : Stream) (granted : Nat) : Stream :=
  let s := { s with sendCredit := s.sendCredit + granted }
  if 0 < s.sendCredit then { s with credit := true } else s

/-- `_on_stream` once it has found the stream. -/
def onFrame (s : Stream) (frameType : Nat) (payload : Bytes) : Stream :=
  let s := { s with heard := s.heard ++ [(frameType, payload)] }
  if frameType = STREAM_DATA then s.feed payload
  else if frameType = STREAM_EOF then s.feedEof
  else if frameType = STREAM_ACK then
    if 4 ≤ payload.length then s.addCredit (readUInt32BE payload) else s
  else if frameType = STREAM_RESET then s.finish
  else s

/-! ### `_to_local` -/

/-- `_to_local` ends with an exception. -/
def raise (s : Stream) : Stream := { s with running := false, toLocalAt := .raised }

/-- `write_eof`, and `_to_local` returns. -/
def writeEof (s : Stream) : Stream := { s with eofWritten := true, running := false, toLocalAt := .returned }

/-- The STREAM_ACK at the end of a turn. -/
def ack (s : Stream) (consumed : Nat) : Stream × List Message :=
  match streamAck s.id consumed with
  | .error _ => (s.raise, [])
  | .ok _ => ({ s with acked := s.acked ++ [consumed], toLocalAt := .item }, [.streamAck s.id consumed])

variable (maxStrDigits : Nat)

/-- A turn of `_to_local`, until it waits for `drain`. -/
def takeItem (s : Stream) : Option Bytes → Stream × List Message
  | none =>
    if s.headBuf = [] then (s.writeEof, [])
    else
      match rewriteHostHeader maxStrDigits s.headBuf s.spec.target with
      | .error _ => (s.raise, [])
      | .ok out =>
        ({ s with written := s.written ++ [out], headBuf := [], headDone := true, toLocalAt := .drainHead }, [])
  | some payload =>
    match if s.headDone then .ok (s.toToLocal, payload) else s.bufferHead maxStrDigits payload with
    | .error _ => (s.raise, [])
    | .ok (l, out) =>
      let s := { s with toToLocal := l }
      if out = [] then s.ack payload.length
      else ({ s with written := s.written ++ [out], toLocalAt := .drain payload.length }, [])

/-! ### `_to_server` -/

/-- The head of the loop of `_to_server`. -/
def loopHead (s : Stream) : Stream :=
  if s.sendCredit ≤ 0 then { s with credit := false, toServerAt := .credit } else { s with toServerAt := .read }

def reset (s : Stream) (code : String) : Message := .streamJson STREAM_RESET s.id [("code", .str code)]

inductive Event where
  /-- `open_connection` has come back. -/
  | dialed
  /-- It has raised what `run` does not catch. -/
  | dialRaised
  /-- `_to_local` takes an item. -/
  | item
  | drained
  | drainFailed
  /-- `_to_server` begins. -/
  | begin
  /-- `credit.wait()` comes back. -/
  | credited
  | read (chunk : Bytes)
  | readEnd
  | readFailed

/-- The stream behind an event, and what it sends; `none` where the event is not possible. -/
def step (s : Stream) : Event → Option (Stream × List Message)
  | .dialed =>
    if s.run = .dialing then
      some ({ s with run := .gathering, writer := .open, toLocalAt := .item, toServerAt := .start }, [])
    else none
  | .dialRaised => if s.run = .dialing then some ({ s with run := .ended }, []) else none
  | .item =>
    if s.toLocalAt = .item then
      match s.inbox with
      | [] => none
      | item :: inbox => some ({ s with inbox := inbox }.takeItem maxStrDigits item)
    else none
  | .drained =>
    match s.toLocalAt with
    | .drain consumed => some (s.ack consumed)
    | .drainHead => some (s.writeEof, [])
    | .unmade | .item | .returned | .raised | .cancelled => none
  | .drainFailed =>
    match s.toLocalAt with
    | .drain _ => some (s.raise, [])
    | .drainHead => some (s.raise, [])
    | .unmade | .item | .returned | .raised | .cancelled => none
  | .begin => if s.toServerAt = .start then some (s.loopHead, []) else none
  | .credited =>
    if s.toServerAt = .credit ∧ s.credit = true then some ({ s with toServerAt := .read }, []) else none
  | .read chunk =>
    if s.toServerAt = .read ∧ chunk ≠ [] ∧ chunk.length ≤ LOCAL_READ_CHUNK then
      some ({ s with sendCredit := s.sendCredit - chunk.length, chunks := s.chunks ++ [chunk] }.loopHead,
        [.streamData s.id chunk])
    else none
  | .readEnd =>
    if s.toServerAt = .read then some ({ s with toServerAt := .returned }, [.streamOnly STREAM_EOF s.id]) else none
  | .readFailed =>
    if s.toServerAt = .read then some ({ s with toServerAt := .returned }, [s.reset "local_error"]) else none

/-- `gather` comes back: a task has raised or was cancelled, or both have returned. -/
def gatherDone (s : Stream) : Bool :=
  s.toLocalAt = .raised || s.toLocalAt = .cancelled || s.toServerAt = .cancelled ||
    (s.toLocalAt = .returned && s.toServerAt = .returned)

/-- The end of `run` behind a dial. -/
def gathered (s : Stream) : Stream := { s with run := .ended }.finish

def dialFailed (s : Stream) (message : String) : Stream × List Message :=
  ({ s with run := .ended }.finish,
    [.streamJson STREAM_RESET s.id [("code", .str "dial_failed"), ("message", .str message)]])

end Stream

/-! ## `Agent` -/

/-- Where the loop of `run_forever` is. -/
inductive Phase where
  | down
  /-- HELLO has been sent. -/
  | greeting
  | up
  /-- An `AuthError` has ended it. -/
  | rejected
  deriving DecidableEq, Repr

/-- The configuration, and what the platform gives. -/
structure Env where
  token : String
  name : String
  tunnels : List TunnelSpec
  /-- `_primary_lan_ip()` -/
  lanIp : Option String
  maxStrDigits : Nat
  /-- `str.isprintable`, from U+0080 on -/
  printable : Char → Bool

def Env.hello (env : Env) : Message :=
  .control HELLO
    [("version", .int PROTOCOL_VERSION), ("token", .str env.token), ("name", .str env.name),
      ("client", .str CLIENT_ID), ("lanIp", env.lanIp.elim .none .str)]

def openBody (reqId : String) (spec : TunnelSpec) : Py.Dict :=
  [("reqId", .str reqId), ("kind", .str spec.kind),
    ("target", .dict [("host", .str spec.targetHost), ("port", .int spec.targetPort)])] ++
    if spec.kind = "http" then [("subdomain", .str spec.subdomain)]
    else if spec.remotePort ≠ 0 then [("remotePort", .int spec.remotePort)]
    else []

structure Agent where
  /-- Every stream that was made, by its address. -/
  objs : List Stream
  /-- `streams`, by address. -/
  streams : Dict Nat Nat
  tunnels : Dict String TunnelSpec
  window : Int
  /-- `_out`, with the address of the stream that has sent it, if one has. -/
  out : List (Option Nat × Message)
  pending : Dict String TunnelSpec
  phase : Phase
  /-- Ghost: for every session what was handed to `ws.send`. -/
  sent : List (List (Option Nat × Message))

namespace Agent

def new : Agent where
  objs := []
  streams := ∅
  tunnels := ∅
  window := 256 * 1024
  out := []
  pending := ∅
  phase := .down
  sent := []

def send (a : Agent) (source : Option Nat) (m : Message) : Agent := { a with out := a.out ++ [(source, m)] }

/-- The frames that the stream at `x` has passed to `send`. -/
def sendAll (a : Agent) (x : Nat) (ms : List Message) : Agent :=
  { a with
    out := a.out ++ ms.map (some x, ·)
    objs := a.objs.modify x fun s => { s with queued := s.queued ++ ms } }

/-- The stream at `x` has become `r.1` and has sent `r.2`. -/
def put (a : Agent) (x : Nat) (r : Stream × List Message) : Agent :=
  { a with objs := a.objs.set x r.1 }.sendAll x r.2

/-- The stream at `x` finishes in becoming `s'`: the first time, its id leaves the table. -/
def finishing (a : Agent) (x : Nat) (s : Stream) (r : Stream × List Message) : Agent :=
  let a := a.put x r
  if s.finished then a else { a with streams := a.streams.erase s.id }

/-! ### Frames -/

variable (env : Env)

def onControl (a : Agent) (frameType : Nat) (body : Py.Dict) : Agent :=
  let reqId := Py.str env.printable (get body "reqId" (.str ""))
  if frameType = TUNNEL_OK then
    let spec := a.pending.lookup reqId
    let a := { a with pending := a.pending.erase reqId }
    let tunnelId := Py.str env.printable (get body "tunnelId" (.str ""))
    match spec with
    | some spec => if tunnelId ≠ "" then { a with tunnels := a.tunnels.insert tunnelId spec } else a
    | none => a
  else if frameType = ERROR then { a with pending := a.pending.erase reqId }
  else a

def onStreamOpen (a : Agent) (streamId : Nat) (payload : Bytes) : Agent :=
  let body := payloadJson env.maxStrDigits payload
  match a.tunnels.lookup (Py.str env.printable (get body "tunnelId" (.str ""))) with
  | none => a.send none (.streamJson STREAM_RESET streamId [("code", .str "unknown_tunnel")])
  | some spec =>
    { a with
      objs := a.objs ++ [Stream.new streamId spec a.window (a.sent.length - 1)]
      streams := a.streams.insert streamId a.objs.length }

def onStream (a : Agent) (frameType streamId : Nat) (payload : Bytes) : Agent :=
  if frameType = STREAM_OPEN then a.onStreamOpen env streamId payload
  else
    match a.streams.lookup streamId with
    | none =>
      -- The server may still be draining a stream that was torn down here.
      if frameType ≠ STREAM_RESET then
        a.send none (.streamJson STREAM_RESET streamId [("code", .str "unknown_stream")])
      else a
    | some x =>
      match a.objs[x]? with
      | none => a
      | some s =>
        if frameType = STREAM_RESET then a.finishing x s (s.onFrame frameType payload, [])
        else a.put x (s.onFrame frameType payload, [])

/-- One turn of `_read_loop`. -/
def onMessage (a : Agent) (data : Bytes) : Agent :=
  match decode env.maxStrDigits data with
  | .error _ => a
  | .ok (.control frameType body) => a.onControl env frameType body
  | .ok (.stream frameType streamId payload) => a.onStream env frameType streamId payload

/-! ### Sessions -/

/-- The beginning of `_session`, up to the HELLO. -/
def connect (a : Agent) : Agent :=
  { a with
    streams := ∅
    tunnels := ∅
    pending := ∅
    -- Frames queued for the dead session are dropped.
    out := []
    phase := .greeting
    sent := a.sent ++ [[(none, env.hello)]] }

/-- `reqId` counts from `i`. -/
def register (a : Agent) (i : Nat) : List TunnelSpec → Agent
  | [] => a
  | spec :: specs =>
    let reqId := toString i
    (({ a with pending := a.pending.insert reqId spec }).send none
      (.control OPEN_TUNNEL (openBody reqId spec))).register (i + 1) specs

/-- `code in ("unauthorized", "bad_version")` -/
def fatal : Py.Val → Bool
  | .str code => code = "unauthorized" || code = "bad_version"
  | .none | .bool _ | .int _ | .float _ | .list _ | .dict _ => false

/-- What `_session` does with the answer to its HELLO. -/
def onReply (a : Agent) (data : Bytes) : Agent :=
  match decode env.maxStrDigits data with
  | .error _ => { a with phase := .down }
  | .ok (.stream _ _ _) => { a with phase := .down }
  | .ok (.control frameType body) =>
    if frameType = ERROR then
      { a with phase := if fatal (get body "code" (.str "error")) then .rejected else .down }
    else if frameType ≠ HELLO_OK then { a with phase := .down }
    else
      match Py.toInt env.maxStrDigits (get body "streamWindow" (.int a.window)) with
      | none => { a with phase := .down }
      | some window => { a with window := window, phase := .up }.register 0 env.tunnels

/-- The `finally` of `_session`. -/
def disconnect (a : Agent) : Agent :=
  { a with
    objs := a.streams.values.foldl (fun objs x => objs.modify x (·.finish)) a.objs
    streams := ∅
    phase := .down }

inductive Event where
  /-- The WebSocket is open. -/
  | connect
  /-- The first frame of the session. -/
  | reply (data : Bytes)
  /-- The session ends before there is one. -/
  | unanswered
  | message (data : Bytes)
  /-- The session ends. -/
  | disconnect
  /-- `_sender` sends a frame. -/
  | deliver
  | stream (x : Nat) (e : Stream.Event)
  /-- `open_connection` has failed. -/
  | dialFailed (x : Nat) (message : String)
  | gathered (x : Nat)

/-- `none` where the event is not possible. -/
def step (a : Agent) : Event → Option Agent
  | .connect => if a.phase = .down then some (a.connect env) else none
  | .reply data => if a.phase = .greeting then some (a.onReply env data) else none
  | .unanswered => if a.phase = .greeting then some { a with phase := .down } else none
  | .message data => if a.phase = .up then some (a.onMessage env data) else none
  | .disconnect => if a.phase = .up then some a.disconnect else none
  | .deliver =>
    match a.out with
    | [] => none
    | p :: out =>
      if a.phase = .up then
        some { a with out := out, sent := a.sent.modify (a.sent.length - 1) (· ++ [p]) }
      else none
  | .stream x e => a.objs[x]?.bind fun s => (s.step env.maxStrDigits e).map (a.put x)
  | .dialFailed x message =>
    a.objs[x]?.bind fun s =>
      if s.run = .dialing then some (a.finishing x s (s.dialFailed message)) else none
  | .gathered x =>
    a.objs[x]?.bind fun s =>
      if s.run = .gathering ∧ s.gatherDone = true then some (a.finishing x s (s.gathered, [])) else none

end Agent

end UpTunnel.Python
