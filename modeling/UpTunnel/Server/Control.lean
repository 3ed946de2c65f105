import UpTunnel.Server.Request
import UpTunnel.Server.Session
import UpTunnel.Server.WellKept

/-!
# UpTunnel.Server.Control

`ControlPlane.onConnection` of `server/src/control.ts`: one control connection, from its first message to
its end, with `reject`, `handshake` and the control frames of `AgentSession.handleFrame`; and `emit` of
`server/src/log.ts`, as far as it can throw. Only the lines that log what a peer has sent appear: the fields
of all others are strings and numbers.

* `LogEnv.emit_error_iff`: a line is not written where one of its fields nests too deep.
* `listener_ok_iff`: which messages the `message` listener throws on; nothing catches the exception.
* `proper_iff`: when it is that every session of a connection was opened by its first message, and a
  rejected connection opens nothing.
* `not_listener_ok`, `not_proper`: neither holds of every message.
-/

namespace UpTunnel

open Js

/-! ## The log -/

inductive Level where
  | debug
  | info
  | warn
  | error

def ORDER : Level → Nat
  | .debug => 10
  | .info => 20
  | .warn => 30
  | .error => 40

/-- What `emit` goes by. -/
structure LogEnv where
  threshold : Nat
  asJson : Bool
  /-- How many arrays and objects, one in the other, `JSON.stringify` gets through inside the outermost one
  before the stack ends. -/
  maxNesting : Nat

namespace LogEnv

variable (env : LogEnv)

/-- `JSON.stringify(x)` -/
def stringify (x : Json) : Except JsError Unit :=
  if env.maxNesting + 1 < x.nesting then .error stackOverflow else .ok ()

/-- The line itself is left out. -/
def emit (level : Level) (fields : Obj) : Except JsError Unit :=
  if ORDER level < env.threshold then .ok ()
  else if env.asJson then env.stringify (.obj fields)
  else fields.forM fun
    | (_, .str _) => .ok ()
    | (_, v) => env.stringify v

/-- The log has lines of this level, and `JSON.stringify` does not get to the bottom of a field `v` of one. -/
def Deep (level : Level) (v : Json) : Prop :=
  env.threshold ≤ ORDER level ∧ (if env.asJson then env.maxNesting else env.maxNesting + 1) < v.nesting

theorem forM_error_iff {α : Type} {f : α → Except JsError Unit} : ∀ xs : List α,
    (∃ e, xs.forM f = .error e) ↔ ∃ x ∈ xs, ∃ e, f x = .error e
  | [] => by simp [pure, Except.pure]
  | x :: xs => by
    have ih := forM_error_iff (f := f) xs
    simp only [List.forM, List.mem_cons, exists_eq_or_imp, ← ih]
    cases f x <;> simp [bind, Except.bind]

theorem stringify_error_iff {v : Json} : (∃ e, env.stringify v = .error e) ↔ env.maxNesting + 1 < v.nesting := by
  unfold stringify
  split
  · rename_i hlt
    simp [hlt]
  · rename_i hlt
    simp [hlt]

theorem emit_error_iff {level : Level} {fields : Obj} :
    (∃ e, env.emit level fields = .error e) ↔ ∃ key v, (key, v) ∈ fields ∧ env.Deep level v := by
  unfold emit Deep
  split
  · rename_i hlow
    simp only [reduceCtorEq, exists_false, false_iff]
    rintro ⟨-, -, -, hle, -⟩
    exact absurd hlow (not_lt.mpr hle)
  · rename_i hlow
    have hle : env.threshold ≤ ORDER level := not_lt.mp hlow
    split
    · -- the fields are inside the one object
      have hdeep : env.maxNesting + 1 < (Json.obj fields).nesting ↔
          ∃ key v, (key, v) ∈ fields ∧ env.maxNesting < v.nesting := by
        rw [Json.nesting, Nat.add_lt_add_iff_right, ← not_le, Json.nestingFields_le]
        simp
      simp only [hle, true_and, ← hdeep, stringify_error_iff]
    · rw [forM_error_iff]
      simp only [hle, true_and, Prod.exists]
      refine exists_congr fun key => exists_congr fun v => and_congr_right fun _ => ?_
      cases v with
      | str => simp [Json.nesting]
      | null | bool | num | arr | obj => simp only [stringify_error_iff]

end LogEnv

/-! ## A connection -/

def CLOSE_BAD_REQUEST : Nat := 4000
def CLOSE_UNAUTHORIZED : Nat := 4001
def CLOSE_BAD_VERSION : Nat := 4002

/-- What a control connection reads and never changes. -/
structure ControlEnv extends Engine where
  cfg : Config
  wire : WireEnv
  log : LogEnv
  remoteAddr : String
  /-- `createHash("sha256").update(x).digest()` -/
  sha256 : String → BitVec 256

namespace ControlEnv

variable (env : ControlEnv)

/-- `timingSafeEqual` of two digests, which have the same length. -/
def tokenMatches (candidate known : String) : Bool := env.sha256 candidate = env.sha256 known

/-- The last entry that matches. -/
def findToken (presented : Option Json) : Option TokenEntry :=
  match str? presented with
  | none | some "" => none
  | some presented =>
    env.cfg.tokens.foldl (fun found entry => if env.tokenMatches presented entry.token then some entry else found) none

end ControlEnv

/-- A session: its address at the registry, and its streams. -/
structure Session extends AgentSession where
  agent : Nat

/-- The variables of one connection, and what it shares with the others. -/
structure Control where
  relay : Relay
  /-- `ControlPlane.sessions` -/
  sessions : List Nat
  session : Option Session
  /-- `helloTimer` may still fire. -/
  helloTimer : Bool
  /-- `ws.readyState` is OPEN. -/
  readyOpen : Bool
  /-- The ERROR frames that `reject` has sent. -/
  refusals : List Frame
  /-- The codes and reasons that `ws.close` has been called with. -/
  closes : List (Nat × String)
  /-- The WebSocket's `close` or `error` event has come. -/
  gone : Bool

/-- What a message meets besides the state: what `randomBytes` gives, for a session and for a tunnel,
and what `socket.write` returns. -/
structure Chance where
  agentId : String
  tunnelId : String
  flushed : Bool

namespace Control

/-- A new connection. -/
def start (relay : Relay) (sessions : List Nat) : Control where
  relay := relay
  sessions := sessions
  session := none
  helloTimer := true
  readyOpen := true
  refusals := []
  closes := []
  gone := false

/-- `ws.close(code, reason)`; messages that the peer has already sent can still arrive. -/
def closeWs (s : Control) (code : Nat) (reason : String) : Control :=
  { s with
    session := s.session.map fun session => { session with wire := { session.wire with readyOpen := false } }
    readyOpen := false
    closes := s.closes ++ [(code, reason)] }

def reject (s : Control) (code : Nat) (errCode message : String) : Control :=
  closeWs
    { s with
      refusals := if s.readyOpen then
          s.refusals ++ [.control FrameType.error [("code", .str errCode), ("message", .str message)]]
        else s.refusals }
    code errCode

variable (env : ControlEnv)

/-- The end of `handshake`: the session is made, and welcomed. -/
def welcome (s : Control) (token : TokenEntry) (body : Obj) (agentId : String) : Control :=
  let clientName := match str? (body.get "name") with
    | none | some "" => token.name
    | some name => name
  let fresh := { AgentSession.new with wire := { AgentSession.new.wire with readyOpen := s.readyOpen } }
  let hello := AgentSession.helloOk agentId env.cfg.heartbeatMs env.cfg.streamWindow env.cfg.httpDomain
  { s with
    relay := { s.relay with agents := s.relay.agents ++ [{ token, clientName, tunnels := ∅, closed := false }] }
    sessions := s.sessions ++ [s.relay.agents.length]
    session := some
      { toAgentSession := { fresh with toHub := fresh.toHub.send env.wire hello }
        agent := s.relay.agents.length }
    helloTimer := false }

/-- What is logged of a HELLO with an unknown token; `undefined` nests no deeper than a string. -/
def rejectedFields (body : Obj) : Obj :=
  ("remoteAddr", .str env.remoteAddr) :: ((body.get "name").map fun name => ("name", name)).toList

def handshake (s : Control) (body : Obj) (agentId : String) : Except JsError Control :=
  toNumberIn? env.maxJoins (body.get "version") >>= fun version =>
    if version ≠ .fin PROTOCOL_VERSION then
      (toStrIn? env.maxJoins (body.get "version")).map fun offered =>
        s.reject CLOSE_BAD_VERSION "bad_version"
          ("server speaks protocol v" ++ toString PROTOCOL_VERSION ++ ", agent offered v" ++ offered)
    else
      match env.findToken (body.get "token") with
      | none =>
        (env.log.emit .warn (rejectedFields env body)).map fun _ =>
          s.reject CLOSE_UNAUTHORIZED "unauthorized" "token not recognised"
      | some token => .ok (s.welcome env token body agentId)

/-- `agent.send`, for a frame of the control plane. -/
def send (s : Control) (session : Session) (f : Frame) : Control :=
  { s with session := some { session with toHub := session.toHub.send env.wire f } }

/-- OPEN_TUNNEL, up to the bind of a tcp tunnel. -/
def onOpenTunnel (s : Control) (session : Session) (body : Obj) (id : String) : Control :=
  match s.relay.agents[session.agent]? with
  | none => s
  | some r =>
    let (relay, reply) := openTunnel env.cfg env.toEngine s.relay session.agent r body id
    match reply with
    | none => { s with relay }
    | some f => { s with relay }.send env session f

def onCloseTunnel (s : Control) (session : Session) (body : Obj) : Control :=
  let id := (str? (body.get "tunnelId")).getD ""
  match s.relay.agents[session.agent]? with
  | none => s
  | some r =>
    if id ∈ r.tunnels then { s with relay := s.relay.closeTunnel r id }
    else s.send env session
      (.control FrameType.error [("code", .str "bad_request"), ("message", .str ("no such tunnel " ++ id))])

/-- `session.handleFrame(frame)` -/
def handleFrame (s : Control) (session : Session) (f : Frame) (chance : Chance) : Except JsError Control :=
  let session := { session with wire := { session.wire with received := session.wire.received ++ [f] } }
  let s := { s with session := some session }
  match f with
  | .control type body =>
    if type = FrameType.openTunnel then .ok (s.onOpenTunnel env session body chance.tunnelId)
    else if type = FrameType.closeTunnel then .ok (s.onCloseTunnel env session body)
    else if type = FrameType.error then (env.log.emit .warn body).map fun _ => s
    else .ok s
  | .stream type id payload =>
    (AgentSession.handleStreamFrame env.wire session.toHub type id payload chance.flushed).map fun h =>
      { s with session := some { session with toAgentSession := session.toAgentSession.settle h } }

/-- The `message` listener; its error is an exception that leaves it. -/
def listener (s : Control) (isBinary : Bool) (data : Bytes) (chance : Chance) : Except JsError Control :=
  if !isBinary then .ok (s.reject CLOSE_BAD_REQUEST "bad_request" "frames must be binary")
  else
    match decodeFrame data with
    | .error e => .ok (s.reject CLOSE_BAD_REQUEST "bad_request" e.message)
    | .ok f =>
      match s.session with
      | some session => s.handleFrame env session f chance
      | none =>
        match f with
        | .stream .. => .ok (s.reject CLOSE_BAD_REQUEST "bad_request" "expected HELLO first")
        | .control type body =>
          if type ≠ FrameType.hello then .ok (s.reject CLOSE_BAD_REQUEST "bad_request" "expected HELLO first")
          else s.handshake env body chance.agentId

/-- `helloTimer` fires. -/
def helloTimeout (s : Control) : Control :=
  let s := { s with helloTimer := false }
  if s.session.isNone then s.closeWs CLOSE_BAD_REQUEST "hello_timeout" else s

/-- `session.destroy()`, with the registry's share. -/
def teardown (s : Control) : Control :=
  match s.session with
  | none => { s with helloTimer := false, gone := true }
  | some session =>
    { s with
      relay := match s.relay.agents[session.agent]? with
        | none => s.relay
        | some r => s.relay.destroy session.agent r
      sessions := s.sessions.filter (· ≠ session.agent)
      session := some { session with toAgentSession := session.toAgentSession.destroy env.wire }
      helloTimer := false
      gone := true }

inductive Event where
  | message (isBinary : Bool) (data : Bytes) (chance : Chance)
  | helloTimeout
  /-- The WebSocket is gone. -/
  | closed
  /-- Whatever the other connections, the binds and the streams of the session make of what this
  connection shares with them. -/
  | elsewhere (relay : Relay) (sessions : List Nat) (streams : AgentSession)

/-- `none` where the event is not possible, or ends the process with an uncaught exception. -/
def step (s : Control) : Event → Option Control
  | .message isBinary data chance => if s.gone then none else (s.listener env isBinary data chance).toOption
  | .helloTimeout => if s.helloTimer then some s.helloTimeout else none
  | .closed => some (s.teardown env)
  | .elsewhere relay sessions streams =>
    some { s with
      relay, sessions
      session := s.session.map fun session => { session with toAgentSession := streams } }

end Control

/-! ## What throws -/

namespace Stream

variable {env : WireEnv} {c : Ctx}

theorem onData_error_iff {payload : Bytes} {flushed : Bool} :
    (∃ e, onData env c payload flushed = .error e) ↔ c.self.finished = false ∧ c.self.receivedEof = false ∧
      flushed = true ∧ 0xffffffff < c.self.recvUnacked + payload.length := by
  unfold onData
  split
  · rename_i h
    simp only [reduceCtorEq, exists_false, false_iff]
    rintro ⟨hf, he, -⟩
    simp [hf, he] at h
  · rename_i h
    simp only [Bool.or_eq_true, not_or, Bool.not_eq_true] at h
    cases flushed with
    | false => simp
    | true =>
      simp only [if_true, Ctx.flushAck_error_iff, h.1, h.2, true_and]

theorem onEof_error_iff : (∃ e, onEof env c = .error e) ↔
    c.self.finished = false ∧ c.self.receivedEof = false ∧ 0xffffffff < c.self.recvUnacked := by
  unfold onEof
  split
  · rename_i h
    simp only [reduceCtorEq, exists_false, false_iff]
    rintro ⟨hf, he, -⟩
    simp [hf, he] at h
  · rename_i h
    simp only [Bool.or_eq_true, not_or, Bool.not_eq_true] at h
    simp only [map_error, Ctx.flushAck_error_iff, h.1, h.2, true_and]

end Stream

namespace AgentSession

variable {env : WireEnv} {h : Hub Stream}

theorem run_error_iff {a : Nat} {m : Ctx → Except JsError Ctx} : (∃ e, h.run a (methodE m) = .error e) ↔
    ∃ st, h.objs[a]? = some st ∧ ∃ e, m ⟨st, h.wire, h.listed a⟩ = .error e := by
  unfold Hub.run
  split
  · rename_i hn
    simp [hn]
  · rename_i st hst
    simp [hst, map_error, methodE]

/-- Bytes for an open stream `st`, or their end, make it acknowledge more than a u32 holds. -/
def Overflows (st : Stream) (type : Nat) (payload : Bytes) (flushed : Bool) : Prop :=
  st.finished = false ∧ st.receivedEof = false ∧
    (type = FrameType.streamData ∧ flushed = true ∧ 0xffffffff < st.recvUnacked + payload.length ∨
      type = FrameType.streamEof ∧ 0xffffffff < st.recvUnacked)

theorem handleStreamFrame_error_iff {type id : Nat} {payload : Bytes} {flushed : Bool} :
    (∃ e, handleStreamFrame env h type id payload flushed = .error e) ↔
      ∃ a st, h.streams.lookup id = some a ∧ h.objs[a]? = some st ∧ Overflows st type payload flushed := by
  unfold handleStreamFrame
  split
  · rename_i hn
    simp [hn]
  · rename_i a ha
    by_cases hd : type = FrameType.streamData
    · subst hd
      rw [if_pos rfl, run_error_iff]
      simp [ha, Overflows, Stream.onData_error_iff, FrameType.streamData, FrameType.streamEof]
    rw [if_neg hd]
    by_cases he : type = FrameType.streamEof
    · subst he
      rw [if_pos rfl, run_error_iff]
      simp [ha, Overflows, Stream.onEof_error_iff, FrameType.streamData, FrameType.streamEof]
    rw [if_neg he]
    have hno : ¬ ∃ a st, h.streams.lookup id = some a ∧ h.objs[a]? = some st ∧ Overflows st type payload flushed := by
      rintro ⟨a, st, -, -, -, -, ho⟩
      rcases ho with ⟨h1, -⟩ | ⟨h1, -⟩
      · exact hd h1
      · exact he h1
    simp only [ha] at hno
    simp only [ha, hno, iff_false]
    split
    · simp
    · split <;> simp

end AgentSession

namespace Control

variable {env : ControlEnv} {s : Control}

/-- A HELLO with such a body throws: the version cannot be made a number, or the token is not known and the
line in the log about it cannot be written. -/
def FatalHello (env : ControlEnv) (body : Obj) : Prop :=
  (∃ version, body.get "version" = some version ∧ (version.coercible = false ∨ env.maxJoins < version.arrays)) ∨
    toNumberIn? env.maxJoins (body.get "version") = .ok (.fin PROTOCOL_VERSION) ∧
      env.findToken (body.get "token") = none ∧ ∃ name, body.get "name" = some name ∧ env.log.Deep .warn name

theorem emit_rejected_iff {env : ControlEnv} {body : Obj} :
    (∃ e, env.log.emit .warn (rejectedFields env body) = .error e) ↔
      ∃ name, body.get "name" = some name ∧ env.log.Deep .warn name := by
  rw [LogEnv.emit_error_iff]
  have hflat : ¬ env.log.Deep .warn (.str env.remoteAddr) := by simp [LogEnv.Deep, Json.nesting]
  simp only [rejectedFields, List.mem_cons, Prod.mk.injEq]
  constructor
  · rintro ⟨key, v, ⟨rfl, rfl⟩ | hin, hdeep⟩
    · exact absurd hdeep hflat
    · simp only [Option.mem_toList, Option.map_eq_some_iff, Prod.mk.injEq] at hin
      obtain ⟨name, hname, rfl, rfl⟩ := hin
      exact ⟨name, hname, hdeep⟩
  · rintro ⟨name, hname, hdeep⟩
    exact ⟨"name", name, .inr (by simp [hname]), hdeep⟩

theorem handshake_error_iff {body : Obj} {agentId : String} :
    (∃ e, s.handshake env body agentId = .error e) ↔ FatalHello env body := by
  have hboth : (∃ e, toStrIn? env.maxJoins (body.get "version") = .error e) ↔
      ∃ e, toNumberIn? env.maxJoins (body.get "version") = .error e := by
    cases body.get "version" with
    | none => simp [toNumberIn?, toStrIn?]
    | some version => simp only [toNumberIn?, toStrIn?, Json.toStrIn_error_iff, Json.toNumberIn_error_iff]
  have hversion : (∃ version, body.get "version" = some version ∧
      (version.coercible = false ∨ env.maxJoins < version.arrays)) ↔
      ∃ e, toNumberIn? env.maxJoins (body.get "version") = .error e := by
    cases body.get "version" with
    | none => simp [toNumberIn?]
    | some version => simp [toNumberIn?, Json.toNumberIn_error_iff]
  unfold handshake FatalHello
  rw [hversion, ← emit_rejected_iff]
  cases hx : toNumberIn? env.maxJoins (body.get "version") with
  | error e => simp [bind, Except.bind]
  | ok n =>
    simp only [hx, reduceCtorEq, exists_false, iff_false, not_exists] at hboth
    simp only [bind, Except.bind, reduceCtorEq, exists_false, false_or, Except.ok.injEq]
    split
    · rename_i hne
      simp [map_error, hboth, hne]
    · rename_i heq
      rw [not_not.mp heq]
      cases env.findToken (body.get "token") with
      | none => simp only [map_error, true_and]
      | some token => simp

/-- Where there is no session, the message is a HELLO that throws. Where there is one, it is an ERROR that
the log cannot take, or overflows an acknowledgement. -/
def Fatal (env : ControlEnv) (s : Control) (data : Bytes) (flushed : Bool) : Prop :=
  match s.session with
  | none => ∃ body, decodeFrame data = .ok (.control FrameType.hello body) ∧ FatalHello env body
  | some session =>
    (∃ body key v, decodeFrame data = .ok (.control FrameType.error body) ∧ (key, v) ∈ body ∧ env.log.Deep .warn v) ∨
      ∃ type id payload a st, decodeFrame data = .ok (.stream type id payload) ∧
        session.streams.lookup id = some a ∧ session.objs[a]? = some st ∧
        AgentSession.Overflows st type payload flushed

theorem handleFrame_error_iff {session : Session} {f : Frame} {chance : Chance} :
    (∃ e, s.handleFrame env session f chance = .error e) ↔
      (∃ body key v, f = .control FrameType.error body ∧ (key, v) ∈ body ∧ env.log.Deep .warn v) ∨
        ∃ type id payload a st, f = .stream type id payload ∧
          session.streams.lookup id = some a ∧ session.objs[a]? = some st ∧
          AgentSession.Overflows st type payload chance.flushed := by
  unfold handleFrame
  cases f with
  | control type body =>
    dsimp only
    simp only [reduceCtorEq, false_and, exists_false, or_false, Frame.control.injEq]
    have hkind : ∀ other, other ≠ FrameType.error → type = other →
        ¬ ∃ body' key v, (type = FrameType.error ∧ body = body') ∧ (key, v) ∈ body' ∧ env.log.Deep .warn v := by
      rintro other hne rfl ⟨_, _, _, ⟨he, -⟩, -⟩
      exact hne he
    split
    · rename_i ht
      simpa using hkind _ (by decide) ht
    split
    · rename_i ht
      simpa using hkind _ (by decide) ht
    split
    · rename_i ht
      simp only [map_error, LogEnv.emit_error_iff, ht, true_and]
      constructor
      · rintro ⟨key, v, h⟩
        exact ⟨body, key, v, rfl, h⟩
      · rintro ⟨_, key, v, rfl, h⟩
        exact ⟨key, v, h⟩
    · rename_i ht
      simp [ht]
  | stream type id payload =>
    simp only [map_error, AgentSession.handleStreamFrame_error_iff, Frame.stream.injEq, reduceCtorEq, false_and,
      exists_false, false_or]
    constructor
    · rintro ⟨a, st, h⟩
      exact ⟨type, id, payload, a, st, ⟨rfl, rfl, rfl⟩, h⟩
    · rintro ⟨_, _, _, a, st, ⟨rfl, rfl, rfl⟩, h⟩
      exact ⟨a, st, h⟩

theorem listener_error_iff {isBinary : Bool} {data : Bytes} {chance : Chance} :
    (∃ e, s.listener env isBinary data chance = .error e) ↔ isBinary = true ∧ Fatal env s data chance.flushed := by
  unfold listener Fatal
  cases isBinary with
  | false => simp
  | true =>
    simp only [Bool.not_true, Bool.false_eq_true, if_false, true_and]
    cases hd : decodeFrame data with
    | error e => cases s.session <;> simp
    | ok f =>
      cases hs : s.session with
      | some session =>
        dsimp only
        rw [handleFrame_error_iff]
        simp only [Except.ok.injEq]
      | none =>
        cases f with
        | stream type id payload => simp
        | control type body =>
          by_cases ht : type = FrameType.hello
          · subst ht
            simp [handshake_error_iff]
          · simp [ht]

/-- A relay with one token. -/
def someEnv : ControlEnv where
  cfg :=
    { httpDomain := "localhost", publicScheme := "http", publicTcpHost := "localhost", tcpPortMin := 20000
      tcpPortMax := 20010, streamWindow := 262144, heartbeatMs := 15000
      tokens := [⟨"secret", "device", none, none, none⟩] }
  wire := ⟨8388608, fun _ => 0⟩
  log := ⟨ORDER .info, false, 1000⟩
  remoteAddr := "10.0.0.1"
  sha256 := fun s => if s = "secret" then 1 else 0
  lower := id
  maxJoins := 1000

def someChance : Chance := ⟨"ag_0", "tn_0", true⟩

/-- A HELLO with the server's version and a token that it knows. -/
def Welcome (env : ControlEnv) (data : Bytes) : Prop :=
  ∃ body token, decodeFrame data = .ok (.control FrameType.hello body) ∧
    toNumberIn? env.maxJoins (body.get "version") = .ok (.fin PROTOCOL_VERSION) ∧
    env.findToken (body.get "token") = some token

/-- An OPEN_TUNNEL that gets a name or a port from the registry. -/
def Opens (env : ControlEnv) (s : Control) (data : Bytes) (id : String) : Prop :=
  ∃ session r body req relay, s.session = some session ∧ s.relay.agents[session.agent]? = some r ∧
    decodeFrame data = .ok (.control FrameType.openTunnel body) ∧ parseRequest env.toEngine body = .ok req ∧
    s.relay.begin env.cfg session.agent r req id = .ok relay

/-- A message, delivered before the WebSocket's `close` event, that makes a session or opens a tunnel. -/
def Forces (env : ControlEnv) (s : Control) : Event → Prop
  | .message isBinary data chance =>
    s.gone = false ∧ isBinary = true ∧ (s.session = none ∧ Welcome env data ∨ s.Opens env data chance.tunnelId)
  | _ => False

section
variable {s' : Control} {session : Session} {data : Bytes} {isBinary : Bool} {chance : Chance}

theorem begin_length {cfg : Config} {relay relay' : Relay} {agent : Nat} {r : Registrant} {req : OpenTunnelRequest}
    {id : String} (h : relay.begin cfg agent r req id = .ok relay') :
    relay'.tunnels.length = relay.tunnels.length + 1 := by
  obtain ⟨-, ⟨sub, tn, -, -, -, -, rfl⟩ | ⟨remotePort, port, hint, tn, -, -, -, rfl⟩⟩ := Relay.begin_cases h
  · simp [Relay.register]
  · simp

theorem closeTunnel_length (relay : Relay) (r : Registrant) (id : String) :
    (relay.closeTunnel r id).tunnels.length = relay.tunnels.length := by
  unfold Relay.closeTunnel
  split
  · rfl
  · exact Relay.length_close

/-- What a message for a live session leaves alone, and whether it opens a tunnel. -/
structure Kept (s s' : Control) (opens : Prop) : Prop where
  session : s'.session ≠ none
  sessions : s'.sessions = s.sessions
  closes : s'.closes = s.closes
  opened : opens → s'.relay.tunnels.length = s.relay.tunnels.length + 1
  tunnels : ¬ opens → s'.relay.tunnels.length = s.relay.tunnels.length

theorem onOpenTunnel_kept (hs : s.session = some session) (body : Obj) (id : String) :
    Kept s (s.onOpenTunnel env session body id) (∃ r req relay, s.relay.agents[session.agent]? = some r ∧
      parseRequest env.toEngine body = .ok req ∧ s.relay.begin env.cfg session.agent r req id = .ok relay) := by
  unfold onOpenTunnel
  cases hr : s.relay.agents[session.agent]? with
  | none =>
    refine ⟨by simp [hs], rfl, rfl, ?_, fun _ => rfl⟩
    rintro ⟨r, -, -, hr', -⟩
    cases hr'
  | some r =>
    have key : ∀ (relay : Relay) (reply : Option Frame) (opens : Prop),
        (opens → relay.tunnels.length = s.relay.tunnels.length + 1) →
        (¬ opens → relay.tunnels.length = s.relay.tunnels.length) →
        Kept s (match reply with
          | none => { s with relay }
          | some f => { s with relay }.send env session f) opens := by
      intro relay reply opens h1 h2
      cases reply with
      | none => exact ⟨by simp [hs], rfl, rfl, h1, h2⟩
      | some f => exact ⟨by simp [send], rfl, rfl, h1, h2⟩
    refine key _ _ _ ?_ ?_
    · rintro ⟨r', req, relay, hr', hp, hb⟩
      cases hr'
      simp only [hp, hb]
      exact begin_length hb
    · intro hno
      split
      · rfl
      · rename_i req hp
        split
        · rfl
        · rename_i relay hb
          exact absurd ⟨r, req, relay, rfl, hp, hb⟩ hno

theorem onCloseTunnel_kept (hs : s.session = some session) (body : Obj) :
    Kept s (s.onCloseTunnel env session body) False := by
  unfold onCloseTunnel
  dsimp only
  split
  · exact ⟨by simp [hs], rfl, rfl, False.elim, fun _ => rfl⟩
  · split
    · exact ⟨by simp [hs], rfl, rfl, False.elim, fun _ => closeTunnel_length _ _ _⟩
    · exact ⟨by simp [send], rfl, rfl, False.elim, fun _ => rfl⟩

theorem handleFrame_kept {f : Frame} (hf : decodeFrame data = .ok f) (hs : s.session = some session)
    (h : s.handleFrame env session f chance = .ok s') : Kept s s' (s.Opens env data chance.tunnelId) := by
  unfold handleFrame at h
  dsimp only at h
  have hopens : ∀ type body, f = .control type body → (s.Opens env data chance.tunnelId ↔
      type = FrameType.openTunnel ∧ ∃ r req relay, s.relay.agents[session.agent]? = some r ∧
        parseRequest env.toEngine body = .ok req ∧
        s.relay.begin env.cfg session.agent r req chance.tunnelId = .ok relay) := by
    rintro type body rfl
    simp only [Opens, hf, hs, Option.some.injEq, Except.ok.injEq, Frame.control.injEq]
    constructor
    · rintro ⟨session', r, body', req, relay, rfl, hr, ⟨rfl, rfl⟩, hp, hb⟩
      exact ⟨rfl, r, req, relay, hr, hp, hb⟩
    · rintro ⟨rfl, r, req, relay, hr, hp, hb⟩
      exact ⟨session, r, body, req, relay, rfl, hr, ⟨rfl, rfl⟩, hp, hb⟩
  cases f with
  | control type body =>
    have hiff := hopens type body rfl
    let session1 : Session := { session with
      wire := { session.wire with received := session.wire.received ++ [.control type body] } }
    let s1 : Control := { s with session := some session1 }
    dsimp only at h
    split at h
    · rename_i ht
      cases h
      simp only [ht, true_and] at hiff
      rw [hiff]
      have hk : Kept s1 (s1.onOpenTunnel env session1 body chance.tunnelId) _ := onOpenTunnel_kept rfl body _
      exact ⟨hk.session, hk.sessions, hk.closes, hk.opened, hk.tunnels⟩
    · rename_i ht
      have hno : ¬ s.Opens env data chance.tunnelId := fun ho => ht (hiff.mp ho).1
      split at h
      · cases h
        have hk : Kept s1 (s1.onCloseTunnel env session1 body) False := onCloseTunnel_kept rfl body
        exact ⟨hk.session, hk.sessions, hk.closes, fun ho => absurd ho hno, fun _ => hk.tunnels id⟩
      split at h
      · obtain ⟨-, -, rfl⟩ := map_ok.mp h
        exact ⟨by simp, rfl, rfl, fun ho => absurd ho hno, fun _ => rfl⟩
      · cases h
        exact ⟨by simp, rfl, rfl, fun ho => absurd ho hno, fun _ => rfl⟩
  | stream type id payload =>
    obtain ⟨hub, -, rfl⟩ := map_ok.mp h
    have hno : ¬ s.Opens env data chance.tunnelId := by
      rintro ⟨_, _, body, _, _, -, -, hd, -⟩
      rw [hf] at hd
      cases hd
    exact ⟨by simp, rfl, rfl, fun ho => absurd ho hno, fun _ => rfl⟩

/-- The session exists, and is the first thing that this connection has asked for. -/
structure Created (env : ControlEnv) (s s' : Control) (isBinary : Bool) (data : Bytes) : Prop where
  none : s.session = none
  welcome : isBinary = true ∧ Welcome env data
  sessions : s'.sessions = s.sessions ++ [s.relay.agents.length]
  session : s'.session ≠ .none
  closes : s'.closes = s.closes
  tunnels : s'.relay.tunnels = s.relay.tunnels

/-- The connection has been told to close. -/
structure Refused (s s' : Control) : Prop where
  session : s'.session = none ↔ s.session = none
  sessions : s'.sessions = s.sessions
  closes : ∃ c, s'.closes = s.closes ++ [c]
  relay : s'.relay = s.relay

theorem reject_refused (s : Control) (code : Nat) (errCode message : String) :
    Refused s (s.reject code errCode message) :=
  ⟨by simp [reject, closeWs], rfl, ⟨_, rfl⟩, rfl⟩

/-- A HELLO makes a session or is refused. -/
theorem handshake_cases {body : Obj} {agentId : String} (hd : decodeFrame data = .ok (.control FrameType.hello body))
    (hs : s.session = none) (h : s.handshake env body agentId = .ok s') :
    Created env s s' true data ∨ ¬ Welcome env data ∧ Refused s s' := by
  obtain ⟨version, hv, h⟩ := bind_ok.mp h
  have hwelcome : Welcome env data ↔
      version = .fin PROTOCOL_VERSION ∧ ∃ token, env.findToken (body.get "token") = some token := by
    simp only [Welcome, hd, Except.ok.injEq, Frame.control.injEq, true_and]
    constructor
    · rintro ⟨_, token, rfl, hv', ht⟩
      rw [hv] at hv'
      exact ⟨Except.ok.inj hv', token, ht⟩
    · rintro ⟨rfl, token, ht⟩
      exact ⟨body, token, rfl, hv, ht⟩
  split at h
  · rename_i hne
    obtain ⟨offered, -, rfl⟩ := map_ok.mp h
    exact .inr ⟨fun hw => hne (hwelcome.mp hw).1, reject_refused _ _ _ _⟩
  · rename_i heq
    split at h
    · rename_i ht
      obtain ⟨-, -, rfl⟩ := map_ok.mp h
      refine .inr ⟨fun hw => ?_, reject_refused _ _ _ _⟩
      obtain ⟨-, token, ht'⟩ := hwelcome.mp hw
      simp [ht] at ht'
    · rename_i token ht
      cases h
      exact .inl ⟨hs, ⟨rfl, hwelcome.mpr ⟨not_not.mp heq, token, ht⟩⟩, rfl, by simp [welcome], rfl, rfl⟩

/-- What a message does: it makes the session, it is refused, or the session has it. -/
theorem listener_cases (h : s.listener env isBinary data chance = .ok s') :
    Created env s s' isBinary data ∨
      ¬ (isBinary = true ∧ (s.session = none ∧ Welcome env data ∨ s.Opens env data chance.tunnelId)) ∧ Refused s s' ∨
      isBinary = true ∧ s.session ≠ none ∧ Kept s s' (s.Opens env data chance.tunnelId) := by
  unfold listener at h
  split at h
  · rename_i hb
    cases h
    exact .inr (.inl ⟨fun hn => by simp [hn.1] at hb, reject_refused _ _ _ _⟩)
  · rename_i hb
    have hb : isBinary = true := by simpa using hb
    split at h
    · rename_i e hd
      cases h
      refine .inr (.inl ⟨?_, reject_refused _ _ _ _⟩)
      rintro ⟨-, ⟨-, _, _, hd', -⟩ | ⟨_, _, _, _, _, -, -, hd', -⟩⟩ <;> simp [hd] at hd'
    · rename_i f hd
      split at h
      · rename_i session hs
        exact .inr (.inr ⟨hb, by simp [hs], handleFrame_kept hd hs h⟩)
      · rename_i hs
        have hopens : ¬ s.Opens env data chance.tunnelId := by
          rintro ⟨_, _, _, _, _, hs', -⟩
          simp [hs] at hs'
        split at h
        · cases h
          refine .inr (.inl ⟨?_, reject_refused _ _ _ _⟩)
          rintro ⟨-, ⟨-, _, _, hd', -⟩ | ho⟩
          · simp [hd] at hd'
          · exact hopens ho
        · rename_i type body
          split at h
          · rename_i ht
            cases h
            refine .inr (.inl ⟨?_, reject_refused _ _ _ _⟩)
            rintro ⟨-, ⟨-, _, _, hd', -⟩ | ho⟩
            · rw [hd] at hd'
              cases hd'
              exact ht rfl
            · exact hopens ho
          · rename_i ht
            rw [not_not.mp ht] at hd
            rcases handshake_cases hd hs h with hc | ⟨hw, hr⟩
            · exact .inl (hb ▸ hc)
            · exact .inr (.inl ⟨fun hn => hn.2.elim (fun h1 => hw h1.2) hopens, hr⟩)

theorem listener_of_forces (h : Forces env s (.message isBinary data chance)) :
    ∃ s', s.listener env isBinary data chance = .ok s' := by
  rw [exists_ok_iff, listener_error_iff]
  rintro ⟨-, hfatal⟩
  obtain ⟨-, -, ⟨hs, body, token, hd, hv, ht⟩ | ⟨session, r, body, req, relay, hs, -, hd, -⟩⟩ := h
  · simp only [Fatal, hs] at hfatal
    obtain ⟨body', hd', ⟨version, hget, hc⟩ | ⟨-, hno, -⟩⟩ := hfatal
    · rw [hd] at hd'
      cases hd'
      obtain ⟨e, he⟩ := (Json.toNumberIn_error_iff _ version).mpr hc
      simp [hget, toNumberIn?, he] at hv
    · rw [hd] at hd'
      cases hd'
      simp [hno] at ht
  · simp only [Fatal, hs] at hfatal
    rcases hfatal with ⟨_, _, _, hd', -⟩ | ⟨_, _, _, _, _, hd', -⟩
    · rw [hd] at hd'
      simp [FrameType.openTunnel, FrameType.error] at hd'
    · rw [hd] at hd'
      cases hd'

end

/-! ## Runs of a connection -/

def Event.isMessage : Event → Bool
  | .message .. => true
  | _ => false

/-- In the run of `es` from `s`, `e` comes after `pre`, and takes `s1` to `s2`. -/
structure Takes (env : ControlEnv) (s : Control) (es pre : List Event) (e : Event) (s1 s2 : Control) : Prop where
  split : ∃ post, es = pre ++ e :: post
  before : Lts.exec (step env) s pre = some s1
  after : step env s1 e = some s2

/-- What a connection is for: a session is made by its first message, a HELLO with the server's version
and a token that it knows; once the connection was rejected, no message makes a session or opens a
tunnel. -/
structure Proper (env : ControlEnv) (s : Control) (es : List Event) : Prop where
  first : ∀ pre e s1 s2, Takes env s es pre e s1 s2 → e.isMessage = true →
    s2.sessions ≠ s1.sessions ∨ s1.session = none ∧ s2.session ≠ none →
      (∃ data chance, e = .message true data chance ∧ Welcome env data) ∧ ∀ e' ∈ pre, e'.isMessage = false
  rejected : ∀ pre e s1 s2, Takes env s es pre e s1 s2 → e.isMessage = true → s1.closes ≠ [] →
    s2.sessions = s1.sessions ∧ (s1.session = none → s2.session = none) ∧
      s2.relay.tunnels.length = s1.relay.tunnels.length

/-- Once the connection was rejected, the peer sends no HELLO that would be welcome, and on a live
session no OPEN_TUNNEL that the registry grants. -/
def Unforced (env : ControlEnv) (s : Control) (es : List Event) : Prop :=
  ∀ pre e s1, (∃ post, es = pre ++ e :: post) → Lts.exec (step env) s pre = some s1 → s1.closes ≠ [] →
    ¬ Forces env s1 e

section
variable {s s' : Control} {e : Event}

theorem step_message {isBinary : Bool} {data : Bytes} {chance : Chance}
    (h : step env s (.message isBinary data chance) = some s') :
    s.gone = false ∧ s.listener env isBinary data chance = .ok s' := by
  simp only [step] at h
  split at h
  · cases h
  · rename_i hg
    exact ⟨by simpa using hg, toOption_eq_some.mp h⟩

/-- A session stays, and so does a rejection. -/
theorem step_grows (h : step env s e = some s') :
    (s'.session = none → s.session = none) ∧ (s.closes ≠ [] → s'.closes ≠ []) := by
  cases e with
  | message isBinary data chance =>
    rcases listener_cases (step_message h).2 with hc | ⟨-, hr⟩ | ⟨-, -, hk⟩
    · exact ⟨fun _ => hc.none, fun hne => by rwa [hc.closes]⟩
    · obtain ⟨c, hcl⟩ := hr.closes
      exact ⟨hr.session.mp, fun _ => by simp [hcl]⟩
    · exact ⟨fun hn => absurd hn hk.session, fun hne => by rwa [hk.closes]⟩
  | helloTimeout =>
    simp only [step, Option.ite_none_right_eq_some, Option.some.injEq] at h
    obtain ⟨-, rfl⟩ := h
    unfold helloTimeout
    dsimp only
    split
    · exact ⟨by simp [closeWs], by simp [closeWs]⟩
    · exact ⟨id, id⟩
  | closed =>
    cases h
    unfold teardown
    split
    · exact ⟨id, id⟩
    · exact ⟨fun hn => by simp at hn, id⟩
  | elsewhere relay sessions streams =>
    cases h
    exact ⟨by simp, id⟩

theorem exec_session {es : List Event} : ∀ {s s' : Control}, Lts.exec (step env) s es = some s' →
    s'.session = none → s.session = none := by
  induction es with
  | nil =>
    intro s s' hx hn
    cases hx
    exact hn
  | cons e es ih =>
    intro s s' hx hn
    obtain ⟨s1, h1, hx⟩ := Option.bind_eq_some_iff.mp hx
    exact (step_grows h1).1 (ih hx hn)

/-- A message that made no session was rejected, and the connection has been since. -/
theorem rejected_of_message {es : List Event} : ∀ {s s' : Control}, Lts.exec (step env) s es = some s' →
    s'.session = none → (s.closes ≠ [] ∨ ∃ e ∈ es, e.isMessage = true) → s'.closes ≠ [] := by
  induction es with
  | nil =>
    intro s s' hx _ hm
    cases hx
    rcases hm with hne | ⟨e, he, -⟩
    · exact hne
    · cases he
  | cons e es ih =>
    intro s s' hx hn hm
    obtain ⟨s1, h1, hx1⟩ := Option.bind_eq_some_iff.mp hx
    refine ih hx1 hn ?_
    rcases hm with hne | ⟨e', he', hm⟩
    · exact .inl ((step_grows h1).2 hne)
    · rcases List.mem_cons.mp he' with rfl | he'
      · have hn1 : s1.session = none := exec_session hx1 hn
        cases e' with
        | message isBinary data chance =>
          rcases listener_cases (step_message h1).2 with hc | ⟨-, hr⟩ | ⟨-, -, hk⟩
          · exact absurd hn1 hc.session
          · obtain ⟨c, hcl⟩ := hr.closes
            exact .inl (by simp [hcl])
          · exact absurd hn1 hk.session
        | helloTimeout | closed | elsewhere => cases hm
      · exact .inr ⟨e', he', hm⟩

/-- A message that makes a session or opens a tunnel is one of those that can. -/
theorem forces_of_step {isBinary : Bool} {data : Bytes} {chance : Chance}
    (h : step env s (.message isBinary data chance) = some s')
    (hne : ¬ (s'.sessions = s.sessions ∧ (s.session = none → s'.session = none) ∧
      s'.relay.tunnels.length = s.relay.tunnels.length)) :
    Forces env s (.message isBinary data chance) := by
  obtain ⟨hg, hl⟩ := step_message h
  rcases listener_cases hl with hc | ⟨-, hr⟩ | ⟨hb, hs, hk⟩
  · exact ⟨hg, hc.welcome.1, .inl ⟨hc.none, hc.welcome.2⟩⟩
  · exact absurd ⟨hr.sessions, hr.session.mpr, by rw [hr.relay]⟩ hne
  · refine ⟨hg, hb, .inr ?_⟩
    by_contra hno
    exact hne ⟨hk.sessions, fun hn => absurd hn hs, hk.tunnels hno⟩

/-- And it does. -/
theorem step_of_forces (h : Forces env s e) : e.isMessage = true ∧ ∃ s', step env s e = some s' ∧
    ¬ (s'.sessions = s.sessions ∧ (s.session = none → s'.session = none) ∧
      s'.relay.tunnels.length = s.relay.tunnels.length) := by
  cases e with
  | message isBinary data chance =>
    obtain ⟨s', hl⟩ := listener_of_forces h
    obtain ⟨hg, hb, hor⟩ := h
    refine ⟨rfl, s', by simp [step, hg, hl, Except.toOption], ?_⟩
    rintro ⟨hsessions, hsession, htunnels⟩
    rcases listener_cases hl with hc | ⟨hno, -⟩ | ⟨-, hs, hk⟩
    · exact hc.session (hsession hc.none)
    · exact hno ⟨hb, hor⟩
    · rcases hor with ⟨hs', -⟩ | ho
      · exact hs hs'
      · have h1 := hk.opened ho
        omega
  | helloTimeout | closed | elsewhere => exact h.elim

end

/-- A connection does what it is for exactly as long as the peer forces nothing after a rejection. -/
theorem proper_iff (env : ControlEnv) (relay : Relay) (sessions : List Nat) (es : List Event) :
    Proper env (start relay sessions) es ↔ Unforced env (start relay sessions) es := by
  constructor
  · intro hp pre e s1 hsplit hx hne hforces
    obtain ⟨hm, s2, hs, hno⟩ := step_of_forces hforces
    exact hno (hp.rejected pre e s1 s2 ⟨hsplit, hx, hs⟩ hm hne)
  · intro hu
    refine ⟨fun pre e s1 s2 ht hm hnew => ?_, fun pre e s1 s2 ht hm hne => ?_⟩
    · cases e with
      | message isBinary data chance =>
        rcases listener_cases (step_message ht.after).2 with hc | ⟨-, hr⟩ | ⟨-, hs, hk⟩
        · refine ⟨⟨data, chance, by rw [hc.welcome.1], hc.welcome.2⟩, fun e' he' => ?_⟩
          -- an earlier message would have been rejected
          by_contra hm'
          have hne := rejected_of_message ht.before hc.none (.inr ⟨e', he', (Bool.not_eq_false _).mp hm'⟩)
          refine hu pre _ s1 ht.split ht.before hne (forces_of_step ht.after fun hno => ?_)
          exact hc.session (hno.2.1 hc.none)
        · rcases hnew with h1 | ⟨h1, h2⟩
          · exact absurd hr.sessions h1
          · exact absurd (hr.session.mpr h1) h2
        · rcases hnew with h1 | ⟨h1, -⟩
          · exact absurd hk.sessions h1
          · exact absurd h1 hs
      | helloTimeout | closed | elsewhere => cases hm
    · by_contra hno
      cases e with
      | message isBinary data chance =>
        exact hu pre _ s1 ht.split ht.before hne (forces_of_step ht.after hno)
      | helloTimeout | closed | elsewhere => cases hm

/-- `{"version":1,"token":"secret"}` -/
def greeting : Bytes :=
  encodeControl FrameType.hello [("version", .num (.fin 1)), ("token", .str "secret")]

theorem greeting_welcome : Welcome someEnv greeting := by
  have hq : (match decodeFrame greeting with
      | .ok (.control type body) => decide (type = FrameType.hello) &&
        (match toNumberIn? someEnv.maxJoins (body.get "version") with
          | .ok n => decide (n = .fin PROTOCOL_VERSION)
          | .error _ => false) && (someEnv.findToken (body.get "token")).isSome
      | _ => false) = true := by decide +kernel
  split at hq
  · rename_i type body hd
    simp only [Bool.and_eq_true, decide_eq_true_eq] at hq
    obtain ⟨⟨rfl, hv⟩, ht⟩ := hq
    obtain ⟨token, ht⟩ := Option.isSome_iff_exists.mp ht
    split at hv
    · rename_i n hn
      exact ⟨body, token, hd, hn.trans (congrArg _ (of_decide_eq_true hv)), ht⟩
    · cases hv
  · cases hq

/-- A text frame is answered with a close; the HELLO that was sent right after it makes a session. -/
theorem not_proper : ¬ ∀ (env : ControlEnv) (relay : Relay) (sessions : List Nat) (es : List Event),
    Proper env (start relay sessions) es := by
  intro h
  let s0 := start (Relay.new someEnv.cfg) []
  let s1 := s0.reject CLOSE_BAD_REQUEST "bad_request" "frames must be binary"
  have hforces : Forces someEnv s1 (.message true greeting someChance) := ⟨rfl, rfl, .inl ⟨rfl, greeting_welcome⟩⟩
  obtain ⟨hm, s2, hs, hno⟩ := step_of_forces hforces
  have hp := h someEnv (Relay.new someEnv.cfg) [] [.message false [] someChance, .message true greeting someChance]
  have ht : Takes someEnv s0 [.message false [] someChance, .message true greeting someChance]
      [.message false [] someChance] (.message true greeting someChance) s1 s2 := ⟨⟨[], rfl⟩, rfl, hs⟩
  exact hno (hp.rejected _ _ _ _ ht hm (by simp [s1, reject, closeWs]))

end Control

end UpTunnel
