import UpTunnel.Booking.Device
import UpTunnel.Link.Talk
import UpTunnel.Server.HttpFrontend

/-!
# UpTunnel.Link.Node

A Node agent with its session and the registry: `Link.System`, with what the control plane does for the
session, the binds of its tunnels, the public connections that come in, and the other sessions.

* `Node.Inv.step`: seen as a `Booking`, a node keeps its invariant.
* `Node.reach_dials`: so the agent knows the tunnel of every STREAM_OPEN, and dials for the spec whose
  request made it.
-/

namespace UpTunnel

open Js Hub Relay

structure NodeEnv extends SysEnv, Engine where
  cfg : Config
  /-- The address of the session. -/
  self : Nat

structure Node extends Ledger where
  link : Sys
  /-- Ghost: the tunnel that the visitor of a STREAM_OPEN came by, by the frame's place among those sent. -/
  came : Dict Nat Nat

namespace Node

inductive Event where
  /-- Of other sessions, at the registry. -/
  | elsewhere (e : Relay.Event)
  /-- The session is destroyed. -/
  | destroyed
  | server (e : AgentSession.Event)
  | agent (e : Agent.Event)
  /-- A frame arrives; `hex` is what `randomBytes` gives for the id of a tunnel. -/
  | toServer (flushed : Bool) (hex : String)
  | toAgent (flushed : Bool)
  /-- The server of the tunnel at `t` listens or, with a message, has failed to. -/
  | bound (t : Nat) (failure : Option String)
  /-- The HTTP frontend has read a request head, in `chunks`, for `subdomain`. -/
  | visitHttp (subdomain remoteAddr : String) (chunks : List Bytes)
  /-- The server of the tunnel at `t` has a connection. -/
  | visitTcp (t : Nat) (remoteAddr : String)

/-- A session has just been made, and has sent HELLO_OK. -/
def start (env : NodeEnv) (relay : Relay) (token : TokenEntry) (clientName : String) : Node where
  relay := { relay with agents := relay.agents ++ [{ token, clientName, tunnels := ∅, closed := false }] }
  waiting := ∅
  made := ∅
  link := Sys.start env.toSysEnv
  came := ∅

variable (env : NodeEnv)

/-- The control plane sends a frame. -/
def answer (link : Sys) (f : Frame) : Sys :=
  { link with server := { link.server with toHub := link.server.toHub.send env.server f } }

/-- The session has heard an OPEN_TUNNEL, and is `link` now. -/
def onOpenTunnel (n : Node) (link : Sys) (body : Obj) (id : String) : Option Node :=
  n.relay.agents[env.self]?.map fun r =>
    let (l, reply) := n.toLedger.request env.cfg env.toEngine env.self r
      (controls n.link.server.wire.received).length body id
    { toLedger := l, link := reply.elim link (answer env link), came := n.came }

/-- The agent sends no other control frame. -/
def toServer (n : Node) (f : Frame) (link : Sys) (hex : String) : Option Node :=
  match f with
  | .control type body =>
    if type = FrameType.openTunnel then n.onOpenTunnel env link body ("tn_" ++ hex) else some { n with link }
  | .stream .. => some { n with link }

/-- A connection for the tunnel `tn` of the session. -/
def visit (n : Node) (t : Nat) (tn : Tunnel) (remoteAddr : String) (chunks : List Bytes) : Option Node :=
  if tn.agent = env.self then
    (n.link.step env.toSysEnv (.server (.accept tn.id remoteAddr chunks))).map fun link =>
      { n with
        link
        came := if n.link.server.wire.sent.length < link.server.wire.sent.length then
            n.came.insert n.link.server.wire.sent.length t
          else n.came }
  else none

def step (n : Node) : Event → Option Node
  | .elsewhere e =>
    if n.relay.Foreign env.self e then (n.relay.step env.cfg e).map fun relay => { n with relay } else none
  | .destroyed =>
    n.relay.agents[env.self]?.map fun r =>
      { n with
        relay := n.relay.destroy env.self r
        link := { n.link with server := n.link.server.destroy env.server } }
  | .server e => if e.isLocal then (n.link.step env.toSysEnv (.server e)).map fun link => { n with link } else none
  | .agent e => (n.link.step env.toSysEnv (.agent e)).map fun link => { n with link }
  | .toServer flushed hex =>
    n.link.up.head?.bind fun f =>
      (n.link.step env.toSysEnv (.toServer flushed)).bind fun link => n.toServer env f link hex
  | .toAgent flushed => (n.link.step env.toSysEnv (.toAgent flushed)).map fun link => { n with link }
  | .bound t failure =>
    (n.toLedger.settle env.cfg t failure).map fun (l, f) => { n with toLedger := l, link := answer env n.link f }
  | .visitHttp subdomain remoteAddr chunks =>
    (n.relay.lookupHttp subdomain).bind fun t =>
      n.relay.tunnels[t]?.bind fun tn => n.visit env t tn remoteAddr chunks
  | .visitTcp t remoteAddr =>
    n.relay.tunnels[t]?.bind fun tn =>
      if tn.listener && !n.link.server.wire.closed then n.visit env t tn remoteAddr [] else none

/-- No tunnel has had the id that a new one gets. -/
def FreshIds (n : Node) : Event → Prop
  | .elsewhere e => n.relay.FreshId e
  | .toServer _ hex => ∀ tn ∈ n.relay.tunnels, tn.id ≠ "tn_" ++ hex
  | _ => True

instance (n : Node) (e : Event) : Decidable (n.FreshIds e) := by
  cases e <;> unfold FreshIds <;> infer_instance

/-- The states in which a node begins, over whatever the registry has come to. -/
def Init (n : Node) : Prop :=
  ∃ relay token clientName, Lts.Reach (Lts.ofFn (Relay.step env.cfg)) Relay.FreshId (· = Relay.new env.cfg) relay ∧
    relay.agents.length = env.self ∧ n = start env relay token clientName

end Node

/-! ## As a booking -/

/-- What the two sides go by. -/
def NodeEnv.booking (env : NodeEnv) : BookingEnv TunnelSpec where
  cfg := env.cfg
  toEngine := env.toEngine
  self := env.self
  hello := [("agentId", .str env.agentId), ("heartbeatMs", .num (.fin env.heartbeatMs)),
    ("streamWindow", .num (.fin env.streamWindow)), ("httpDomain", .str env.httpDomain),
    ("serverVersion", .num (.fin PROTOCOL_VERSION))]
  specs := env.specs
  ask := Agent.openTunnelBody
  ask_reqId _ _ := rfl
  hello_reqId := rfl

namespace Node

def booking (n : Node) : Booking TunnelSpec where
  toLedger := n.toLedger
  server := n.link.server.wire.side
  device := n.link.agent.wire.side
  welcomed := n.link.agent.handshook
  tunnels := n.link.agent.tunnels
  pending := n.link.agent.pending
  came := n.came

/-- The session has made a booking that keeps the invariant. -/
def Inv (env : NodeEnv) (n : Node) : Prop := Booking.Inv env.booking n.booking

variable {env : NodeEnv} {n n' : Node}

theorem getElem?_of_head?_drop {α : Type} {xs : List α} {i : Nat} {x : α} (h : (xs.drop i).head? = some x) :
    xs[i]? = some x := by
  rwa [List.head?_drop] at h

theorem Init.inv (h : Init env n) : n.Inv env := by
  obtain ⟨relay, token, clientName, hr, hlen, rfl⟩ := h
  have hI := Relay.reach_inv hr
  have hside : (start env relay token clientName).link.server.wire.side =
      ⟨[.control FrameType.helloOk env.booking.hello], [], true, false⟩ := by
    rw [show (start env relay token clientName).link.server.wire = _ from wire_send _]
    simp [Wire.side, AgentSession.new, Wire.canSend, Wire.passed, Wire.send_sent, SysEnv.helloOk, AgentSession.helloOk,
      NodeEnv.booking]
  have hstep : Relay.step env.cfg relay (.connect token clientName) = some (start env relay token clientName).relay := rfl
  have hself : (start env relay token clientName).relay.agents[env.booking.self]? = some ⟨token, clientName, ∅, false⟩ := by
    simp [start, NodeEnv.booking, ← hlen]
  have hnone : ∀ t, (start env relay token clientName).relay.agentOf t ≠ some env.booking.self := by
    intro t ht
    have := hI.owned t env.self ht
    omega
  have h0 := Booking.Inv.start true false true false (hI.step (e := .connect token clientName) trivial hstep) hself hnone
  simp only [Inv, booking, hside]
  exact h0

theorem Inv.destroyed (h : n.Inv env) (hs : step env n .destroyed = some n') : n'.Inv env := by
  obtain ⟨r, hr, rfl⟩ := Option.map_eq_some_iff.mp hs
  have hside := AgentSession.destroy_side env.toSysEnv.server n.link.server
  have h1 := Booking.Inv.step h (.gone hr)
  have ht : Side.Turns { n.link.server.wire.side with up := false }
      { n.link.server.wire.side with up := false, ended := true } [] [] :=
    ⟨by simp, by simp, fun hu => hu, fun _ => rfl⟩
  have h2 := Booking.Inv.step h1 (.serverTalks ht .nil rfl List.nil_prefix)
  simp only [Inv, booking, hside]
  exact h2

theorem Inv.server (h : n.Inv env) {e : AgentSession.Event} (hs : step env n (.server e) = some n') : n'.Inv env := by
  simp only [step] at hs
  split at hs
  case isFalse => cases hs
  rename_i he
  obtain ⟨link, hl, rfl⟩ := Option.map_eq_some_iff.mp hs
  have hstep : n.link.stepServer env.toSysEnv e = some link := by
    cases e with
    | frame => cases he
    | _ => exact hl
  obtain ⟨server, hserver, rfl⟩ := Option.map_eq_some_iff.mp hstep
  obtain ⟨fs, ht, hm⟩ := AgentSession.step_turns he hserver
  exact Booking.Inv.step h (.serverTalks ht hm rfl List.nil_prefix)

theorem Inv.agent (h : n.Inv env) {e : Agent.Event} (hs : step env n (.agent e) = some n') : n'.Inv env := by
  obtain ⟨link, hl, rfl⟩ := Option.map_eq_some_iff.mp hs
  cases he : e.isLocal with
  | true =>
    have hstep : n.link.stepAgent env.toSysEnv e = some link := by
      cases e with
      | frame => cases he
      | _ => exact hl
    obtain ⟨agent, hagent, rfl⟩ := Option.map_eq_some_iff.mp hstep
    obtain ⟨htunnels, hpending, hshook, fs, ht, hm⟩ := Agent.step_turns he hagent
    have h1 := Booking.Inv.step h (.deviceTalks ht hm rfl List.nil_prefix)
    simp only [Inv, booking, htunnels, hpending, hshook]
    exact h1
  | false =>
    cases e with
    | frame => cases hl
    | teardown =>
      cases hl
      obtain ⟨fs, ht, hm⟩ := Agent.teardownSession_turns env.toSysEnv.agent n.link.agent
      have h1 := Booking.Inv.step h (.hangup ht hm rfl)
      exact h1
    | _ => cases he

theorem Inv.elsewhere (h : n.Inv env) {e : Relay.Event} (hid : n.relay.FreshId e)
    (hs : step env n (.elsewhere e) = some n') : n'.Inv env := by
  simp only [step] at hs
  split at hs
  · rename_i hf
    obtain ⟨relay, hr, rfl⟩ := Option.map_eq_some_iff.mp hs
    exact Booking.Inv.step h (.elsewhere hid hf hr)
  · cases hs

theorem Inv.bound (h : n.Inv env) {t : Nat} {failure : Option String} (hs : step env n (.bound t failure) = some n') :
    n'.Inv env := by
  obtain ⟨⟨l, f⟩, hl, rfl⟩ := Option.map_eq_some_iff.mp hs
  have h1 := Booking.Inv.step h (.settled hl)
  simp only [Inv, booking, answer, wire_send, Wire.send_side]
  exact h1

/-- The agent sends no control frame but its requests. -/
theorem Inv.asked (h : n.Inv env) {type : Nat} {body : Obj} (hm : .control type body ∈ n.link.agent.wire.sent) :
    type = FrameType.openTunnel := by
  have hc : (type, body) ∈ controls n.link.agent.wire.sent := List.mem_filterMap.mpr ⟨_, hm, rfl⟩
  obtain ⟨p, -, he⟩ := List.mem_map.mp (h.lines.asked.subset hc)
  exact (congrArg (·.1) he).symm

theorem Inv.toServer (h : n.Inv env) {flushed : Bool} {hex : String} (hid : ∀ tn ∈ n.relay.tunnels, tn.id ≠ "tn_" ++ hex)
    (hs : step env n (.toServer flushed hex) = some n') : n'.Inv env := by
  obtain ⟨f, hf, hs⟩ := Option.bind_eq_some_iff.mp hs
  obtain ⟨link, hl, hs⟩ := Option.bind_eq_some_iff.mp hs
  have hnext := getElem?_of_head?_drop hf
  have hl' : n.link.stepServer env.toSysEnv (.frame f flushed) = some link := by simpa [Sys.step, hf] using hl
  obtain ⟨server, hserver, rfl⟩ := Option.map_eq_some_iff.mp hl'
  cases f with
  | stream type id payload =>
    cases hs
    obtain ⟨fs, ht, hm⟩ := AgentSession.frame_turns hserver
    exact Booking.Inv.step h (.serverTalks ht hm rfl (Booking.prefix_drop hnext))
  | control type body =>
    cases h.asked (List.mem_of_getElem? hnext)
    cases hserver
    simp only [Node.toServer, if_true] at hs
    obtain ⟨r, hr, rfl⟩ := Option.map_eq_some_iff.mp hs
    have hne : "tn_" ++ hex ≠ "" := by simp
    obtain ⟨l, reply, hp⟩ : ∃ l reply, n.toLedger.request env.cfg env.toEngine env.self r
        (controls n.link.server.wire.received).length body ("tn_" ++ hex) = (l, reply) := ⟨_, _, rfl⟩
    have h1 := Booking.Inv.step h (.request hr hnext hid hne hp)
    rw [hp]
    cases reply with
    | none =>
      rw [Option.toList_none, Side.sends_nil] at h1
      exact h1
    | some g =>
      simp only [Inv, booking, Option.elim_some, answer, wire_send, Wire.send_side]
      exact h1

theorem Inv.visit (h : n.Inv env) {t : Nat} {tn : Tunnel} {remoteAddr : String} {chunks : List Bytes}
    (ht : n.relay.tunnels[t]? = some tn) (hr : Booking.Reachable n.relay t)
    (hs : n.visit env t tn remoteAddr chunks = some n') : n'.Inv env := by
  unfold Node.visit at hs
  split at hs
  case isFalse => cases hs
  rename_i ha
  obtain ⟨link, hl, rfl⟩ := Option.map_eq_some_iff.mp hs
  cases hl
  rcases AgentSession.openStream_talks env.toSysEnv.server env.streamWindow n.link.server tn.id
    remoteAddr (AgentSession.accepted chunks) chunks.flatten with hw | ⟨id, payload, fs, hp, hm, hd⟩
  · simp only [Inv, booking, hw, Nat.lt_irrefl, if_false]
    exact h
  · have h1 := Booking.Inv.step h (.visitor id ht ha hr hp hm)
    have hcame : (if n.link.server.wire.sent.length < (n.link.server.openStream env.toSysEnv.server env.streamWindow tn.id
        remoteAddr (AgentSession.accepted chunks) chunks.flatten).wire.sent.length then
          n.came.insert n.link.server.wire.sent.length t else n.came) =
        if n.link.server.wire.canSend then n.came.insert n.link.server.wire.sent.length t else n.came := by
      rw [hd.sent, Wire.passed]
      cases n.link.server.wire.canSend <;> simp
    simp only [Inv, booking, hd.side]
    rw [hcame]
    exact h1

theorem strOr_str {o : Obj} {key otherwise s : String} (h : o.get key = some (.str s)) :
    o.strOr key otherwise = .ok s := by
  rw [Obj.strOr, h]
  rfl

/-- The first frame is HELLO_OK, and the requests go out. -/
theorem Inv.welcomed (h : n.Inv env) (hw : n.link.agent.handshook = false) {f : Frame} {flushed : Bool} {agent : Agent}
    (hnext : n.link.server.wire.sent[n.link.agent.wire.received.length]? = some f)
    (hs : n.link.agent.step env.toSysEnv.agent env.specs (.frame f flushed) = some agent) :
    Inv env { n with link := { n.link with agent } } := by
  obtain ⟨hnil, -⟩ := h.lines.unwelcome hw
  have hhello : n.link.server.wire.sent[n.link.agent.wire.received.length]? = some env.helloOk := by
    rw [show n.link.agent.wire.received = [] from hnil]
    exact h.lines.hello
  cases hnext.symm.trans hhello
  have hx := (Agent.onMessage_hello (a := { n.link.agent with
    wire := { n.link.agent.wire with received := n.link.agent.wire.received ++ [env.helloOk] } })
    hw flushed env.helloOk).symm.trans (toOption_eq_some.mp hs)
  rw [Sys.handleHandshake_helloOk] at hx
  have hreg := Agent.foldl_registerTunnel env.toSysEnv.agent env.specs 0
    { n.link.agent with
      wire := { n.link.agent.wire with received := n.link.agent.wire.received ++ [env.helloOk] }
      window := if 0 < env.streamWindow then env.streamWindow else n.link.agent.window
      handshook := true }
  have he := Except.ok.inj hx
  simp only [Agent.registerTunnels] at he
  rw [he] at hreg
  have hpend : ∀ (k : Nat) (spec : TunnelSpec), env.specs[k]? = some spec →
      agent.pending.lookup (toString k) = some spec := by
    intro k spec hk
    have := hreg.pending k spec hk
    rwa [Nat.zero_add] at this
  have hasks : env.booking.asks = env.specs.zipIdx.map fun p =>
      .control FrameType.openTunnel (Agent.openTunnelBody (toString p.2) p.1) := by
    rw [BookingEnv.asks, BookingEnv.requests, List.map_map]
    rfl
  have h1 := Booking.Inv.step h (.welcomed hw hhello hpend)
  simp only [Inv, booking, hreg.tunnels, hreg.handshook, hreg.wire.side]
  rw [hasks] at h1
  exact h1

/-- A frame that is not the first. -/
theorem Inv.heard (h : n.Inv env) (hw : n.link.agent.handshook = true) {f : Frame} {flushed : Bool} {agent : Agent}
    (hnext : n.link.server.wire.sent[n.link.agent.wire.received.length]? = some f)
    (hs : n.link.agent.step env.toSysEnv.agent env.specs (.frame f flushed) = some agent) :
    Inv env { n with link := { n.link with agent } } := by
  have hx := (Agent.onMessage_handshook env.toSysEnv.agent env.specs (a := { n.link.agent with
    wire := { n.link.agent.wire with received := n.link.agent.wire.received ++ [f] } })
    hw flushed f).symm.trans (toOption_eq_some.mp hs)
  cases f with
  | stream type id payload =>
    have key : ∀ {hub : Hub ClientStream}, ({ n.link.agent.wire with
        received := n.link.agent.wire.received ++ [.stream type id payload] } : Wire).Talks hub.wire →
        Inv env { n with link := { n.link with agent := { n.link.agent with toHub := hub } } } := by
      intro hub ht
      obtain ⟨fs, ht, hm⟩ := ht.turns
      exact Booking.Inv.step h (.deviceTalks ht hm rfl (Booking.prefix_drop hnext))
    simp only [Agent.handleFrame] at hx
    split at hx
    · obtain ⟨tunnelId, -, rfl⟩ := map_ok.mp hx
      exact key (Agent.onStreamOpen_talks { n.link.agent with wire := _ } id tunnelId)
    · obtain ⟨hub, hhub, rfl⟩ := map_ok.mp hx
      exact key (Agent.handleStreamFrame_talks hhub)
  | control type body =>
    obtain ⟨rfl, rfl⟩ | ⟨k, hk, hreq, rfl | ⟨rfl, t, id, place, -, -, hid⟩⟩ :=
      h.books.said.replies type body (List.mem_of_getElem? hnext)
    · cases hx
      exact Booking.Inv.step h (.greeted hw hnext)
    · simp only [Agent.handleFrame, FrameType.tunnelOk, FrameType.error] at hx
      obtain ⟨reqId, hq, hx⟩ := bind_ok.mp hx
      obtain ⟨-, -, hx⟩ := bind_ok.mp hx
      obtain ⟨-, -, hx⟩ := bind_ok.mp hx
      cases (strOr_str hreq).symm.trans hq
      cases hx
      exact Booking.Inv.step h (.refused hw hnext hreq)
    · obtain ⟨reqId, hq, hx⟩ := bind_ok.mp hx
      obtain ⟨tunnelId, ht, hx⟩ := bind_ok.mp hx
      obtain ⟨-, -, hx⟩ := bind_ok.mp hx
      cases (strOr_str hreq).symm.trans hq
      cases (strOr_str hid).symm.trans ht
      cases hx
      have h1 := Booking.Inv.step h (.announced hw hnext hreq hid)
      simp only [Inv, booking] at h1 ⊢
      cases hl : n.link.agent.pending.lookup (toString k) with
      | none =>
        simp only [hl] at h1 ⊢
        exact h1
      | some spec =>
        simp only [hl] at h1 ⊢
        exact h1

theorem Inv.toAgent (h : n.Inv env) {flushed : Bool} (hs : step env n (.toAgent flushed) = some n') : n'.Inv env := by
  obtain ⟨link, hl, rfl⟩ := Option.map_eq_some_iff.mp hs
  obtain ⟨f, hf, hl⟩ := Option.bind_eq_some_iff.mp hl
  obtain ⟨agent, hagent, rfl⟩ := Option.map_eq_some_iff.mp hl
  have hnext := getElem?_of_head?_drop hf
  cases hw : n.link.agent.handshook with
  | false => exact h.welcomed hw hnext hagent
  | true => exact h.heard hw hnext hagent

theorem Inv.step (h : n.Inv env) {e : Event} (hok : n.FreshIds e) (hs : step env n e = some n') : n'.Inv env := by
  cases e with
  | elsewhere e => exact h.elsewhere hok hs
  | destroyed => exact h.destroyed hs
  | server e => exact h.server hs
  | agent e => exact h.agent hs
  | toServer flushed hex => exact h.toServer hok hs
  | toAgent flushed => exact h.toAgent hs
  | bound t failure => exact h.bound hs
  | visitHttp subdomain remoteAddr chunks =>
    obtain ⟨t, ht, hs⟩ := Option.bind_eq_some_iff.mp hs
    obtain ⟨tn, htn, hs⟩ := Option.bind_eq_some_iff.mp hs
    exact h.visit htn (.inl ((h.books.accounts.inv.bySubdomain subdomain t).mp ht).1) hs
  | visitTcp t remoteAddr =>
    obtain ⟨tn, htn, hs⟩ := Option.bind_eq_some_iff.mp hs
    split at hs
    · rename_i hc
      exact h.visit htn (.inr ⟨tn, htn, (Bool.and_eq_true_iff.mp hc).1⟩) hs
    · cases hs

theorem reach_inv (hr : Lts.Reach (Lts.ofFn (step env)) FreshIds (Init env) n) : n.Inv env :=
  hr.invariant (fun _ h => h.inv) fun _ _ _ _ h hok hs => h.step hok hs

/-! ## Where a visitor ends up -/

/-- The request for `spec` asks for what `spec` is. -/
theorem ask_of_spec {reqId : String} {spec : TunnelSpec} {req : OpenTunnelRequest}
    (hp : parseRequest env.toEngine (Agent.openTunnelBody reqId spec) = .ok req) :
    parseAsk env.toEngine (Agent.openTunnelBody reqId spec) spec.kind = .ok req.ask := by
  obtain ⟨kind, hk, -, ha, -⟩ := parseRequest_ok hp
  cases he : spec.kind with
  | http =>
    simp only [parseKind, Agent.openTunnelBody, he] at hk
    cases hk
    exact ha
  | tcp =>
    simp only [parseKind, Agent.openTunnelBody, he] at hk
    cases hk
    exact ha

theorem http_of_fits {reqId : String} {spec : TunnelSpec} {req : OpenTunnelRequest} {sub : Label}
    (hp : parseRequest env.toEngine (Agent.openTunnelBody reqId spec) = .ok req) (hf : Booking.Fits req.ask (.http sub)) :
    spec.kind = .http ∧ spec.subdomain.map (fun s => trim (env.lower s)) = some sub.val := by
  have ha := ask_of_spec hp
  cases hk : spec.kind with
  | http =>
    rw [hk] at ha
    obtain ⟨sub', hsub, he⟩ := map_ok.mp ha
    rw [← he] at hf
    obtain rfl : sub = sub' := hf
    obtain ⟨hval, -⟩ := parseSubdomain_ok hsub
    have hraw : rawSubdomain env.lower (Agent.openTunnelBody reqId spec) =
        (spec.subdomain.map fun s => trim (env.lower s)).getD "" := by
      unfold rawSubdomain Agent.openTunnelBody
      rw [hk]
      cases spec.subdomain <;> rfl
    refine ⟨rfl, ?_⟩
    cases hs : spec.subdomain with
    | none =>
      have hv := sub.valid
      simp [hval, hraw, hs, isLabel] at hv
    | some raw =>
      rw [hval, hraw, hs]
      rfl
  | tcp =>
    rw [hk] at ha
    obtain ⟨port, -, he⟩ := map_ok.mp ha
    rw [← he] at hf
    cases hf

theorem tcp_of_fits {reqId : String} {spec : TunnelSpec} {req : OpenTunnelRequest} {port : Int}
    (hp : parseRequest env.toEngine (Agent.openTunnelBody reqId spec) = .ok req) (hf : Booking.Fits req.ask (.tcp port)) :
    spec.kind = .tcp := by
  have ha := ask_of_spec hp
  cases hk : spec.kind with
  | http =>
    rw [hk] at ha
    obtain ⟨sub, -, he⟩ := map_ok.mp ha
    rw [← he] at hf
    cases hf
  | tcp => rfl

/-- The STREAM_OPEN that arrives next tells of a visitor who came by the tunnel `tn` at `t`; the session's
request `k`, which is for `spec`, has made that tunnel. -/
structure Meant (env : NodeEnv) (n : Node) (t k : Nat) (tn : Tunnel) (spec : TunnelSpec) : Prop where
  came : n.came.lookup n.link.agent.wire.received.length = some t
  tunnel : n.relay.tunnels[t]? = some tn
  agent : tn.agent = env.self
  made : n.made.lookup t = some k
  asked : env.specs[k]? = some spec
  request : (controls n.link.server.wire.received)[k]? =
    some (FrameType.openTunnel, Agent.openTunnelBody (toString k) spec)
  kind : tn.kind = spec.kind
  subdomain : ∀ sub, tn.subdomain = some sub → spec.subdomain.map (fun s => trim (env.lower s)) = some sub

theorem Inv.meant (h : n.Inv env) (ho : n.link.agent.wire.closed = false) {id : Nat} {payload : Bytes}
    (hnext : n.link.down.head? = some (.stream FrameType.streamOpen id payload)) :
    ∃ t k tn spec, Meant env n t k tn spec ∧ (streamFrameJson payload).get "tunnelId" = some (.str tn.id) ∧
      n.link.agent.tunnels.lookup tn.id = some spec := by
  obtain ⟨t, k, tid, place, spec, req, hcame, hmade, hown, hp, hspec, hlook, hparse, hfits⟩ :=
    Booking.Inv.dials h ho (getElem?_of_head?_drop hnext)
  obtain ⟨tn, htn, he⟩ := Option.map_eq_some_iff.mp hown
  simp only [Relay.fixed, Prod.mk.injEq] at he
  obtain ⟨rfl, rfl, ha⟩ := he
  have hreq : (controls n.link.server.wire.received)[k]? =
      some (FrameType.openTunnel, Agent.openTunnelBody (toString k) spec) := by
    have hk := (h.books.accounts.made t k hmade).1
    have hpre := (Booking.controls_prefix h.lines.up).trans h.lines.asked
    have hget := env.booking.getElem?_requests k
    rw [show env.booking.specs[k]? = some spec from hspec] at hget
    refine .trans ?_ hget
    obtain ⟨rest, hrest⟩ := hpre
    rw [← hrest, List.getElem?_append_left hk]
    rfl
  refine ⟨t, k, tn, spec, ⟨hcame, htn, ha, hmade, hspec, hreq, ?_, fun sub hsub => ?_⟩, hp, hlook⟩
  · cases hplace : tn.place with
    | http sub =>
      rw [hplace] at hfits
      simp [Tunnel.kind, hplace, (http_of_fits hparse hfits).1]
    | tcp port =>
      rw [hplace] at hfits
      simp [Tunnel.kind, hplace, tcp_of_fits hparse hfits]
  · cases hplace : tn.place with
    | http sub' =>
      rw [hplace] at hfits
      simp only [Tunnel.subdomain, hplace, Option.some.injEq] at hsub
      rw [← hsub]
      exact (http_of_fits hparse hfits).2
    | tcp port => simp [Tunnel.subdomain, hplace] at hsub

/-- Where the tunnel is known, a stream is made for its spec. -/
theorem onStreamOpen_dials (env : WireEnv) (id : Nat) {a : Agent} {tunnelId : String} {spec : TunnelSpec}
    (h : a.tunnels.lookup tunnelId = some spec) :
    ∃ c : ClientStream, a.onStreamOpen env id tunnelId = a.toHub.insert id c ∧ c.id = id ∧ c.spec = spec := by
  rw [Agent.onStreamOpen, h]
  refine ⟨_, rfl, ?_, ?_⟩
  · split
    · exact congrArg (·.id) (Endpoint.core_setGlobalPause true (ClientStream.new id spec a.window a.wire).toEndpoint)
    · rfl
  · split <;> rfl

/-- Every STREAM_OPEN that arrives names a tunnel that the agent has, and the agent dials for the spec whose
request made the tunnel that the visitor came by. Nothing is answered. -/
theorem reach_dials (hr : Lts.Reach (Lts.ofFn (step env)) FreshIds (Init env) n) (ho : n.link.agent.wire.closed = false)
    {id : Nat} {payload : Bytes} (hnext : n.link.down.head? = some (.stream FrameType.streamOpen id payload))
    (flushed : Bool) :
    ∃ t k tn spec, Meant env n t k tn spec ∧ (streamFrameJson payload).get "tunnelId" = some (.str tn.id) ∧
      n.link.agent.tunnels.lookup tn.id = some spec ∧
      ∃ n' c, step env n (.toAgent flushed) = some n' ∧ n'.link.agent.objs = n.link.agent.objs ++ [c] ∧
        c.id = id ∧ c.spec = spec ∧ n'.link.agent.wire.sent = n.link.agent.wire.sent := by
  obtain ⟨t, k, tn, spec, hm, hp, hlook⟩ := (reach_inv hr).meant ho hnext
  refine ⟨t, k, tn, spec, hm, hp, hlook, ?_⟩
  have hI := reach_inv hr
  have hw : n.link.agent.handshook = true := by
    cases hw : n.link.agent.handshook with
    | true => rfl
    | false =>
      have hnil := (hI.lines.unwelcome hw).1
      have hfirst := getElem?_of_head?_drop hnext
      rw [show n.link.agent.wire.received = [] from hnil] at hfirst
      cases hfirst.symm.trans hI.lines.hello
  have hmsg := Agent.onMessage_handshook env.toSysEnv.agent env.specs (a := { n.link.agent with
    wire := { n.link.agent.wire with received := n.link.agent.wire.received ++ [.stream FrameType.streamOpen id payload] } })
    hw flushed (.stream FrameType.streamOpen id payload)
  simp only [Agent.handleFrame, if_true, strOr_str hp, Except.map] at hmsg
  obtain ⟨c, hc, hid, hspec⟩ := onStreamOpen_dials env.toSysEnv.agent id (a := { n.link.agent with
    wire := { n.link.agent.wire with received := n.link.agent.wire.received ++ [.stream FrameType.streamOpen id payload] } })
    hlook
  rw [hc] at hmsg
  have hstep : step env n (.toAgent flushed) = some { n with link := { n.link with agent := { n.link.agent with
      toHub := ({ n.link.agent.toHub with wire := { n.link.agent.wire with
        received := n.link.agent.wire.received ++ [.stream FrameType.streamOpen id payload] } } :
          Hub ClientStream).insert id c } } } := by
    simp only [step, Sys.step, hnext, Option.bind_some, Sys.stepAgent, Agent.step, hmsg]
    rfl
  exact ⟨_, c, hstep, rfl, hid, hspec, rfl⟩

/-! A device with a tcp tunnel and an http tunnel, whose replies come in the other order. -/

def deskEnv : NodeEnv where
  server := ⟨1024, fun _ => 0⟩
  agentBuffered := fun _ => 0
  streamWindow := 1024
  specs := [⟨"ssh", .tcp, "127.0.0.1", 22, none, none, false⟩, ⟨"web", .http, "127.0.0.1", 80, some "dev", none, false⟩]
  agentId := "ag_1"
  heartbeatMs := 1000
  httpDomain := "example.com"
  cfg := ⟨"example.com", "https", "example.com", 10000, 10010, 1024, 1000, []⟩
  lower := id
  maxJoins := 1000
  self := 0

def deskRun : List Event :=
  [.toAgent true, .toServer true "1", .toServer true "2", .bound 0 none, .toAgent true, .toAgent true, .visitTcp 0 "10.0.0.1"]

/-- A STREAM_OPEN is the next frame for the agent, whose session is not over. -/
def opensNext (n : Node) : Bool :=
  !n.link.agent.wire.closed && n.link.down.head?.any fun
    | .stream type _ _ => type == FrameType.streamOpen
    | .control .. => false

theorem reach_dials_desk : ∃ n id payload, n.link.down.head? = some (.stream FrameType.streamOpen id payload) ∧
    ∃ t k tn spec, Meant deskEnv n t k tn spec ∧ (streamFrameJson payload).get "tunnelId" = some (.str tn.id) ∧
      n.link.agent.tunnels.lookup tn.id = some spec ∧
      ∃ n' c, step deskEnv n (.toAgent true) = some n' ∧ n'.link.agent.objs = n.link.agent.objs ++ [c] ∧
        c.id = id ∧ c.spec = spec ∧ n'.link.agent.wire.sent = n.link.agent.wire.sent := by
  have hx : (Lts.execOk (step deskEnv) FreshIds (start deskEnv (.new deskEnv.cfg) ⟨"t", "desk", none, none, none⟩ "desk")
      deskRun).map opensNext = some true := by decide +kernel
  obtain ⟨n, hn, ho⟩ := Option.map_eq_some_iff.mp hx
  have hr : Lts.Reach (Lts.ofFn (step deskEnv)) FreshIds (Init deskEnv) n :=
    Lts.Reach.execOk (.start ⟨_, _, _, .start rfl, rfl, rfl⟩) hn
  obtain ⟨hc, hopen⟩ := Bool.and_eq_true_iff.mp ho
  obtain ⟨f, hf, hs⟩ := (Option.any_eq_true _ _).mp hopen
  cases f with
  | control => cases hs
  | stream type id payload =>
    cases beq_iff_eq.mp hs
    exact ⟨n, id, payload, hf, reach_dials hr (by simpa using hc) hf true⟩

end Node

end UpTunnel
