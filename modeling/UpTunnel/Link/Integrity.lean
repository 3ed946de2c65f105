import UpTunnel.Link.System
import UpTunnel.Client.Flow
import UpTunnel.Server.Flow

/-!
# UpTunnel.Link.Integrity

What the two ends of a stream have of each other, over whole runs of a session and its agent.

* `reach_delivered`: each end has written a prefix of what the other has read, and has ended its socket
  only when it has written all of it.
* `reach_conserved`: in both directions the window is the sender's credit, the bytes under way, those not
  acknowledged and the acknowledgements under way.
* `not_delivered`, `not_conserved`: neither survives the reuse of a stream id while something of the
  stream that had it is left.
-/

namespace UpTunnel

open Js Hub StreamObj EndView

/-! ## Bytes under way -/

/-- Bytes of STREAM_DATA for the stream `k`. -/
def dataBytes (k : Nat) : List Frame → Nat
  | [] => 0
  | .control .. :: fs => dataBytes k fs
  | .stream type id payload :: fs =>
    (if id = k ∧ type = FrameType.streamData then payload.length else 0) + dataBytes k fs

/-- The sum of the STREAM_ACKs for the stream `k`. -/
def ackBytes (k : Nat) : List Frame → Nat
  | [] => 0
  | .control .. :: fs => ackBytes k fs
  | .stream type id payload :: fs =>
    (if id = k ∧ type = FrameType.streamAck ∧ payload.length ≥ 4 then readUInt32BE payload else 0) + ackBytes k fs

theorem msgs_cons (k : Nat) (f : Frame) (fs : List Frame) : msgs k (f :: fs) = (msg? k f).toList ++ msgs k fs := by
  rw [← msgs_singleton, ← msgs_append]
  rfl

theorem dataBytes_eq (k : Nat) (fs : List Frame) : dataBytes k fs = (Item.elems (Msg.items (msgs k fs))).length := by
  induction fs with
  | nil => rfl
  | cons f fs ih =>
    cases f with
    | control => exact ih
    | stream type id payload =>
      rw [msgs_cons, dataBytes, ih, Msg.items_append, Item.elems_append, List.length_append]
      congr 1
      simp only [msg?]
      split_ifs <;> simp_all

theorem ackBytes_eq (k : Nat) (fs : List Frame) : ackBytes k fs = Msg.acks (msgs k fs) := by
  induction fs with
  | nil => rfl
  | cons f fs ih =>
    cases f with
    | control => exact ih
    | stream type id payload =>
      rw [msgs_cons, ackBytes, ih, Msg.acks_append]
      congr 1
      simp only [msg?]
      split_ifs <;> simp_all [FrameType.streamData, FrameType.streamEof, FrameType.streamAck]

namespace Sys

/-! ## Integrity -/

/-- `r` has written what `s` has read, as far as it has got, and all of it once it has ended. -/
structure Delivers (s r : Endpoint) : Prop where
  pre : r.socket.bytesWritten <+: s.socket.bytesRead
  ended : r.socket.ended = true → s.socket.endSeen = true ∧ r.socket.bytesWritten = s.socket.bytesRead

structure Delivered (sys : Sys) : Prop where
  /-- Every stream of the agent was made for exactly one of the server, -/
  made : ∀ (x : Nat) (c : ClientStream), sys.agent.objs[x]? = some c →
    ∃ (a : Nat) (s : Stream), sys.server.objs[a]? = some s ∧ Paired s c ∧
      ∀ (a' : Nat) (s' : Stream), sys.server.objs[a']? = some s' → Paired s' c → a' = a
  /-- and no two for one. -/
  once : ∀ (x x' : Nat) (c c' : ClientStream) (s : Stream), sys.agent.objs[x]? = some c → sys.agent.objs[x']? = some c' →
    Paired s c → Paired s c' → x = x'
  toLocal : ∀ (a x : Nat) (s : Stream) (c : ClientStream), sys.server.objs[a]? = some s → sys.agent.objs[x]? = some c →
    Paired s c → c.Plain → Delivers s c.toEndpoint
  toPublic : ∀ (a x : Nat) (s : Stream) (c : ClientStream), sys.server.objs[a]? = some s → sys.agent.objs[x]? = some c →
    Paired s c → Delivers c.toEndpoint s
  /-- A stream of the server without one at the agent has written nothing. -/
  unmade : ∀ (a : Nat) (s : Stream), sys.server.objs[a]? = some s →
    (∀ (x : Nat) (c : ClientStream), sys.agent.objs[x]? = some c → ¬ Paired s c) →
      s.socket.bytesWritten = [] ∧ s.socket.ended = false

variable {env : SysEnv} {sys : Sys} {ends : Nat → End UInt8}

/-- The frozen pipe from `s` to `r`, in terms of their sockets. -/
theorem Delivers.of_frozen {s r : Endpoint} {x y : End UInt8} {xy : List (Msg UInt8)} (h : (x.pipe y xy).Frozen)
    (hs : s.Reads) (hr : r.Reads) (hp : x.pushed = s.chunks.flatten) (he : x.pushedEof = s.sentEof)
    (ht : y.taken = r.socket.bytesWritten) (hte : y.takenEof = r.receivedEof) : Delivers s r := by
  refine ⟨?_, fun hend => ?_⟩
  · have h1 : y.taken <+: x.pushed := h.pre
    rw [ht, hp] at h1
    exact h1.trans hs.sent
  · obtain ⟨h1, h2⟩ := h.all (hte.trans (hr.ended hend))
    have h1 : s.sentEof = true := he.symm.trans h1
    have h2 : y.taken = x.pushed := h2
    rw [ht, hp] at h2
    exact ⟨(hs.eof h1).1, h2.trans (hs.eof h1).2⟩

theorem Inv.delivered (hI : Inv env sys ends) : sys.Delivered where
  made x c hc := by
    obtain ⟨hb, a, s, hs, hp⟩ := hI.born x c hc
    refine ⟨a, s, hs, hp, fun a' s' hs' hp' => ?_⟩
    have h1 := hp.2
    have h2 := hp'.2
    have h3 := hI.received_le
    exact hI.sentOnce a' a s' s hs' hs (by omega) (by omega)
  once x x' c c' s hc hc' hp hp' := hI.madeOnce x x' c c' hc hc' (hp.2.trans hp'.2.symm)
  toLocal a x s c hs hc hp hplain := by
    have hL := hI.linked a s hs
    have hv := hL.view x c hc hp
    refine .of_frozen hL.inv.down.frozen (hI.reads a s hs) hv.reads rfl rfl (hv.plain hplain).2 ?_
    have h1 := congrArg (·.takenEof) hv.isEnd
    exact h1
  toPublic a x s c hs hc hp := by
    have hL := hI.linked a s hs
    have hv := hL.view x c hc hp
    exact .of_frozen hL.inv.up.frozen hv.reads (hI.reads a s hs) (congrArg (·.pushed) hv.isEnd)
      (congrArg (·.pushedEof) hv.isEnd) rfl rfl
  unmade a s hs hnone := by
    have hL := hI.linked a s hs
    have hf := hL.inv.up.frozen
    obtain ⟨h1, h2⟩ := hL.absent hnone
    refine ⟨?_, ?_⟩
    · have h3 : s.socket.bytesWritten <+: (ends a).pushed := hf.pre
      rw [h1] at h3
      exact List.prefix_nil.mp h3
    · by_contra hend
      have h3 := (hf.all ((hI.reads a s hs).ended ((Bool.not_eq_false _).mp hend))).1
      have h3 : (ends a).pushedEof = true := h3
      simp [h2] at h3

/-- Where streams are opened under ids that nothing names any more, the two ends of a stream have of
each other what they should. -/
theorem reach_delivered (hr : Lts.Reach (Lts.ofFn (step env)) OpensFresh (· = start env) sys) : sys.Delivered := by
  obtain ⟨ends, hI⟩ := reach_inv hr
  exact hI.delivered

/-! ## Credit -/

/-- The direction from `x` to `y`: `queued` bytes wait at `y` for its socket, `xy` is on the way to
`y` and `yx` on the way back. -/
structure Credited (window : Int) (x y : Endpoint) (queued : Nat) (xy yx : List Frame) : Prop where
  conserved : x.sendCredit + dataBytes x.id xy + queued + y.recvUnacked + ackBytes x.id yx = window
  /-- What has been acknowledged, to `x` or on the way back, has arrived. -/
  acked : x.acked + ackBytes x.id yx + dataBytes x.id xy ≤ x.chunks.flatten.length

/-- Both directions of every stream that is open at both ends. -/
def Conserved (env : SysEnv) (sys : Sys) : Prop :=
  ∀ (a x : Nat) (s : Stream) (c : ClientStream), sys.server.objs[a]? = some s → sys.agent.objs[x]? = some c →
    s.id = c.id → s.finished = false → c.finished = false → sys.server.wire.canSend = true →
    sys.agent.wire.canSend = true →
      Credited env.streamWindow s c.toEndpoint c.queued.flatten.length sys.down sys.up ∧
      Credited env.streamWindow c.toEndpoint s 0 sys.up sys.down ∧
      (c.toEndpoint.gate.outstanding ≤ 0 ∨
        ∃ chunk ∈ c.chunks, c.toEndpoint.gate.outstanding ≤ env.streamWindow + chunk.length - 1)

/-- What the window lacks is outstanding. -/
def Balanced (window : Int) (g : Gate) : Prop := g.sendCredit + g.outstanding = window

section
variable {window : Int} {g : Gate}

theorem Balanced.of_eq {g' : Gate} (h : Balanced window g) (hc : g'.sendCredit = g.sendCredit)
    (ho : g'.outstanding = g.outstanding) : Balanced window g' := by
  unfold Balanced
  rw [hc, ho]
  exact h

theorem Balanced.maybeResume (h : Balanced window g) : Balanced window g.maybeResume := by
  unfold Gate.maybeResume
  split
  · exact h
  · split <;> exact h.of_eq rfl rfl

theorem Balanced.setGlobalPause (h : Balanced window g) (b : Bool) : Balanced window (g.setGlobalPause b) := by
  unfold Gate.setGlobalPause
  split
  · exact h
  · split
    · exact h.of_eq rfl rfl
    · exact .maybeResume (h.of_eq rfl rfl)

theorem Balanced.onAck (h : Balanced window g) (n : Nat) : Balanced window (g.onAck n) := by
  refine .maybeResume ?_
  simp only [Balanced, Gate.outstanding] at h ⊢
  omega

theorem Balanced.onSourceData (h : Balanced window g) (chunk : Bytes) : Balanced window (g.onSourceData chunk) := by
  have h1 : Balanced window { g with sendCredit := g.sendCredit - chunk.length, chunks := g.chunks ++ [chunk] } := by
    simp only [Balanced, Gate.outstanding, List.flatten_append, List.length_append, List.flatten_cons,
      List.flatten_nil, List.append_nil] at h ⊢
    omega
  unfold Gate.onSourceData
  dsimp only
  split
  · exact h1.of_eq rfl rfl
  · exact h1

end

theorem setUp_balanced {senv : WireEnv} {streamWindow : Int} {c : Ctx} {preread : Bytes} (hf : c.self.finished = false)
    (he : c.self.sentEof = false) (h : Balanced streamWindow c.self.gate) :
    Balanced streamWindow (AgentSession.setUp senv preread c).self.gate := by
  let c1 : Ctx := if c.wire.congested then { c with self := c.self.setGlobalPause true } else c
  have h1 : c1.self.finished = false ∧ c1.self.sentEof = false ∧ Balanced streamWindow c1.self.gate := by
    simp only [c1]
    split
    · refine ⟨(Endpoint.finished_setGlobalPause _ _).trans hf, ?_, ?_⟩
      · exact (congrArg (·.sentEof) (Endpoint.core_setGlobalPause true c.self)).trans he
      · rw [Endpoint.gate_setGlobalPause hf]
        exact h.setGlobalPause true
    · exact ⟨hf, he, h⟩
  show Balanced streamWindow
    (if preread.length > 0 then Stream.writePreread senv c1 preread else c1).self.resume.gate
  split
  · rename_i hne
    have hwp : Stream.writePreread senv c1 preread = c1.onSourceData senv preread := by
      simp [Stream.writePreread, Stream.onSocketData, Nat.pos_iff_ne_zero.mp hne]
    obtain ⟨c2, hq, -, hf2, hg⟩ := Ctx.onSourceData_gate senv preread h1.1 h1.2.1
    have h2 : Balanced streamWindow c2.self.gate := by
      rw [hq.gate hf2]
      split
      · exact h1.2.2.setGlobalPause true
      · exact h1.2.2
    rw [hwp]
    have h3 := h2.onSourceData preread
    rw [← hg] at h3
    exact h3.of_eq rfl rfl
  · exact h1.2.2.of_eq rfl rfl

/-- The gates of both ends, in every run. -/
theorem reach_balanced (hr : Lts.Reach (Lts.ofFn (step env)) OpensFresh (· = start env) sys) (hw : 0 < env.agentWindow) :
    Hub.All (AgentSession.OnTable fun _ => Balanced env.streamWindow) sys.server.toHub ∧
      Hub.All (Agent.OnGate fun k _ _ => Agent.Metered env.agentWindow k) sys.agent.toHub := by
  refine hr.invariant (I := fun sys => Hub.All (AgentSession.OnTable fun _ => Balanced env.streamWindow) sys.server.toHub ∧
      Hub.All (Agent.OnGate fun k _ _ => Agent.Metered env.agentWindow k) sys.agent.toHub) ?_ ?_
  · rintro sys rfl
    refine ⟨Hub.All.send (AgentSession.law_onTable fun g hg => hg.setGlobalPause true) ?_ _, ?_⟩
    · intro a t ht
      simp [AgentSession.new] at ht
    · intro x c hc
      simp [start, Agent.new] at hc
  · rintro sys e sys' hr ⟨h1, h2⟩ - hs
    obtain ⟨ends, hI⟩ := reach_inv hr
    have hserver : ∀ {e : AgentSession.Event}, sys.stepServer env e = some sys' →
        Hub.All (AgentSession.OnTable fun _ => Balanced env.streamWindow) sys'.server.toHub ∧
          Hub.All (Agent.OnGate fun k _ _ => Agent.Metered env.agentWindow k) sys'.agent.toHub := by
      intro e hs
      obtain ⟨server', hx, rfl⟩ := Option.map_eq_some_iff.mp hs
      refine ⟨AgentSession.step_keeps (fun g hg => hg.setGlobalPause true) (fun c g n hg => hg.onAck n)
        (fun c g chunk _ hg => ⟨hg.onSourceData chunk, fun _ => (hg.setGlobalPause true).onSourceData chunk⟩) h1
        (fun _ _ chunks id _ _ => ?_) (fun a st _ _ _ _ _ hg => hg.setGlobalPause false) hx, h2⟩
      refine setUp_balanced rfl rfl ?_
      simp [Balanced, AgentSession.fresh, Endpoint.gate, Endpoint.new, Gate.outstanding]
    have hagent : ∀ {e : Agent.Event}, sys.stepAgent env e = some sys' →
        Hub.All (AgentSession.OnTable fun _ => Balanced env.streamWindow) sys'.server.toHub ∧
          Hub.All (Agent.OnGate fun k _ _ => Agent.Metered env.agentWindow k) sys'.agent.toHub := by
      intro e hs
      obtain ⟨agent', hx, rfl⟩ := Option.map_eq_some_iff.mp hs
      refine ⟨h1, Agent.step_keeps (Agent.gateLaw_metered env.agentWindow) h2 (fun hh => ?_)
        (fun _ _ _ _ _ _ _ _ _ hg => hg.setGlobalPause false) (fun _ _ _ _ _ _ _ hg => hg) hx⟩
      rw [hI.handshook hh]
      exact .fresh hw
    cases e with
    | server e =>
      cases e with
      | frame => cases hs
      | _ => exact hserver hs
    | agent e =>
      cases e with
      | frame => cases hs
      | _ => exact hagent hs
    | toServer flushed =>
      obtain ⟨f, -, hs⟩ := Option.bind_eq_some_iff.mp hs
      exact hserver hs
    | toAgent flushed =>
      obtain ⟨f, -, hs⟩ := Option.bind_eq_some_iff.mp hs
      exact hagent hs

/-- The window of each direction, of a stream that is open at both ends. -/
theorem reach_window (hw : 0 < env.streamWindow)
    (hr : Lts.Reach (Lts.ofFn (step env)) OpensFresh (· = start env) sys) {a x : Nat} {s : Stream}
    {c : ClientStream} (hs : sys.server.objs[a]? = some s) (hc : sys.agent.objs[x]? = some c) (hid : s.id = c.id)
    (hsf : s.finished = false) (hcf : c.finished = false) (hso : sys.server.wire.canSend = true)
    (hao : sys.agent.wire.canSend = true) :
    (s.sendCredit + dataBytes s.id sys.down + c.queued.flatten.length + c.recvUnacked + ackBytes s.id sys.up =
        env.streamWindow ∧
      c.sendCredit + dataBytes c.id sys.up + s.recvUnacked + ackBytes c.id sys.down = env.streamWindow) ∧
      (c.connected = true → c.queued = []) := by
  obtain ⟨ends, hI⟩ := reach_inv hr
  have hwin : env.agentWindow = env.streamWindow := if_pos hw
  -- of the streams with this id only `s` can be what `c` was made for
  have hp : Paired s c := by
    by_contra hp
    have h := (hI.over_of_agent hs hc hcf hid.symm hp).1
    simp [hsf] at h
  have hL := hI.linked a s hs
  have hv := hL.view x c hc hp
  have hef : (ends a).finished = false := (ClientStream.View.finished hv).trans hcf
  have hdown := hL.inv.down.credit hsf hef hso hao
  have hup := hL.inv.up.credit hef hsf hao hso
  rw [hwin] at hup
  have h1 : (ends a).held = c.queued.flatten := congrArg (·.held) hv.isEnd
  have h2 : (ends a).unacked = c.recvUnacked := congrArg (·.unacked) hv.isEnd
  have h3 : (ends a).credit = c.sendCredit := congrArg (·.credit) hv.isEnd
  simp only [← dataBytes_eq, ← ackBytes_eq, h1, h2, h3] at hdown hup
  change s.sendCredit + _ + _ + _ + _ = _ at hdown
  change c.sendCredit + _ + (0 : Nat) + s.recvUnacked + _ = _ at hup
  refine ⟨⟨hdown, ?_⟩, fun hk => (hv.attached hk).1⟩
  rw [← hid]
  omega

/-- An advertised window that is positive is conserved, where streams are opened under ids that
nothing names any more. -/
theorem reach_conserved (hw : 0 < env.streamWindow)
    (hr : Lts.Reach (Lts.ofFn (step env)) OpensFresh (· = start env) sys) : Conserved env sys := by
  intro a x s c hs hc hid hsf hcf hso hao
  obtain ⟨ends, hI⟩ := reach_inv hr
  have hwin : env.agentWindow = env.streamWindow := if_pos hw
  obtain ⟨hbal, hmet⟩ := reach_balanced hr (hwin ▸ hw)
  obtain ⟨⟨hdown, hup⟩, -⟩ := reach_window hw hr hs hc hid hsf hcf hso hao
  have hlisted : sys.server.listed a = true := listed_iff.mpr ⟨s.id, (hI.serverTable s.id a).mpr ⟨s, hs, rfl, hsf⟩⟩
  have hbs := hbal a s hs hlisted hsf
  have hmc := hmet x c hc hcf
  have hbc := hmc.balance
  rw [hwin] at hbc hmc
  simp only [Balanced, Gate.outstanding] at hbs
  simp only [Gate.outstanding] at hbc
  change s.sendCredit + ((s.chunks.flatten.length : Int) - s.acked) = _ at hbs
  change c.sendCredit + ((c.chunks.flatten.length : Int) - c.acked) = _ at hbc
  refine ⟨⟨hdown, by omega⟩, ⟨?_, ?_⟩, hmc.bound⟩
  · show c.sendCredit + dataBytes c.id sys.up + (0 : Nat) + s.recvUnacked + ackBytes c.id sys.down = _
    omega
  · show c.acked + ackBytes c.id sys.down + dataBytes c.id sys.up ≤ c.chunks.flatten.length
    omega

/-! ## A stream id comes round again -/

/-- Nothing fills up. -/
def calm : SysEnv where
  server := ⟨8388608, fun _ => 0⟩
  agentBuffered := fun _ => 0
  streamWindow := 4
  specs := [⟨"web", .tcp, "localhost", 80, none, none, false⟩]
  agentId := "a"
  heartbeatMs := 15000
  httpDomain := "localhost"

/-- The agent is welcomed and has its tunnel. -/
def greeting : List Event :=
  [.toAgent true, .server (.control FrameType.tunnelOk [("reqId", .str "0"), ("tunnelId", .str "t")]), .toAgent true]

/-- One byte each way; the local socket has not flushed the one, the other is still on its way. -/
def exchange : List Event :=
  [.toAgent true, .server (.data 0 [7]), .toAgent true, .agent (.dialed 0 fun _ => false), .agent (.data 0 [8]),
    .toServer true]

/-- The connection that `exchange` needs. -/
def connection : Event := .server (.accept "t" "r" [])

/-- All that was sent in between opens streams. -/
def Opens (w w' : Wire) : Prop :=
  ∃ fs, w'.sent = w.sent ++ fs ∧ ∀ f ∈ fs, ∃ id payload, f = .stream FrameType.streamOpen id payload

theorem Opens.refl (w : Wire) : Opens w w := ⟨[], by simp, by simp⟩

theorem Opens.trans {w w' w'' : Wire} (h : Opens w w') (h' : Opens w' w'') : Opens w w'' := by
  obtain ⟨fs, h1, h2⟩ := h
  obtain ⟨gs, h3, h4⟩ := h'
  refine ⟨fs ++ gs, by rw [h3, h1, List.append_assoc], fun f hf => ?_⟩
  rcases List.mem_append.mp hf with hf | hf
  · exact h2 f hf
  · exact h4 f hf

theorem Opens.length_le {w w' : Wire} (h : Opens w w') : w.sent.length ≤ w'.sent.length := by
  obtain ⟨fs, h1, -⟩ := h
  rw [h1, List.length_append]
  omega

theorem Opens.send (senv : WireEnv) (w : Wire) (id : Nat) (payload : Bytes) :
    Opens w (w.send senv (.stream FrameType.streamOpen id payload)) := by
  refine ⟨w.passed [.stream FrameType.streamOpen id payload], Wire.send_sent senv w _, fun f hf => ?_⟩
  unfold Wire.passed at hf
  split at hf
  · exact ⟨id, payload, List.mem_singleton.mp hf⟩
  · cases hf

/-- A connection without a pre-read, in a session that has no streams. -/
theorem openStream_alone (senv : WireEnv) (streamWindow : Int) {s : AgentSession}
    (hs : ∀ id, s.streams.lookup id = none) (tunnelId remoteAddr : String) :
    ∃ t : Stream, let s' := s.openStream senv streamWindow tunnelId remoteAddr (AgentSession.accepted []) []
      s'.objs[s.objs.length]? = some t ∧
      t.core = (Endpoint.new s.nextStreamId (AgentSession.accepted []) streamWindow s.wire).core ∧
      (∀ id, s'.streams.lookup id = if id = s.nextStreamId then some s.objs.length else none) ∧
      s'.nextStreamId = (if s.nextStreamId ≥ MAX_STREAM_ID then 1 else s.nextStreamId + 1) ∧
      s'.wire.received = s.wire.received ∧ s'.wire.canSend = s.wire.canSend ∧ Opens s.wire s'.wire := by
  have halloc : s.allocStreamId =
      (some s.nextStreamId, if s.nextStreamId ≥ MAX_STREAM_ID then 1 else s.nextStreamId + 1) := by
    have hn : s.nextStreamId ∉ s.streams := AList.lookup_eq_none.mp (hs _)
    simp [AgentSession.allocStreamId, AgentSession.allocFrom, hn]
  let h0 := s.toHub.send senv (.streamJson FrameType.streamOpen s.nextStreamId
    [("tunnelId", .str tunnelId), ("remoteAddr", .str remoteAddr)])
  let t0 := Endpoint.new s.nextStreamId (AgentSession.accepted []) streamWindow s.wire
  let h1 := h0.insert s.nextStreamId t0
  let c : Ctx := ⟨t0, h1.wire, h1.listed h0.objs.length⟩
  have hlen : h0.objs.length = s.objs.length := by
    simp only [h0, Hub.send]
    split <;> simp [Hub.pauseAll]
  have hset : ((AgentSession.setUp senv [] c).wire = c.wire) ∧ (AgentSession.setUp senv [] c).self.core = t0.core := by
    unfold AgentSession.setUp
    dsimp only [List.length_nil]
    rw [if_neg (by omega)]
    split
    · exact ⟨rfl, (Endpoint.core_resume _).trans (Endpoint.core_setGlobalPause true _)⟩
    · exact ⟨rfl, Endpoint.core_resume _⟩
  have hhub : (s.openStream senv streamWindow tunnelId remoteAddr (AgentSession.accepted []) []).toHub =
      h1.put h0.objs.length t0 ((AgentSession.setUp senv [] c).self, (AgentSession.setUp senv [] c).wire) := by
    simp only [AgentSession.openStream, halloc, Hub.call]
    rw [getElem?_insert_self]
    rfl
  have hwire : (s.openStream senv streamWindow tunnelId remoteAddr (AgentSession.accepted []) []).wire =
      s.wire.send senv (.streamJson FrameType.streamOpen s.nextStreamId
        [("tunnelId", .str tunnelId), ("remoteAddr", .str remoteAddr)]) := by
    rw [hhub]
    exact hset.1.trans (wire_send _)
  have hfin : (AgentSession.setUp senv [] c).self.finished = false := congrArg (·.finished) hset.2
  refine ⟨(AgentSession.setUp senv [] c).self, ?_, hset.2, fun id => ?_, ?_, ?_, ?_, ?_⟩
  · rw [hhub, ← hlen]
    exact getElem?_put_self _ (getElem?_insert_self s.nextStreamId t0)
  · rw [hhub]
    simp only [Hub.put, StreamObj.base, id_eq, hfin, Bool.false_and, Bool.false_eq_true, if_false, h1, Hub.insert,
      Dict.lookup_insert_ite, h0, streams_send, hs]
    rw [← hlen]
  · simp [AgentSession.openStream, halloc]
  · rw [hwire, Wire.send_received]
  · rw [hwire, Wire.send_canSend]
  · rw [hwire]
    exact .send senv s.wire _ _

/-- A connection that comes and goes uses up one stream id. -/
theorem pass (senv : WireEnv) (streamWindow : Int) {s : AgentSession} (hs : ∀ id, s.streams.lookup id = none) :
    ∃ s1 s2 : AgentSession,
    AgentSession.step senv streamWindow s (.accept "t" "r" []) = some s1 ∧
      AgentSession.step senv streamWindow s1 (.close s.objs.length) = some s2 ∧ (∀ id, s2.streams.lookup id = none) ∧
      s2.nextStreamId = (if s.nextStreamId ≥ MAX_STREAM_ID then 1 else s.nextStreamId + 1) ∧
      s2.wire.received = s.wire.received ∧ s2.wire.canSend = s.wire.canSend ∧ Opens s.wire s2.wire := by
  obtain ⟨t, hobj, hcore, hst, hnext, hrec, hcan, hopens⟩ := openStream_alone senv streamWindow hs "t" "r"
  let s1 := s.openStream senv streamWindow "t" "r" (AgentSession.accepted []) []
  let t1 : Stream := { t with socket := { t.socket with destroyed := true } }
  let h : Hub Stream := { s1.toHub with objs := s1.objs.set s.objs.length t1 }
  have hsock : AgentSession.onSocket s1.toHub s.objs.length (fun k => some { k with destroyed := true }) = some h := by
    unfold AgentSession.onSocket
    rw [hobj]
    rfl
  have hself : h.objs[s.objs.length]? = some t1 := List.getElem?_set_self (List.getElem?_eq_some_iff.mp hobj).1
  have hid : t.id = s.nextStreamId := congrArg (·.id) hcore
  have hfin : t.finished = false := congrArg (·.finished) hcore
  have hcall : h.call s.objs.length (AgentSession.method Ctx.finish) =
      h.put s.objs.length t1 ({ t1 with finished := true }, s1.wire) := by
    unfold Hub.call
    rw [hself]
    simp [AgentSession.method, Ctx.finish, t1, hfin, h]
  have hsettle : ∀ (u : AgentSession) (k : Hub Stream), (u.settle k).nextStreamId = u.nextStreamId := by
    intro u k
    unfold AgentSession.settle
    generalize List.filter _ _ = l
    show (l.foldl AgentSession.onStreamFinished u).nextStreamId = _
    induction l generalizing u with
    | nil => rfl
    | cons id l ih =>
      rw [List.foldl_cons, ih]
      unfold AgentSession.onStreamFinished
      split <;> rfl
  refine ⟨s1, s1.settle (h.call s.objs.length (AgentSession.method Ctx.finish)), rfl, ?_, fun id => ?_,
    (hsettle _ _).trans hnext, ?_, ?_, ?_⟩
  · show (AgentSession.onSocket s1.toHub s.objs.length fun k => some { k with destroyed := true }).map _ = _
    rw [hsock]
    rfl
  · rw [AgentSession.toHub_settle, hcall]
    simp only [Hub.put, StreamObj.base, id_eq, t1, hfin, Bool.not_false, Bool.and_self, if_true, Dict.lookup_erase_ite,
      hid, h]
    rw [hst]
    split <;> rfl
  · rw [AgentSession.toHub_settle, hcall]
    exact hrec
  · rw [AgentSession.toHub_settle, hcall]
    exact hcan
  · rw [AgentSession.toHub_settle, hcall]
    exact hopens

theorem stepServer_of {env : SysEnv} {sys : Sys} {e : AgentSession.Event} {s : AgentSession}
    (h : AgentSession.step env.server env.streamWindow sys.server e = some s) :
    sys.stepServer env e = some { sys with server := s } :=
  Option.map_eq_some_iff.mpr ⟨s, h, rfl⟩

/-- Connections come and go; the agent sees none of it. -/
structure Passed (sys sys' : Sys) (next : Nat) : Prop where
  reach : Lts.Reachable (Lts.ofFn (step calm)) (· = start calm) sys'
  agent : sys'.agent = sys.agent
  streams : ∀ id, sys'.server.streams.lookup id = none
  next : sys'.server.nextStreamId = next
  received : sys'.server.wire.received = sys.server.wire.received
  canSend : sys'.server.wire.canSend = sys.server.wire.canSend
  opens : Opens sys.server.wire sys'.server.wire

theorem Passed.pass {sys sys' : Sys} {next : Nat} (h : Passed sys sys' next) :
    ∃ sys'', Passed sys sys'' (if next ≥ MAX_STREAM_ID then 1 else next + 1) := by
  obtain ⟨s1, s2, hx1, hx2, h1, h2, h3, h4, h5⟩ := Sys.pass calm.server calm.streamWindow h.streams
  have hr1 : Lts.Reachable (Lts.ofFn (step calm)) (· = start calm) { sys' with server := s1 } :=
    h.reach.next (e := .server (.accept "t" "r" [])) trivial (stepServer_of hx1)
  have hr2 : Lts.Reachable (Lts.ofFn (step calm)) (· = start calm) { sys' with server := s2 } :=
    hr1.next (e := .server (.close sys'.server.objs.length)) trivial (stepServer_of hx2)
  exact ⟨_, hr2, h.agent, h1, h2.trans (by rw [h.next]), h3.trans h.received, h4.trans h.canSend, h.opens.trans h5⟩

theorem Passed.many {sys sys' : Sys} {next : Nat} (h : Passed sys sys' next) :
    ∀ n, next + n ≤ MAX_STREAM_ID → ∃ sys'', Passed sys sys'' (next + n) := by
  intro n
  induction n with
  | zero => exact fun _ => ⟨sys', h⟩
  | succ n ih =>
    intro hn
    obtain ⟨sys1, h1⟩ := ih (by omega)
    obtain ⟨sys2, h2⟩ := h1.pass
    rw [if_neg (by omega)] at h2
    exact ⟨sys2, h2⟩

/-- The stream `t` at `a` has the id 1, which came round after `sys`. -/
structure Round (sys sys' : Sys) (a : Nat) (t : Stream) : Prop where
  reach : Lts.Reachable (Lts.ofFn (step calm)) (· = start calm) sys'
  atServer : sys'.server.objs[a]? = some t
  listed : sys'.server.streams.lookup 1 = some a
  new : ∃ w, t.core = (Endpoint.new 1 (AgentSession.accepted []) 4 w).core ∧
    sys.server.wire.sent.length ≤ w.sent.length
  agent : sys'.agent = sys.agent
  received : sys'.server.wire.received = sys.server.wire.received
  canSend : sys'.server.wire.canSend = sys.server.wire.canSend
  opens : Opens sys.server.wire sys'.server.wire

theorem Round.up {sys sys' : Sys} {a : Nat} {t : Stream} (h : Round sys sys' a t) : sys'.up = sys.up := by
  show sys'.agent.wire.sent.drop _ = sys.agent.wire.sent.drop _
  rw [h.agent]
  exact congrArg (fun l : List Frame => sys.agent.wire.sent.drop l.length) h.received

/-- Once its one stream is gone, a session gives out the id 1 again, 2^32 - 2 connections later. -/
theorem exists_round {sys : Sys} (hr : Lts.Reachable (Lts.ofFn (step calm)) (· = start calm) sys)
    (hstreams : ∀ id, sys.server.streams.lookup id = none) (hnext : sys.server.nextStreamId = 2) :
    ∃ sys' a t, Round sys sys' a t := by
  have h2 : Passed sys sys 2 := ⟨hr, rfl, hstreams, hnext, rfl, rfl, .refl _⟩
  -- the ids from 2 on are used up one by one
  obtain ⟨n, hn⟩ : ∃ n, 2 + n = MAX_STREAM_ID := ⟨4294967292, by norm_num [MAX_STREAM_ID]⟩
  obtain ⟨sys1, h3⟩ := h2.many n hn.le
  obtain ⟨sys2, h4⟩ := h3.pass
  rw [if_pos hn.ge] at h4
  obtain ⟨t, hobj, hcore, hst, -, hrec, hcan, hopens⟩ := openStream_alone calm.server calm.streamWindow
    h4.streams "t" "r"
  refine ⟨_, sys2.server.objs.length, t, h4.reach.next (e := connection) trivial (stepServer_of rfl), hobj, ?_,
    ⟨sys2.server.wire, ?_, h4.opens.length_le⟩, h4.agent, hrec.trans h4.received, hcan.trans h4.canSend,
    h4.opens.trans hopens⟩
  · exact (hst 1).trans (if_pos h4.next.symm)
  · rw [hcore, h4.next]
    rfl

/-- The first connection is over at the server, and all ids but the first have yet to be used. -/
def vacated (sys : Sys) : Bool :=
  decide (sys.server.streams.keys = []) && decide (sys.server.nextStreamId = 2) && sys.server.wire.canSend &&
    sys.agent.wire.canSend

theorem vacated_ends {sys : Sys} (h : vacated sys = true) : (∀ id, sys.server.streams.lookup id = none) ∧
    sys.server.nextStreamId = 2 ∧ sys.server.wire.canSend = true ∧ sys.agent.wire.canSend = true := by
  simp only [vacated, Bool.and_eq_true, decide_eq_true_eq] at h
  obtain ⟨⟨⟨hkeys, hnext⟩, hso⟩, hao⟩ := h
  refine ⟨fun id => ?_, hnext, hso, hao⟩
  rw [AList.lookup_eq_none]
  intro hm
  rw [AList.mem_keys] at hm
  simp [hkeys] at hm

/-- The agent's stream with the id 1 is left over from the first connection; the server's belongs to
one that came 2^32 - 2 connections later. -/
structure Reused (sys : Sys) (a : Nat) (t : Stream) (c : ClientStream) : Prop where
  reach : Lts.Reachable (Lts.ofFn (step calm)) (· = start calm) sys
  atServer : sys.server.objs[a]? = some t
  listed : sys.server.streams.lookup 1 = some a
  new : ∃ w, t.core = (Endpoint.new 1 (AgentSession.accepted []) 4 w).core ∧ 4 ≤ w.sent.length
  atAgent : sys.agent.objs = [c]
  old : c.id = 1 ∧ c.finished = false ∧ c.recvUnacked = 1 ∧ c.receivedBefore = 3
  canSend : sys.server.wire.canSend = true ∧ sys.agent.wire.canSend = true
  up : sys.up = [.data 1 [8]]

/-- What the first connection leaves behind. -/
def leftover (sys : Sys) : Bool :=
  vacated sys && decide (4 ≤ sys.server.wire.sent.length) &&
    (match sys.up with
      | [.stream type id payload] => decide (type = FrameType.streamData ∧ id = 1 ∧ payload = [8])
      | _ => false) &&
    (match sys.agent.objs with
      | [c] => decide (c.id = 1 ∧ c.finished = false ∧ c.recvUnacked = 1 ∧ c.receivedBefore = 3)
      | _ => false)

theorem reach_leftover : ∃ sys, Lts.Reachable (Lts.ofFn (step calm)) (· = start calm) sys ∧ leftover sys = true := by
  have hq : ((Lts.exec (step calm) (start calm) (greeting ++ connection :: exchange ++ [.server (.close 0)])).map
      leftover) = some true := by decide +kernel
  obtain ⟨sys, hx, hleft⟩ := Option.map_eq_some_iff.mp hq
  exact ⟨sys, Lts.Reachable.exec (.start rfl) hx, hleft⟩

theorem reused : ∃ sys a t c, Reused sys a t c := by
  obtain ⟨sys, hr, hleft⟩ := reach_leftover
  simp only [leftover, Bool.and_eq_true, decide_eq_true_eq] at hleft
  obtain ⟨⟨⟨hvac, hsent⟩, hup⟩, hobjs⟩ := hleft
  obtain ⟨hstreams, hnext, hso, hao⟩ := vacated_ends hvac
  obtain ⟨c, hc, hold⟩ : ∃ c, sys.agent.objs = [c] ∧
      c.id = 1 ∧ c.finished = false ∧ c.recvUnacked = 1 ∧ c.receivedBefore = 3 := by
    split at hobjs
    · rename_i c hc
      exact ⟨c, hc, of_decide_eq_true hobjs⟩
    · cases hobjs
  have hup : sys.up = [.data 1 [8]] := by
    split at hup
    · rename_i hu
      obtain ⟨rfl, rfl, rfl⟩ := of_decide_eq_true hup
      exact hu
    · cases hup
  obtain ⟨sys', a, t, hR⟩ := exists_round hr hstreams hnext
  obtain ⟨w, hcore, hw⟩ := hR.new
  refine ⟨sys', a, t, c, hR.reach, hR.atServer, hR.listed, ⟨w, hcore, hsent.trans hw⟩, ?_, hold,
    ⟨hR.canSend.trans hso, ?_⟩, hR.up.trans hup⟩
  · exact (congrArg (·.objs) hR.agent).trans hc
  · exact (congrArg (·.wire.canSend) hR.agent).trans hao

/-- What is left of the first stream is counted, and acknowledged, to the second. -/
theorem not_conserved : ¬ ∀ (env : SysEnv) (sys : Sys), 0 < env.streamWindow →
    Lts.Reachable (Lts.ofFn (step env)) (· = start env) sys → Conserved env sys := by
  intro h
  obtain ⟨sys, a, t, c, hR⟩ := reused
  obtain ⟨w, hcore, -⟩ := hR.new
  obtain ⟨hid, hf, hu, -⟩ := hR.old
  have hc : sys.agent.objs[0]? = some c := by rw [hR.atAgent]; rfl
  have h1 := (h calm sys (by decide) hR.reach a 0 t c hR.atServer hc ((congrArg (·.id) hcore).trans hid.symm)
    (congrArg (·.finished) hcore) hf hR.canSend.1 hR.canSend.2).1.conserved
  have h2 : t.sendCredit = 4 := congrArg (·.sendCredit) hcore
  rw [h2] at h1
  change (4 : Int) + _ + _ + c.recvUnacked + _ = 4 at h1
  omega

/-- A byte that the agent read for the first stream is written to the public socket of the second, for
which the agent has read nothing. -/
theorem not_delivered : ¬ ∀ (env : SysEnv) (sys : Sys),
    Lts.Reachable (Lts.ofFn (step env)) (· = start env) sys → sys.Delivered := by
  intro h
  obtain ⟨sys, a, t, c, hR⟩ := reused
  obtain ⟨w, hcore, hw⟩ := hR.new
  have hf : t.finished = false := congrArg (·.finished) hcore
  have he : t.receivedEof = false := congrArg (·.receivedEof) hcore
  have hwr : t.socket.written = [] := congrArg (·.socket.written) hcore
  have hb : t.sentBefore = w.sent.length := congrArg (·.sentBefore) hcore
  -- the byte arrives
  let t' : Stream := { t with socket := t.socket.write [8] false, recvUnacked := t.recvUnacked + 1 }
  let h0 : Hub Stream := { sys.server.toHub with
    wire := { sys.server.wire with received := sys.server.wire.received ++ [.data 1 [8]] } }
  have hdata : AgentSession.handleStreamFrame calm.server h0 FrameType.streamData 1 [8] false =
      .ok (h0.put a t (t', h0.wire)) := by
    have hrun : h0.run a (AgentSession.methodE fun c => Stream.onData calm.server c [8] false) =
        .ok (h0.put a t (t', h0.wire)) := by
      unfold Hub.run
      rw [show h0.objs[a]? = some t from hR.atServer]
      simp [AgentSession.methodE, Stream.onData, hf, he, Except.map, t']
    unfold AgentSession.handleStreamFrame
    rw [show h0.streams.lookup 1 = some a from hR.listed]
    simpa using hrun
  have hstep : step calm sys (.toServer false) =
      some { sys with server := sys.server.settle (h0.put a t (t', h0.wire)) } := by
    show sys.up.head?.bind _ = _
    rw [hR.up]
    refine stepServer_of (e := .frame (.data 1 [8]) false) ?_
    show (AgentSession.handleStreamFrame calm.server h0 FrameType.streamData 1 [8] false).toOption.map _ = _
    rw [hdata]
    rfl
  have hobj : (h0.put a t (t', h0.wire)).objs[a]? = some t' := getElem?_put_self (t', h0.wire) hR.atServer
  have h1 := ((h calm _ (hR.reach.next trivial hstep)).unmade a t' hobj fun x c' hc' hp => ?_).1
  · simp [t', Socket.bytesWritten, Socket.write, hwr] at h1
  · have hc'' : sys.agent.objs[x]? = some c' := hc'
    rw [hR.atAgent, List.getElem?_singleton] at hc''
    split at hc''
    · cases hc''
      have h2 := hp.2
      have h3 := hR.old.2.2.2
      change c.receivedBefore = t.sentBefore + 1 at h2
      omega
    · cases hc''

/-! ## Runs that meet the condition -/

/-- No stream has been opened, and no frame in flight names one. -/
def unnamed (sys : Sys) : Bool :=
  (sys.down ++ sys.up).all (fun f => f.streamId?.isNone) && decide (sys.agent.streams.keys = [])

theorem opensFresh_of_unnamed (h : unnamed sys = true) (e : Event) : sys.OpensFresh e := by
  simp only [unnamed, Bool.and_eq_true, List.all_append, List.all_eq_true, decide_eq_true_eq,
    Option.isNone_iff_eq_none] at h
  have hfresh : ∀ id, sys.FreshId id := fun id =>
    ⟨fun f hf => by simp [h.1.1 f hf], fun f hf => by simp [h.1.2 f hf], fun hm => by simp [AList.mem_keys, h.2] at hm⟩
  cases e with
  | server e =>
    cases e with
    | accept => exact fun id _ => hfresh id
    | _ => trivial
  | _ => trivial

/-- Both ends of the first connection, when a byte has gone each way. -/
def exchanged (sys : Sys) : Bool :=
  sys.server.wire.canSend && sys.agent.wire.canSend &&
    (match sys.server.objs, sys.agent.objs with
      | [s], [c] => decide (s.finished = false ∧ c.finished = false ∧ s.id = 1 ∧ c.id = 1 ∧
          c.receivedBefore = s.sentBefore + 1 ∧ c.spec.kind = .tcp ∧ c.socket.written = [[7]] ∧ c.chunks = [[8]])
      | _, _ => false)

theorem reach_exchanged :
    ∃ sys, Lts.Reach (Lts.ofFn (step calm)) OpensFresh (· = start calm) sys ∧ exchanged sys = true := by
  have hq : ((Lts.exec (step calm) (start calm) greeting).map unnamed) = some true := by decide +kernel
  have hq' : ((Lts.exec (step calm) (start calm) (greeting ++ connection :: exchange)).map exchanged) = some true := by
    decide +kernel
  obtain ⟨sys1, hx1, hfresh⟩ := Option.map_eq_some_iff.mp hq
  obtain ⟨sys, hx, hex⟩ := Option.map_eq_some_iff.mp hq'
  rw [Lts.exec_append, hx1, Option.bind_some, Lts.exec] at hx
  obtain ⟨sys2, hx2, hx3⟩ := Option.bind_eq_some_iff.mp hx
  have hr1 : Lts.Reach (Lts.ofFn (step calm)) OpensFresh (· = start calm) sys1 :=
    Lts.Reach.exec (.start rfl) (by simp [greeting, OpensFresh]) hx1
  have hr2 := hr1.next (opensFresh_of_unnamed hfresh connection) hx2
  exact ⟨sys, hr2.exec (by simp [exchange, OpensFresh]) hx3, hex⟩

theorem exchanged_ends (h : exchanged sys = true) : sys.server.wire.canSend = true ∧ sys.agent.wire.canSend = true ∧
    ∃ (s : Stream) (c : ClientStream), sys.server.objs[0]? = some s ∧ sys.agent.objs[0]? = some c ∧
      s.finished = false ∧ c.finished = false ∧ s.id = 1 ∧ c.id = 1 ∧
      c.receivedBefore = s.sentBefore + 1 ∧ c.spec.kind = .tcp ∧ c.socket.written = [[7]] ∧ c.chunks = [[8]] := by
  simp only [exchanged, Bool.and_eq_true] at h
  obtain ⟨⟨h1, h2⟩, h3⟩ := h
  split at h3
  · rename_i s c hs hc
    exact ⟨h1, h2, s, c, by rw [hs]; rfl, by rw [hc]; rfl, of_decide_eq_true h3⟩
  · cases h3

theorem delivered_exchanged : ∃ (sys : Sys) (s : Stream) (c : ClientStream),
    Lts.Reach (Lts.ofFn (step calm)) OpensFresh (· = start calm) sys ∧ sys.server.objs[0]? = some s ∧
      sys.agent.objs[0]? = some c ∧ c.socket.written = [[7]] ∧ Delivers s c.toEndpoint ∧ Delivers c.toEndpoint s := by
  obtain ⟨sys, hr, hex⟩ := reach_exchanged
  obtain ⟨-, -, s, c, hs, hc, -, -, h1, h2, h3, h4, h5, -⟩ := exchanged_ends hex
  have hd := reach_delivered hr
  have hp : Paired s c := ⟨h2.trans h1.symm, h3⟩
  exact ⟨sys, s, c, hr, hs, hc, h5, hd.toLocal 0 0 s c hs hc hp (by simp [ClientStream.Plain, h4]),
    hd.toPublic 0 0 s c hs hc hp⟩

theorem conserved_exchanged : ∃ (sys : Sys) (s : Stream) (c : ClientStream),
    Lts.Reach (Lts.ofFn (step calm)) OpensFresh (· = start calm) sys ∧ sys.server.objs[0]? = some s ∧
      sys.agent.objs[0]? = some c ∧ c.chunks = [[8]] ∧
      Credited 4 s c.toEndpoint c.queued.flatten.length sys.down sys.up ∧
      Credited 4 c.toEndpoint s 0 sys.up sys.down := by
  obtain ⟨sys, hr, hex⟩ := reach_exchanged
  obtain ⟨hso, hao, s, c, hs, hc, hsf, hcf, h1, h2, -, -, -, h3⟩ := exchanged_ends hex
  obtain ⟨hdown, hup, -⟩ := reach_conserved (by decide) hr 0 0 s c hs hc (h1.trans h2.symm) hsf hcf hso hao
  exact ⟨sys, s, c, hr, hs, hc, h3, hdown, hup⟩

end Sys

end UpTunnel
