import UpTunnel.Link.Turn
import UpTunnel.Lib.Reach

/-!
# UpTunnel.Link.System

A server session and the agent at the other end of its WebSocket. Each direction is a FIFO of the
frames handed to it: what has arrived is a prefix of what was sent, and what is sent once the
WebSocket is not open is lost.

* `Sys.step`: one event at either end, or the arrival of one frame.
* `Sys.Inv`: every stream of the server is linked to its end at the agent by `Duplex.Inv`; kept by
  every step, as long as a stream is opened under an id that nothing names any more.
-/

namespace UpTunnel

open Js Hub StreamObj EndView

structure Sys where
  server : AgentSession
  agent : Agent

/-- What both sides are configured with, and what their WebSockets report. -/
structure SysEnv where
  server : WireEnv
  agentBuffered : Nat → Nat
  streamWindow : Int
  specs : List TunnelSpec
  agentId : String
  heartbeatMs : Int
  httpDomain : String

namespace SysEnv

def agent (env : SysEnv) : WireEnv := Agent.wireEnv env.agentBuffered

def helloOk (env : SysEnv) : Frame :=
  AgentSession.helloOk env.agentId env.heartbeatMs env.streamWindow env.httpDomain

/-- The window the agent goes by once it has seen HELLO_OK. -/
def agentWindow (env : SysEnv) : Int := if 0 < env.streamWindow then env.streamWindow else Agent.new.window

end SysEnv

namespace Sys

inductive Event where
  | server (e : AgentSession.Event)
  | agent (e : Agent.Event)
  | toServer (flushed : Bool)
  | toAgent (flushed : Bool)

/-- The frames in flight to the agent. -/
def down (sys : Sys) : List Frame := sys.server.wire.sent.drop sys.agent.wire.received.length

/-- The frames in flight to the server. -/
def up (sys : Sys) : List Frame := sys.agent.wire.sent.drop sys.server.wire.received.length

variable (env : SysEnv)

/-- The session has just sent HELLO_OK. -/
def start : Sys where
  server := { AgentSession.new with toHub := AgentSession.new.toHub.send env.server env.helloOk }
  agent := Agent.new

def stepServer (sys : Sys) (e : AgentSession.Event) : Option Sys :=
  (AgentSession.step env.server env.streamWindow sys.server e).map fun s => { sys with server := s }

def stepAgent (sys : Sys) (e : Agent.Event) : Option Sys :=
  (Agent.step env.agent env.specs sys.agent e).map fun a => { sys with agent := a }

def step (sys : Sys) : Event → Option Sys
  | .server (.frame ..) => none
  | .server e => sys.stepServer env e
  | .agent (.frame ..) => none
  | .agent e => sys.stepAgent env e
  | .toServer flushed => sys.up.head?.bind fun f => sys.stepServer env (.frame f flushed)
  | .toAgent flushed => sys.down.head?.bind fun f => sys.stepAgent env (.frame f flushed)

/-- Nothing names the stream `id` any more: no frame in flight and no stream of the agent. -/
structure FreshId (sys : Sys) (id : Nat) : Prop where
  down : ∀ f ∈ sys.down, f.streamId? ≠ some id
  up : ∀ f ∈ sys.up, f.streamId? ≠ some id
  agent : id ∉ sys.agent.streams

/-- A stream is opened under an id that nothing names any more. -/
def OpensFresh (sys : Sys) : Event → Prop
  | .server (.accept ..) => ∀ id, sys.server.allocStreamId.1 = some id → sys.FreshId id
  | _ => True

/-- `c` was made on the arrival of the STREAM_OPEN that announced `s`. -/
def Paired (s : Stream) (c : ClientStream) : Prop := c.id = s.id ∧ c.receivedBefore = s.sentBefore + 1

/-- The STREAM_OPEN of `s` is in flight. -/
def Waiting (sys : Sys) (s : Stream) : Prop :=
  sys.agent.wire.received.length ≤ s.sentBefore ∧ s.sentBefore < sys.server.wire.sent.length

/-! ## The invariant -/

/-- The server's `s` and its end `e` at the agent: the stream that its STREAM_OPEN made, or one
that is to be made, or one that is dead because it will never be. -/
structure Linked (sys : Sys) (s : Stream) (e : End UInt8) : Prop where
  view : ∀ (x : Nat) (c : ClientStream), sys.agent.objs[x]? = some c → Paired s c → ClientStream.View c e
  live : e.finished = false →
    (∃ (x : Nat) (c : ClientStream), sys.agent.objs[x]? = some c ∧ Paired s c) ∨ sys.Waiting s
  waiting : sys.Waiting s → e = .fresh env.agentWindow
  absent : (∀ (x : Nat) (c : ClientStream), sys.agent.objs[x]? = some c → ¬ Paired s c) →
    e.pushed = [] ∧ e.pushedEof = false
  inv : (⟨Stream.asEnd s, e, msgs s.id sys.down, msgs s.id sys.up, sys.server.wire.canSend,
    sys.agent.wire.canSend⟩ : Duplex UInt8).Inv env.streamWindow env.agentWindow

/-- `ends a` is the end at the agent of the server's stream at `a`. -/
structure Inv (sys : Sys) (ends : Nat → End UInt8) : Prop where
  downFifo : sys.agent.wire.received <+: sys.server.wire.sent
  upFifo : sys.server.wire.received <+: sys.agent.wire.sent
  serverTable : sys.server.toHub.TableOk
  agentTable : sys.agent.toHub.TableOk
  hello : sys.server.wire.sent[0]? = some env.helloOk
  handshook : sys.agent.handshook = true → sys.agent.window = env.agentWindow
  notHandshook : sys.agent.handshook = false → sys.agent.wire.received = [] ∧ sys.agent.window = Agent.new.window
  reads : ∀ (a : Nat) (s : Stream), sys.server.objs[a]? = some s → s.Reads
  opens : ∀ (i k : Nat) (payload : Bytes), sys.server.wire.sent[i]? = some (.stream FrameType.streamOpen k payload) →
    ∃ (a : Nat) (s : Stream), sys.server.objs[a]? = some s ∧ s.id = k ∧ s.sentBefore = i
  opened : ∀ (a : Nat) (s : Stream), sys.server.objs[a]? = some s → s.sentBefore < sys.server.wire.sent.length →
    ∃ payload, sys.server.wire.sent[s.sentBefore]? = some (.stream FrameType.streamOpen s.id payload)
  late : ∀ (a : Nat) (s : Stream), sys.server.objs[a]? = some s → sys.server.wire.sent.length ≤ s.sentBefore →
    sys.server.wire.canSend = false
  born : ∀ (x : Nat) (c : ClientStream), sys.agent.objs[x]? = some c →
    c.receivedBefore ≤ sys.agent.wire.received.length ∧
      ∃ (a : Nat) (s : Stream), sys.server.objs[a]? = some s ∧ Paired s c
  /-- No frame in flight ahead of a STREAM_OPEN names its stream. -/
  quiet : ∀ (a : Nat) (s : Stream), sys.server.objs[a]? = some s → sys.Waiting s → ∀ (i : Nat) (f : Frame),
    sys.agent.wire.received.length ≤ i → i < s.sentBefore → sys.server.wire.sent[i]? = some f →
      f.streamId? ≠ some s.id
  linked : ∀ (a : Nat) (s : Stream), sys.server.objs[a]? = some s → Linked env sys s (ends a)
  /-- A STREAM_OPEN was sent for one stream, and made one. -/
  sentOnce : ∀ (a a' : Nat) (s s' : Stream), sys.server.objs[a]? = some s → sys.server.objs[a']? = some s' →
    s.sentBefore = s'.sentBefore → s.sentBefore < sys.server.wire.sent.length → a = a'
  madeOnce : ∀ (x x' : Nat) (c c' : ClientStream), sys.agent.objs[x]? = some c → sys.agent.objs[x']? = some c' →
    c.receivedBefore = c'.receivedBefore → x = x'
  /-- Of two streams with one id, one is over at both ends. -/
  alone : ∀ (a a' : Nat) (s s' : Stream), sys.server.objs[a]? = some s → sys.server.objs[a']? = some s' → a ≠ a' →
    s.id = s'.id → (s.finished = true ∧ (ends a).finished = true) ∨ (s'.finished = true ∧ (ends a').finished = true)

variable {env} {sys : Sys} {ends : Nat → End UInt8}

theorem eq_append_drop {α : Type} {p l : List α} (h : p <+: l) : l = p ++ l.drop p.length := by
  obtain ⟨t, rfl⟩ := h
  simp

theorem Inv.sent_eq (hI : Inv env sys ends) : sys.server.wire.sent = sys.agent.wire.received ++ sys.down :=
  eq_append_drop hI.downFifo

theorem Inv.agentSent_eq (hI : Inv env sys ends) : sys.agent.wire.sent = sys.server.wire.received ++ sys.up :=
  eq_append_drop hI.upFifo

theorem Inv.received_le (hI : Inv env sys ends) : sys.agent.wire.received.length ≤ sys.server.wire.sent.length :=
  hI.downFifo.length_le

/-- A stream whose end at the agent is not finished is the only one that is not over. -/
theorem Inv.over (hI : Inv env sys ends) {a a' : Nat} {s s' : Stream} (hs : sys.server.objs[a]? = some s)
    (hs' : sys.server.objs[a']? = some s') (hne : a ≠ a') (hid : s.id = s'.id)
    (hlive : (ends a').finished = false) : s.finished = true ∧ (ends a).finished = true := by
  rcases hI.alone a a' s s' hs hs' hne hid with h | h
  · exact h
  · simp [hlive] at h

/-! ## The server acts -/

theorem Inv.server (hI : Inv env sys ends) {server' : AgentSession} {f : Nat → Stream → Stream} {ins fs rest : List Frame}
    (hT : Turn sys.server.toHub server'.toHub f ins fs) (hins : sys.up = ins ++ rest) :
    Inv env { sys with server := server' } ends := by
  have hobj : ∀ {a : Nat} {t : Stream}, server'.objs[a]? = some t →
      ∃ s, sys.server.objs[a]? = some s ∧ t = f a s ∧ s.Kept t := by
    intro a t ht
    rw [hT.objs] at ht
    obtain ⟨s, hs, rfl⟩ := Option.map_eq_some_iff.mp ht
    exact ⟨s, hs, rfl, hT.kept a s hs⟩
  have hsent := hT.sent
  have hrec := hT.received
  have hlen : sys.server.wire.sent.length ≤ server'.wire.sent.length := by simp [hsent]
  have hget : ∀ {i : Nat}, i < sys.server.wire.sent.length → server'.wire.sent[i]? = sys.server.wire.sent[i]? :=
    fun hi => by rw [hsent, List.getElem?_append_left hi]
  -- a stream whose STREAM_OPEN was lost stays so
  have hlate : ∀ {a : Nat} {s : Stream}, sys.server.objs[a]? = some s → s.sentBefore < server'.wire.sent.length →
      s.sentBefore < sys.server.wire.sent.length := by
    intro a s hs hlt
    by_contra h
    have hc := hI.late a s hs (by omega)
    rw [hsent] at hlt
    simp only [Wire.passed, hc, Bool.false_eq_true, if_false, List.append_nil] at hlt
    omega
  have hdown : ({ sys with server := server' } : Sys).down = sys.down ++ sys.server.wire.passed fs := by
    unfold down
    rw [hsent, List.drop_append_of_le_length hI.received_le]
  have hup : ({ sys with server := server' } : Sys).up = rest := by
    have h1 := hI.agentSent_eq
    rw [hins] at h1
    unfold up
    rw [hrec, h1, List.length_append, ← List.append_assoc, ← List.length_append, List.drop_left]
  refine ⟨?_, ?_, hT.table, hI.agentTable, ?_, hI.handshook, hI.notHandshook, ?_, ?_, ?_, ?_, ?_, ?_, ?_, ?_,
    hI.madeOnce, ?_⟩
  · rw [hsent]
    exact hI.downFifo.trans (List.prefix_append _ _)
  · have h1 := hI.agentSent_eq
    rw [hins, ← List.append_assoc] at h1
    rw [hrec, h1]
    exact List.prefix_append _ _
  · rw [hget (List.getElem?_eq_some_iff.mp hI.hello).1]
    exact hI.hello
  · intro a t ht
    obtain ⟨s, hs, rfl, -⟩ := hobj ht
    obtain ⟨e', he', -⟩ := hT.view a s hs _ ⟨rfl, hI.reads a s hs⟩
    exact he'.2
  · intro i k payload hi
    rw [hsent, List.getElem?_append] at hi
    split at hi
    · obtain ⟨a, s, hs, h1, h2⟩ := hI.opens i k payload hi
      have hk := hT.kept a s hs
      exact ⟨a, f a s, by rw [hT.objs, hs]; rfl, hk.id.trans h1, hk.sentBefore.trans h2⟩
    · have hmem := List.mem_of_getElem? hi
      unfold Wire.passed at hmem
      split at hmem
      · exact absurd rfl (hT.noOpen _ hmem k payload)
      · simp at hmem
  · intro a t ht hlt
    obtain ⟨s, hs, -, hk⟩ := hobj ht
    rw [hk.sentBefore] at hlt
    have hlt := hlate hs hlt
    rw [hk.id, hk.sentBefore, hget hlt]
    exact hI.opened a s hs hlt
  · intro a t ht hle
    obtain ⟨s, hs, -, hk⟩ := hobj ht
    rw [hk.sentBefore] at hle
    have hle : server'.wire.sent.length ≤ s.sentBefore := hle
    have hc := hI.late a s hs (by omega)
    by_contra h
    have := hT.canSend ((Bool.not_eq_false _).mp h)
    simp [hc] at this
  · intro x c hc
    obtain ⟨h1, a, s, hs, h2, h3⟩ := hI.born x c hc
    have hk := hT.kept a s hs
    exact ⟨h1, a, f a s, by rw [hT.objs, hs]; rfl, h2.trans hk.id.symm, h3.trans (congrArg (· + 1) hk.sentBefore.symm)⟩
  · rintro a t ht ⟨h1, h2⟩ i g hi hlt hg
    obtain ⟨s, hs, -, hk⟩ := hobj ht
    rw [hk.sentBefore] at h1 h2 hlt
    have h2 := hlate hs h2
    rw [hget (by omega)] at hg
    rw [hk.id]
    exact hI.quiet a s hs ⟨h1, h2⟩ i g hi hlt hg
  · intro a t ht
    obtain ⟨s, hs, rfl, hk⟩ := hobj ht
    have hL := hI.linked a s hs
    have hpair : ∀ c, Paired (f a s) c ↔ Paired s c := fun c => by simp [Paired, hk.id, hk.sentBefore]
    have hwait : Waiting { sys with server := server' } (f a s) ↔ sys.Waiting s := by
      simp only [Waiting, hk.sentBefore]
      exact ⟨fun h => ⟨h.1, hlate hs h.2⟩, fun h => ⟨h.1, by omega⟩⟩
    refine ⟨fun x c hc hp => hL.view x c hc ((hpair c).mp hp), fun hf => ?_, fun hw => hL.waiting (hwait.mp hw),
      fun hn => hL.absent fun x c hc hp => hn x c hc ((hpair c).mpr hp), ?_⟩
    · rcases hL.live hf with ⟨x, c, hc, hp⟩ | hw
      · exact .inl ⟨x, c, hc, (hpair c).mpr hp⟩
      · exact .inr (hwait.mpr hw)
    · rw [hdown, hup, hk.id]
      obtain ⟨e', ⟨rfl, -⟩, hrun⟩ := hT.view a s hs _ ⟨rfl, hI.reads a s hs⟩
      rcases hrun with hrun | ⟨he, hf, a', t, ht', hid, hfin⟩
      · have hba : msgs s.id sys.up = msgs s.id ins ++ msgs s.id rest := by rw [hins, msgs_append]
        have h1 := (hL.inv.run hrun rfl hba).close hT.canSend
        simp only [msgs_append]
        have h2 : msgs s.id (sys.server.wire.passed fs) = if sys.server.wire.canSend then msgs s.id fs else [] := by
          unfold Wire.passed
          split <;> rfl
        rw [h2]
        exact h1
      · have hne : a ≠ a' := by
          rintro rfl
          rw [hs] at ht'
          cases ht'
          simp [StreamObj.base] at hf hfin
          simp [hf] at hfin
        rcases hI.alone a a' s t hs ht' hne hid.symm with ⟨h1, h2⟩ | ⟨h1, h2⟩
        · have h3 := hL.inv.finished h1 h2
          rw [he]
          exact h3 _ _ _ _
        · have hfin : t.finished = false := hfin
          simp [h1] at hfin
  · intro a a' t t' ht ht' he hlt
    obtain ⟨s, hs, -, hk⟩ := hobj ht
    obtain ⟨s', hs', -, hk'⟩ := hobj ht'
    rw [hk.sentBefore, hk'.sentBefore] at he
    rw [hk.sentBefore] at hlt
    exact hI.sentOnce a a' s s' hs hs' he (hlate hs hlt)
  · intro a a' t t' ht ht' hne hid
    obtain ⟨s, hs, -, hk⟩ := hobj ht
    obtain ⟨s', hs', -, hk'⟩ := hobj ht'
    rw [hk.id, hk'.id] at hid
    rcases hI.alone a a' s s' hs hs' hne hid with h | h
    · exact .inl ⟨hk.finished h.1, h.2⟩
    · exact .inr ⟨hk'.finished h.1, h.2⟩

/-! ## The agent acts -/

/-- Another stream that is not finished, under the same id, leaves this one over. -/
theorem Inv.over_of_agent (hI : Inv env sys ends) {a x : Nat} {s : Stream} {c : ClientStream}
    (hs : sys.server.objs[a]? = some s) (hc : sys.agent.objs[x]? = some c) (hf : c.finished = false)
    (hid : c.id = s.id) (hp : ¬ Paired s c) : s.finished = true ∧ (ends a).finished = true := by
  obtain ⟨-, a', s', hs', hp'⟩ := hI.born x c hc
  have hne : a ≠ a' := by
    rintro rfl
    rw [hs] at hs'
    cases hs'
    exact hp hp'
  have hv := ClientStream.View.finished ((hI.linked a' s' hs').view x c hc hp')
  exact hI.over hs hs' hne (hid.symm.trans hp'.1) (hv.trans hf)

/-- What arrives ahead of a STREAM_OPEN. -/
theorem Inv.quiet_ins (hI : Inv env sys ends) {a : Nat} {s : Stream} (hs : sys.server.objs[a]? = some s)
    (hw : sys.Waiting s) {ins rest : List Frame} (hins : sys.down = ins ++ rest)
    (hopen : ∀ g ∈ ins, ∀ k payload, g ≠ .stream FrameType.streamOpen k payload) :
    sys.agent.wire.received.length + ins.length ≤ s.sentBefore ∧ ∀ g ∈ ins, g.streamId? ≠ some s.id := by
  have hsent := hI.sent_eq
  rw [hins] at hsent
  have hle : sys.agent.wire.received.length + ins.length ≤ s.sentBefore := by
    by_contra h
    obtain ⟨payload, hp⟩ := hI.opened a s hs hw.2
    have hw1 := hw.1
    rw [hsent, List.getElem?_append_right hw1, List.getElem?_append_left (by omega)] at hp
    exact hopen _ (List.mem_of_getElem? hp) _ _ rfl
  refine ⟨hle, fun g hg => ?_⟩
  obtain ⟨j, hj⟩ := List.mem_iff_getElem?.mp hg
  have hlt := (List.getElem?_eq_some_iff.mp hj).1
  refine hI.quiet a s hs hw (sys.agent.wire.received.length + j) g (by omega) (by omega) ?_
  rw [hsent, List.getElem?_append_right (by omega), List.getElem?_append_left (by omega)]
  simpa using hj

theorem Inv.agent_linked (hI : Inv env sys ends) {agent' : Agent} {f : Nat → ClientStream → ClientStream}
    {ins fs rest : List Frame} (hT : Turn sys.agent.toHub agent'.toHub f ins fs) (hins : sys.down = ins ++ rest)
    (hopen : ∀ g ∈ ins, ∀ k payload, g ≠ .stream FrameType.streamOpen k payload) {a : Nat} {s : Stream}
    (hs : sys.server.objs[a]? = some s) :
    ∃ e', ((ends a).finished = true → e'.finished = true) ∧ Linked env { sys with agent := agent' } s e' := by
  have hL := hI.linked a s hs
  have hrec := hT.received
  have hdown : ({ sys with agent := agent' } : Sys).down = rest := by
    have h1 := hI.sent_eq
    rw [hins] at h1
    unfold down
    rw [hrec, h1, List.length_append, ← List.append_assoc, ← List.length_append, List.drop_left]
  have hup : ({ sys with agent := agent' } : Sys).up = sys.up ++ sys.agent.wire.passed fs := by
    unfold up
    rw [hT.sent, List.drop_append_of_le_length hI.upFifo.length_le]
  have hpassed : msgs s.id (sys.agent.wire.passed fs) = if sys.agent.wire.canSend then msgs s.id fs else [] := by
    unfold Wire.passed
    split <;> rfl
  have hchan : msgs s.id sys.down = msgs s.id ins ++ msgs s.id rest := by rw [hins, msgs_append]
  have hobj : ∀ {x : Nat} {c' : ClientStream}, agent'.objs[x]? = some c' → Paired s c' →
      ∃ c, sys.agent.objs[x]? = some c ∧ c' = f x c ∧ Paired s c := by
    intro x c' hc' hp
    rw [hT.objs] at hc'
    obtain ⟨c, hc, rfl⟩ := Option.map_eq_some_iff.mp hc'
    have hk := hT.kept x c hc
    exact ⟨c, hc, rfl, hk.id.symm.trans hp.1, hk.receivedBefore.symm.trans hp.2⟩
  -- a run of the end is a run of the link, seen from the agent
  have hrun : ∀ {e' : End UInt8}, (ends a).Run (msgs s.id ins) e' (msgs s.id fs) →
      (⟨Stream.asEnd s, e', msgs s.id rest, msgs s.id (sys.up ++ sys.agent.wire.passed fs),
        sys.server.wire.canSend, agent'.wire.canSend⟩ : Duplex UInt8).Inv env.streamWindow env.agentWindow := by
    intro e' hr
    have h1 := (hL.inv.swap.run hr rfl hchan).close hT.canSend
    rw [msgs_append, hpassed]
    exact h1.swap
  have hover : s.finished = true → (ends a).finished = true → ∀ ab ba aOpen bOpen,
      (⟨Stream.asEnd s, ends a, ab, ba, aOpen, bOpen⟩ : Duplex UInt8).Inv env.streamWindow env.agentWindow :=
    fun h1 h2 => hL.inv.finished h1 h2
  by_cases hpair : ∃ (x : Nat) (c : ClientStream), sys.agent.objs[x]? = some c ∧ Paired s c
  · obtain ⟨x, c, hc, hp⟩ := hpair
    have hv := hL.view x c hc hp
    have hef : (ends a).finished = c.finished := ClientStream.View.finished hv
    -- what becomes of a stream that is paired with `s`
    have hview : ∀ (x' : Nat) (c' : ClientStream), sys.agent.objs[x']? = some c' → Paired s c' →
        ∃ e', ClientStream.View (f x' c') e' ∧ ((ends a).Run (msgs s.id ins) e' (msgs s.id fs) ∨
          e' = ends a ∧ s.finished = true ∧ (ends a).finished = true) := by
      intro x' c' hc' hp'
      obtain ⟨e', he', h⟩ := hT.view x' c' hc' (ends a) (hL.view x' c' hc' hp')
      have hid : (base c').id = s.id := hp'.1
      rw [hid] at h
      refine ⟨e', he', h.imp id ?_⟩
      rintro ⟨h1, h4, y, t, ht, hid, hfin⟩
      refine ⟨h1, hI.over_of_agent hs ht hfin hid fun hpt => ?_⟩
      have h2 := ClientStream.View.finished (hL.view y t ht hpt)
      have h3 := ClientStream.View.finished (hL.view x' c' hc' hp')
      have h4 : c'.finished = true := h4
      have hfin : t.finished = false := hfin
      rw [h2, hfin] at h3
      simp [h4] at h3
    obtain ⟨e', he', hstep⟩ := hview x c hc hp
    refine ⟨e', fun hf => ?_, fun x' c'' hc'' hp'' => ?_, fun hf => ?_, fun hw => ?_, fun hn => ?_, ?_⟩
    · rcases hstep with h | h
      · rw [h.eq_of_finished hf]
        exact hf
      · rw [h.1]
        exact hf
    · obtain ⟨c', hc', rfl, hp'⟩ := hobj hc'' hp''
      obtain ⟨e1, he1, hstep1⟩ := hview x' c' hc' hp'
      cases hf : (ends a).finished with
      | true =>
        have heq : ∀ e2, ((ends a).Run (msgs s.id ins) e2 (msgs s.id fs) ∨
            e2 = ends a ∧ s.finished = true ∧ (ends a).finished = true) → e2 = ends a :=
          fun e2 h => h.elim (fun h => h.eq_of_finished hf) fun h => h.1
        rw [heq e' hstep, ← heq e1 hstep1]
        exact he1
      | false =>
        have h1 : c'.finished = false := (ClientStream.View.finished (hL.view x' c' hc' hp')).symm.trans hf
        have h2 := (hI.agentTable s.id x').mpr ⟨c', hc', hp'.1, h1⟩
        have h3 := (hI.agentTable s.id x).mpr ⟨c, hc, hp.1, hef.symm.trans hf⟩
        have hxx : x' = x := Option.some.inj (h2.symm.trans h3)
        subst hxx
        rw [hc] at hc'
        cases hc'
        exact he'
    · have hk := hT.kept x c hc
      exact .inl ⟨x, f x c, by rw [show agent'.objs[x]? = _ from hT.objs x, hc]; rfl, hk.id.trans hp.1,
        hk.receivedBefore.trans hp.2⟩
    · have h1 := (hI.born x c hc).1
      have h2 : agent'.wire.received.length ≤ s.sentBefore := hw.1
      rw [hp.2] at h1
      rw [hrec, List.length_append] at h2
      omega
    · have hk := hT.kept x c hc
      exact absurd ⟨hk.id.trans hp.1, hk.receivedBefore.trans hp.2⟩
        (hn x (f x c) (by rw [show agent'.objs[x]? = _ from hT.objs x, hc]; rfl))
    · rw [hdown, hup]
      rcases hstep with h | ⟨h1, h2, h3⟩
      · exact hrun h
      · rw [h1]
        exact hover h2 h3 _ _ _ _
  · have hnone : ∀ (x : Nat) (c : ClientStream), sys.agent.objs[x]? = some c → ¬ Paired s c :=
      fun x c hc hp => hpair ⟨x, c, hc, hp⟩
    have hnone' : ∀ (x : Nat) (c : ClientStream), agent'.objs[x]? = some c → ¬ Paired s c := by
      intro x c' hc' hp
      obtain ⟨c, hc, -, hp⟩ := hobj hc' hp
      exact hnone x c hc hp
    have hwait : Waiting { sys with agent := agent' } s → sys.Waiting s := by
      rintro ⟨h1, h2⟩
      refine ⟨?_, h2⟩
      have h1 : agent'.wire.received.length ≤ s.sentBefore := h1
      rw [hrec, List.length_append] at h1
      omega
    refine ⟨ends a, id, fun x c hc hp => absurd hp (hnone' x c hc), fun hf => ?_, fun hw => hL.waiting (hwait hw),
      fun _ => hL.absent hnone, ?_⟩
    · rcases hL.live hf with h | hw
      · exact absurd h hpair
      · refine .inr ⟨?_, hw.2⟩
        have h1 := (hI.quiet_ins hs hw hins hopen).1
        show agent'.wire.received.length ≤ s.sentBefore
        rw [hrec, List.length_append]
        exact h1
    · rw [hdown, hup]
      -- a frame that is sent about the id is a reset, or comes from another stream that is not finished
      have hnames : ∀ g ∈ fs, g.streamId? = some s.id → (s.finished = true ∧ (ends a).finished = true) ∨
          (msg? s.id g = some .reset ∧ ∃ i ∈ ins, i.streamId? = some s.id) := by
        intro g hg hk
        rcases hT.names g hg s.id hk with ⟨y, t, ht, hid, hfin⟩ | h
        · exact .inl (hI.over_of_agent hs ht hfin hid (hnone y t ht))
        · exact .inr h
      cases hf : (ends a).finished with
      | true =>
        by_cases hall : ∀ m ∈ msgs s.id fs, m = .reset
        · exact hrun (.discard hf hall _)
        · simp only [msgs, List.mem_filterMap, not_forall] at hall
          obtain ⟨m, ⟨g, hg, hm⟩, hne⟩ := hall
          have hk : g.streamId? = some s.id := by
            by_contra h
            simp [msg?_of_ne h] at hm
          rcases hnames g hg hk with h | h
          · exact hover h.1 h.2 _ _ _ _
          · rw [hm] at h
            exact absurd (Option.some.inj h.1) hne
      | false =>
        rcases hL.live hf with h | hw
        · exact absurd h hpair
        · have hq := (hI.quiet_ins hs hw hins hopen).2
          have h1 : msgs s.id ins = [] := msgs_of_ne hq
          have h2 : msgs s.id fs = [] := by
            refine msgs_of_ne fun g hg hk => ?_
            rcases hnames g hg hk with h | ⟨-, i, hi, hk⟩
            · simp [hf] at h
            · exact hq i hi hk
          refine hrun ?_
          rw [h1, h2]
          exact .refl

theorem Inv.agent (hI : Inv env sys ends) {agent' : Agent} {f : Nat → ClientStream → ClientStream}
    {ins fs rest : List Frame} (hT : Turn sys.agent.toHub agent'.toHub f ins fs) (hins : sys.down = ins ++ rest)
    (hopen : ∀ g ∈ ins, ∀ k payload, g ≠ .stream FrameType.streamOpen k payload)
    (hw : agent'.handshook = true → agent'.window = env.agentWindow)
    (hn : agent'.handshook = false → agent'.wire.received = [] ∧ agent'.window = Agent.new.window) :
    ∃ ends', Inv env { sys with agent := agent' } ends' := by
  have hobj : ∀ {x : Nat} {c' : ClientStream}, agent'.objs[x]? = some c' →
      ∃ c, sys.agent.objs[x]? = some c ∧ c' = f x c ∧ c.toEndpoint.Kept c'.toEndpoint := by
    intro x c' hc'
    rw [hT.objs] at hc'
    obtain ⟨c, hc, rfl⟩ := Option.map_eq_some_iff.mp hc'
    exact ⟨c, hc, rfl, hT.kept x c hc⟩
  have hex : ∀ a, ∃ e', ∀ s, sys.server.objs[a]? = some s →
      ((ends a).finished = true → e'.finished = true) ∧ Linked env { sys with agent := agent' } s e' := by
    intro a
    cases hs : sys.server.objs[a]? with
    | none => exact ⟨ends a, fun s h => by simp at h⟩
    | some s =>
      obtain ⟨e', h⟩ := hI.agent_linked hT hins hopen hs
      refine ⟨e', fun t ht => ?_⟩
      cases ht
      exact h
  choose ends' hends using hex
  have hsent := hT.sent
  have hrec := hT.received
  have hle : sys.agent.wire.received.length ≤ agent'.wire.received.length := by simp [hrec]
  refine ⟨ends', ?_, ?_, hI.serverTable, hT.table, hI.hello, hw, hn, hI.reads, hI.opens, hI.opened, hI.late, ?_, ?_,
    fun a s hs => (hends a s hs).2, hI.sentOnce, ?_, ?_⟩
  · have h1 := hI.sent_eq
    rw [hins, ← List.append_assoc] at h1
    rw [hrec, h1]
    exact List.prefix_append _ _
  · rw [hsent]
    exact hI.upFifo.trans (List.prefix_append _ _)
  · intro x c' hc'
    obtain ⟨c, hc, -, hk⟩ := hobj hc'
    obtain ⟨h1, a, s, hs, h2, h3⟩ := hI.born x c hc
    refine ⟨?_, a, s, hs, hk.id.trans h2, hk.receivedBefore.trans h3⟩
    rw [hk.receivedBefore]
    exact h1.trans hle
  · rintro a s hs ⟨h1, h2⟩ i g hi hlt hg
    exact hI.quiet a s hs ⟨hle.trans h1, h2⟩ i g (hle.trans hi) hlt hg
  · intro x x' c c' hc hc' he
    obtain ⟨d, hd, -, hk⟩ := hobj hc
    obtain ⟨d', hd', -, hk'⟩ := hobj hc'
    exact hI.madeOnce x x' d d' hd hd' (hk.receivedBefore.symm.trans (he.trans hk'.receivedBefore))
  · intro a a' s s' hs hs' hne hid
    rcases hI.alone a a' s s' hs hs' hne hid with h | h
    · exact .inl ⟨h.1, (hends a s hs).1 h.2⟩
    · exact .inr ⟨h.1, (hends a' s' hs').1 h.2⟩

/-! ## A stream is opened -/

/-- Nothing is left of the streams that had the id before. -/
theorem Inv.over_of_fresh (hI : Inv env sys ends) {id : Nat} (hid : sys.server.streams.lookup id = none)
    (hfresh : sys.FreshId id) {a : Nat} {s : Stream} (hs : sys.server.objs[a]? = some s) (hk : s.id = id) :
    s.finished = true ∧ (ends a).finished = true := by
  refine ⟨?_, ?_⟩
  · by_contra h
    rw [(hI.serverTable id a).mpr ⟨s, hs, hk, (Bool.not_eq_true _).mp h⟩] at hid
    cases hid
  · by_contra h
    have hf : (ends a).finished = false := (Bool.not_eq_true _).mp h
    rcases (hI.linked a s hs).live hf with ⟨x, c, hc, hp⟩ | hw
    · have hv := ClientStream.View.finished ((hI.linked a s hs).view x c hc hp)
      have hl := (hI.agentTable id x).mpr ⟨c, hc, hp.1.trans hk, hv.symm.trans hf⟩
      exact hfresh.agent (AList.lookup_isSome.mp (by rw [hl]; rfl))
    · obtain ⟨payload, hp⟩ := hI.opened a s hs hw.2
      rw [hI.sent_eq, List.getElem?_append_right hw.1] at hp
      exact hfresh.down _ (List.mem_of_getElem? hp) (congrArg some hk)

/-- The end of a stream whose STREAM_OPEN has just been sent, or was lost. -/
def newEnd (env : SysEnv) (sent : Bool) : End UInt8 := { End.fresh env.agentWindow with finished := !sent }

theorem newEnd_inv (env : SysEnv) (aOpen bOpen : Bool) :
    (⟨.fresh env.streamWindow, newEnd env aOpen, [], [], aOpen, bOpen⟩ : Duplex UInt8).Inv env.streamWindow
      env.agentWindow := by
  have h := Duplex.inv_fresh (α := UInt8) env.streamWindow env.agentWindow aOpen bOpen
  cases aOpen with
  | true => exact h
  | false =>
    have h1 := (h.swap.act rfl (show [] = Option.toList none ++ [] from rfl) (.die none [] (by simp))).swap
    cases bOpen <;> exact h1

theorem Inv.accept (hI : Inv env sys ends) {id : Nat} (hid : sys.server.streams.lookup id = none)
    (hfresh : sys.FreshId id) {server' : AgentSession} {f : Nat → Stream → Stream} {t : Stream} {payload : Bytes}
    {fs : List Frame} (hobjs : ∀ b, server'.objs[b]? = if b = sys.server.objs.length then some t
      else sys.server.objs[b]?.map (f b)) (hsame : ∀ b s, Same s (f b s)) (htable : server'.toHub.TableOk)
    (hwire : sys.server.wire.Does server'.wire (.stream FrameType.streamOpen id payload :: fs)) (hn : Names id fs)
    (htid : t.id = id) (hbefore : t.sentBefore = sys.server.wire.sent.length) (hreads : t.Reads)
    (hrun : (End.fresh env.streamWindow).Run [] (Stream.asEnd t) (msgs id fs)) :
    ∃ ends', Inv env { sys with server := server' } ends' := by
  have hpassed : sys.server.wire.passed (.stream FrameType.streamOpen id payload :: fs) =
      if sys.server.wire.canSend then .stream FrameType.streamOpen id payload :: fs else [] := rfl
  have hsent := hwire.sent
  have hlen : sys.server.wire.sent.length ≤ server'.wire.sent.length := by simp [hsent]
  have hget : ∀ {i : Nat}, i < sys.server.wire.sent.length → server'.wire.sent[i]? = sys.server.wire.sent[i]? :=
    fun hi => by rw [hsent, List.getElem?_append_left hi]
  have hself : server'.objs[sys.server.objs.length]? = some t := by rw [hobjs, if_pos rfl]
  have hold : ∀ {a : Nat} {s : Stream}, sys.server.objs[a]? = some s → server'.objs[a]? = some (f a s) := by
    intro a s hs
    have ha : a < sys.server.objs.length := (List.getElem?_eq_some_iff.mp hs).1
    rw [hobjs, if_neg (by omega), hs]
    rfl
  have hcases : ∀ {a : Nat} {s' : Stream}, server'.objs[a]? = some s' → (a = sys.server.objs.length ∧ s' = t) ∨
      ∃ s, sys.server.objs[a]? = some s ∧ s' = f a s ∧ a ≠ sys.server.objs.length ∧ s.Kept s' := by
    intro a s' hs'
    rw [hobjs] at hs'
    split at hs'
    · exact .inl ⟨‹_›, (Option.some.inj hs').symm⟩
    · obtain ⟨s, hs, rfl⟩ := Option.map_eq_some_iff.mp hs'
      exact .inr ⟨s, hs, rfl, ‹_›, (hsame a s).kept⟩
  have hlate : ∀ {a : Nat} {s : Stream}, sys.server.objs[a]? = some s → s.sentBefore < server'.wire.sent.length →
      s.sentBefore < sys.server.wire.sent.length := by
    intro a s hs hlt
    by_contra h
    have hc := hI.late a s hs (by omega)
    rw [hsent] at hlt
    simp only [Wire.passed, hc, Bool.false_eq_true, if_false, List.append_nil] at hlt
    omega
  have hdown : ({ sys with server := server' } : Sys).down =
      sys.down ++ sys.server.wire.passed (.stream FrameType.streamOpen id payload :: fs) := by
    unfold down
    rw [hsent, List.drop_append_of_le_length hI.received_le]
  have hup : ({ sys with server := server' } : Sys).up = sys.up := by
    unfold up
    rw [hwire.received]
  have hopened : sys.server.wire.canSend = true →
      server'.wire.sent[sys.server.wire.sent.length]? = some (.stream FrameType.streamOpen id payload) := by
    intro hc
    rw [hsent, List.getElem?_append_right (le_refl _), hpassed, if_pos hc]
    simp
  have hopen : sys.server.wire.sent.length < server'.wire.sent.length → sys.server.wire.canSend = true := by
    intro hlt
    by_contra hc
    rw [hsent, hpassed, if_neg hc, List.append_nil] at hlt
    omega
  have hrec : sys.agent.wire.received.length ≤ sys.server.wire.sent.length := hI.received_le
  refine ⟨Function.update ends sys.server.objs.length (newEnd env sys.server.wire.canSend), ?_⟩
  have hends : ∀ {a : Nat}, a ≠ sys.server.objs.length →
      Function.update ends sys.server.objs.length (newEnd env sys.server.wire.canSend) a = ends a :=
    fun h => Function.update_of_ne h _ _
  have hover : ∀ {a : Nat} {s : Stream}, sys.server.objs[a]? = some s → s.id = id →
      s.finished = true ∧ (ends a).finished = true := fun hs hk => hI.over_of_fresh hid hfresh hs hk
  refine ⟨?_, ?_, htable, hI.agentTable, ?_, hI.handshook, hI.notHandshook, ?_, ?_, ?_, ?_, ?_, ?_, ?_, ?_,
    hI.madeOnce, ?_⟩
  · rw [hsent]
    exact hI.downFifo.trans (List.prefix_append _ _)
  · rw [hwire.received]
    exact hI.upFifo
  · rw [hget (List.getElem?_eq_some_iff.mp hI.hello).1]
    exact hI.hello
  · intro a s' hs'
    rcases hcases hs' with ⟨rfl, rfl⟩ | ⟨s, hs, rfl, -⟩
    · exact hreads
    · exact ((hsame a s).view _ ⟨rfl, hI.reads a s hs⟩).2
  · intro i k p hi
    rw [hsent, List.getElem?_append] at hi
    split at hi
    · obtain ⟨a, s, hs, h1, h2⟩ := hI.opens i k p hi
      have hk := (hsame a s).kept
      exact ⟨a, f a s, hold hs, hk.id.trans h1, hk.sentBefore.trans h2⟩
    · rename_i hle
      rw [hpassed] at hi
      split at hi
      · cases hj : i - sys.server.wire.sent.length with
        | zero =>
          rw [hj] at hi
          cases hi
          exact ⟨_, t, hself, htid, hbefore.trans (by omega)⟩
        | succ j =>
          rw [hj, List.getElem?_cons_succ] at hi
          obtain ⟨type, p', he, hne⟩ := hn _ (List.mem_of_getElem? hi)
          cases he
          exact absurd rfl hne
      · simp at hi
  · intro a s' hs' hlt
    rcases hcases hs' with ⟨rfl, rfl⟩ | ⟨s, hs, rfl, -, hk⟩
    · rw [hbefore] at hlt ⊢
      rw [htid]
      exact ⟨payload, hopened (hopen hlt)⟩
    · rw [hk.sentBefore] at hlt
      have hlt := hlate hs hlt
      rw [hk.id, hk.sentBefore, hget hlt]
      exact hI.opened a s hs hlt
  · intro a s' hs' hle
    show server'.wire.canSend = false
    rw [hwire.canSend]
    rcases hcases hs' with ⟨rfl, rfl⟩ | ⟨s, hs, rfl, -, hk⟩
    · by_contra hc
      have h1 := (List.getElem?_eq_some_iff.mp (hopened ((Bool.not_eq_false _).mp hc))).1
      have hle : server'.wire.sent.length ≤ s'.sentBefore := hle
      omega
    · rw [hk.sentBefore] at hle
      have hle : server'.wire.sent.length ≤ s.sentBefore := hle
      exact hI.late a s hs (by omega)
  · intro x c hc
    obtain ⟨h1, a, s, hs, h2, h3⟩ := hI.born x c hc
    have hk := (hsame a s).kept
    exact ⟨h1, a, f a s, hold hs, h2.trans hk.id.symm, h3.trans (congrArg (· + 1) hk.sentBefore.symm)⟩
  · rintro a s' hs' ⟨h1, h2⟩ i g hi hlt hg
    rcases hcases hs' with ⟨rfl, rfl⟩ | ⟨s, hs, rfl, -, hk⟩
    · rw [hbefore] at hlt
      rw [hget hlt, hI.sent_eq, List.getElem?_append_right hi] at hg
      rw [htid]
      exact hfresh.down g (List.mem_of_getElem? hg)
    · rw [hk.sentBefore] at h1 h2 hlt
      have h2 := hlate hs h2
      rw [hget (by omega)] at hg
      rw [hk.id]
      exact hI.quiet a s hs ⟨h1, h2⟩ i g hi hlt hg
  · intro a s' hs'
    rcases hcases hs' with ⟨rfl, rfl⟩ | ⟨s, hs, rfl, hne, hk⟩
    · rw [Function.update_self]
      have hunpaired : ∀ (x : Nat) (c : ClientStream), sys.agent.objs[x]? = some c → ¬ Paired s' c := by
        intro x c hc hp
        have h1 := (hI.born x c hc).1
        rw [hp.2, hbefore] at h1
        omega
      refine ⟨fun x c hc hp => absurd hp (hunpaired x c hc), fun hf => .inr ?_, fun hw => ?_, fun _ => ⟨rfl, rfl⟩, ?_⟩
      · have hc : sys.server.wire.canSend = true := by simpa [newEnd] using hf
        have h1 := (List.getElem?_eq_some_iff.mp (hopened hc)).1
        exact ⟨hbefore ▸ hrec, hbefore ▸ h1⟩
      · have h1 : s'.sentBefore < server'.wire.sent.length := hw.2
        rw [hbefore] at h1
        simp [newEnd, hopen h1, End.fresh]
      · rw [hdown, hup, htid, msgs_append, msgs_of_ne hfresh.down, msgs_of_ne hfresh.up]
        have h1 := (newEnd_inv env sys.server.wire.canSend sys.agent.wire.canSend).run hrun rfl
          (show ([] : List (Msg UInt8)) = [] ++ [] from rfl)
        have h2 : msgs id (sys.server.wire.passed (.stream FrameType.streamOpen id payload :: fs)) =
            if sys.server.wire.canSend then msgs id fs else [] := by
          rw [hpassed]
          split
          · simp [msgs]
          · rfl
        rw [h2]
        exact (h1.close (o := server'.wire.canSend) fun h => by rw [← hwire.canSend]; exact h)
    · rw [hends hne]
      have hL := hI.linked a s hs
      have hpair : ∀ c, Paired (f a s) c ↔ Paired s c := fun c => by simp only [Paired, hk.id, hk.sentBefore]
      have hwait : Waiting { sys with server := server' } (f a s) ↔ sys.Waiting s := by
        simp only [Waiting, hk.sentBefore]
        exact ⟨fun h => ⟨h.1, hlate hs h.2⟩, fun h => ⟨h.1, by omega⟩⟩
      have hend : Stream.asEnd (f a s) = Stream.asEnd s := ((hsame a s).view _ ⟨rfl, hI.reads a s hs⟩).1.symm
      refine ⟨fun x c hc hp => hL.view x c hc ((hpair c).mp hp), fun hf => ?_, fun hw => hL.waiting (hwait.mp hw),
        fun hn => hL.absent fun x c hc hp => hn x c hc ((hpair c).mpr hp), ?_⟩
      · rcases hL.live hf with ⟨x, c, hc, hp⟩ | hw
        · exact .inl ⟨x, c, hc, (hpair c).mpr hp⟩
        · exact .inr (hwait.mpr hw)
      · rw [hdown, hup, hk.id, hend, show ({ sys with server := server' } : Sys).server.wire.canSend =
          sys.server.wire.canSend from hwire.canSend]
        by_cases hsid : s.id = id
        · obtain ⟨h1, h2⟩ := hover hs hsid
          exact hL.inv.finished h1 h2 _ _ _ _
        · have h1 : msgs s.id (sys.server.wire.passed (.stream FrameType.streamOpen id payload :: fs)) = [] := by
            rw [hpassed]
            split
            · have h2 := msgs_names hn hsid
              simp only [msgs, List.filterMap_cons, msg?_streamOpen] at h2 ⊢
              exact h2
            · rfl
          rw [msgs_append, h1, List.append_nil]
          exact hL.inv
  · -- an earlier stream that was to be announced where `t` is has been lost, and so is `t`
    have hnew : ∀ {a : Nat} {s : Stream}, sys.server.objs[a]? = some s → s.sentBefore = t.sentBefore →
        ¬ t.sentBefore < server'.wire.sent.length := by
      intro a s hs he hlt
      rw [hbefore] at he hlt
      have h1 := hI.late a s hs (by omega)
      simp [hopen hlt] at h1
    intro a a' s1 s2 hs1 hs2 he hlt
    have hlt : s1.sentBefore < server'.wire.sent.length := hlt
    rcases hcases hs1 with ⟨rfl, rfl⟩ | ⟨u1, hu1, rfl, -, hk1⟩ <;>
      rcases hcases hs2 with ⟨rfl, rfl⟩ | ⟨u2, hu2, rfl, -, hk2⟩
    · rfl
    · exact absurd hlt (hnew hu2 (hk2.sentBefore.symm.trans he.symm))
    · exact absurd (he ▸ hlt) (hnew hu1 (hk1.sentBefore.symm.trans he))
    · rw [hk1.sentBefore, hk2.sentBefore] at he
      rw [hk1.sentBefore] at hlt
      exact hI.sentOnce a a' u1 u2 hu1 hu2 he (hlate hu1 hlt)
  · intro a a' s1 s2 hs1 hs2 hne hid12
    rcases hcases hs1 with ⟨rfl, rfl⟩ | ⟨u1, hu1, rfl, hn1, hk1⟩ <;>
      rcases hcases hs2 with ⟨rfl, rfl⟩ | ⟨u2, hu2, rfl, hn2, hk2⟩
    · exact absurd rfl hne
    · have h := hover hu2 (hk2.id.symm.trans (hid12.symm.trans htid))
      rw [hends hn2]
      exact .inr ⟨hk2.finished h.1, h.2⟩
    · have h := hover hu1 (hk1.id.symm.trans (hid12.trans htid))
      rw [hends hn1]
      exact .inl ⟨hk1.finished h.1, h.2⟩
    · rw [hends hn1, hends hn2]
      rw [hk1.id, hk2.id] at hid12
      rcases hI.alone a a' u1 u2 hu1 hu2 hne hid12 with h | h
      · exact .inl ⟨hk1.finished h.1, h.2⟩
      · exact .inr ⟨hk2.finished h.1, h.2⟩

/-! ## A STREAM_OPEN arrives -/

/-- The agent has made the stream, or refused it with the frames `fs`. The one that waits for it
is `s0`; nothing changes for the others. -/
theorem Inv.receive (hI : Inv env sys ends) {id : Nat} {payload : Bytes} {rest fs : List Frame}
    (hdown : sys.down = .stream FrameType.streamOpen id payload :: rest) {agent' : Agent}
    (hreceived : agent'.wire.received = sys.agent.wire.received ++ [.stream FrameType.streamOpen id payload])
    (hsent : agent'.wire.sent = sys.agent.wire.sent ++ sys.agent.wire.passed fs)
    (hcan : agent'.wire.canSend = sys.agent.wire.canSend) (hn : Names id fs) (htable : agent'.toHub.TableOk)
    (hwindow : agent'.window = sys.agent.window ∧ agent'.handshook = sys.agent.handshook)
    (hobjs : ∀ (x : Nat) (c' : ClientStream), agent'.objs[x]? = some c' →
      (∃ c, sys.agent.objs[x]? = some c ∧ Same c c') ∨
        (x = sys.agent.objs.length ∧ c'.id = id ∧ c'.receivedBefore = sys.agent.wire.received.length + 1))
    (hkeep : ∀ (x : Nat) (c : ClientStream), sys.agent.objs[x]? = some c → ∃ c', agent'.objs[x]? = some c' ∧ Same c c')
    (hlink : ∀ s0 : Stream, s0.id = id → s0.sentBefore = sys.agent.wire.received.length →
      Linked env sys s0 (.fresh env.agentWindow) →
      (∀ (x : Nat) (c : ClientStream), sys.agent.objs[x]? = some c → ¬ Paired s0 c) →
      ({ sys with agent := agent' } : Sys).down = rest →
      ({ sys with agent := agent' } : Sys).up = sys.up ++ sys.agent.wire.passed fs →
      ∃ e', Linked env { sys with agent := agent' } s0 e') :
    ∃ ends', Inv env { sys with agent := agent' } ends' := by
  have hsentS := hI.sent_eq
  rw [hdown] at hsentS
  have hget : sys.server.wire.sent[sys.agent.wire.received.length]? = some (.stream FrameType.streamOpen id payload) := by
    rw [hsentS, List.getElem?_append_right (le_refl _)]
    simp
  have hlt := (List.getElem?_eq_some_iff.mp hget).1
  obtain ⟨a0, s0, hs0, hid0, hb0⟩ := hI.opens _ _ _ hget
  have hw0 : sys.Waiting s0 := ⟨hb0.ge, hb0 ▸ hlt⟩
  have he0 := (hI.linked a0 s0 hs0).waiting hw0
  have hover : ∀ {a : Nat} {s : Stream}, sys.server.objs[a]? = some s → a ≠ a0 → s.id = id →
      s.finished = true ∧ (ends a).finished = true :=
    fun hs hne hk => hI.over hs hs0 hne (hk.trans hid0.symm) (by rw [he0]; rfl)
  -- no other stream waits for this frame
  have hahead : ∀ {a : Nat} {s : Stream}, sys.server.objs[a]? = some s → a ≠ a0 → sys.Waiting s →
      s.sentBefore ≠ sys.agent.wire.received.length := by
    intro a s hs hne hw heq
    obtain ⟨p, hp⟩ := hI.opened a s hs hw.2
    rw [heq, hget] at hp
    cases hp
    have h1 := (hover hs hne rfl).2
    rw [(hI.linked a s hs).waiting hw] at h1
    simp [End.fresh] at h1
  have hdown' : ({ sys with agent := agent' } : Sys).down = rest := by
    unfold down
    rw [hreceived, hsentS, List.length_append, List.length_singleton, List.drop_append]
    simp
  have hup' : ({ sys with agent := agent' } : Sys).up = sys.up ++ sys.agent.wire.passed fs := by
    unfold up
    rw [hsent, List.drop_append_of_le_length hI.upFifo.length_le]
  have hlen' : agent'.wire.received.length = sys.agent.wire.received.length + 1 := by simp [hreceived]
  obtain ⟨e0', hL0⟩ := hlink s0 hid0 hb0 (he0 ▸ hI.linked a0 s0 hs0)
    (fun x c hc hp => by have := (hI.born x c hc).1; have := hp.2; omega) hdown' hup'
  have hwait : ∀ {s : Stream}, Waiting { sys with agent := agent' } s → sys.Waiting s := by
    rintro s ⟨h1, h2⟩
    have h1 : agent'.wire.received.length ≤ s.sentBefore := h1
    exact ⟨by omega, h2⟩
  have hother : ∀ (a : Nat) (s : Stream), sys.server.objs[a]? = some s → a ≠ a0 →
      Linked env { sys with agent := agent' } s (ends a) := by
    intro a s hs hne
    have hL := hI.linked a s hs
    -- the new stream is not this one's
    have hold : ∀ (x : Nat) (c' : ClientStream), agent'.objs[x]? = some c' → Paired s c' →
        ∃ c, sys.agent.objs[x]? = some c ∧ Same c c' ∧ Paired s c := by
      intro x c' hc' hp
      rcases hobjs x c' hc' with ⟨c, hc, hsame⟩ | ⟨-, h1, h2⟩
      · exact ⟨c, hc, hsame, hsame.kept.id.symm.trans hp.1, hsame.kept.receivedBefore.symm.trans hp.2⟩
      · have h3 : s.sentBefore = sys.agent.wire.received.length := by
          have := hp.2
          omega
        exact absurd h3 (hahead hs hne ⟨h3.ge, h3 ▸ hlt⟩)
    refine ⟨fun x c' hc' hp => ?_, fun hf => ?_, fun hw => hL.waiting (hwait hw), fun hnone => hL.absent ?_, ?_⟩
    · obtain ⟨c, hc, hsame, hp'⟩ := hold x c' hc' hp
      exact hsame.view _ (hL.view x c hc hp')
    · rcases hL.live hf with ⟨x, c, hc, hp⟩ | hw
      · obtain ⟨c', hc', hsame⟩ := hkeep x c hc
        exact .inl ⟨x, c', hc', hsame.kept.id.trans hp.1, hsame.kept.receivedBefore.trans hp.2⟩
      · refine .inr ⟨?_, hw.2⟩
        show agent'.wire.received.length ≤ s.sentBefore
        have h1 := hahead hs hne hw
        have h2 := hw.1
        omega
    · intro x c hc hp
      obtain ⟨c', hc', hsame⟩ := hkeep x c hc
      exact hnone x c' hc' ⟨hsame.kept.id.trans hp.1, hsame.kept.receivedBefore.trans hp.2⟩
    · rw [hdown', hup', show ({ sys with agent := agent' } : Sys).agent.wire.canSend = sys.agent.wire.canSend from hcan]
      by_cases hk : s.id = id
      · obtain ⟨h1, h2⟩ := hover hs hne hk
        exact hL.inv.finished h1 h2 _ _ _ _
      · have h1 : msgs s.id (sys.agent.wire.passed fs) = [] := by
          unfold Wire.passed
          split
          · exact msgs_names hn hk
          · rfl
        have h2 : msgs s.id rest = msgs s.id sys.down := by
          rw [hdown]
          simp [msgs]
        rw [msgs_append, h1, List.append_nil, h2]
        exact hL.inv
  refine ⟨Function.update ends a0 e0', ?_, ?_, hI.serverTable, htable, hI.hello, ?_, ?_, hI.reads, hI.opens, hI.opened,
    hI.late, ?_, ?_, ?_, hI.sentOnce, ?_, ?_⟩
  · show agent'.wire.received <+: sys.server.wire.sent
    rw [hreceived, hsentS]
    exact ⟨rest, by simp⟩
  · show sys.server.wire.received <+: agent'.wire.sent
    rw [hsent]
    exact hI.upFifo.trans (List.prefix_append _ _)
  · intro hh
    exact hwindow.1.trans (hI.handshook (hwindow.2.symm.trans hh))
  · intro hh
    -- the first frame to arrive is HELLO_OK
    have h1 := (hI.notHandshook (hwindow.2.symm.trans hh)).1
    have h2 := hI.hello
    rw [h1] at hget
    rw [List.length_nil, h2] at hget
    cases hget
  · intro x c' hc'
    show c'.receivedBefore ≤ agent'.wire.received.length ∧ _
    rcases hobjs x c' hc' with ⟨c, hc, hsame⟩ | ⟨-, h1, h2⟩
    · obtain ⟨h1, a, s, hs, hp⟩ := hI.born x c hc
      have hk := hsame.kept
      refine ⟨?_, a, s, hs, hk.id.trans hp.1, hk.receivedBefore.trans hp.2⟩
      have h2 : c'.receivedBefore = c.receivedBefore := hk.receivedBefore
      omega
    · exact ⟨by omega, a0, s0, hs0, h1.trans hid0.symm, by omega⟩
  · intro a s hs hw i g hi hlt' hg
    have hi : agent'.wire.received.length ≤ i := hi
    exact hI.quiet a s hs (hwait hw) i g (by omega) hlt' hg
  · intro a s hs
    by_cases hne : a = a0
    · subst hne
      rw [hs0] at hs
      cases hs
      rw [Function.update_self]
      exact hL0
    · rw [Function.update_of_ne hne]
      exact hother a s hs hne
  · intro x x' c c' hc hc' he
    have hle : ∀ {y : Nat} {d d' : ClientStream}, sys.agent.objs[y]? = some d → Same d d' →
        d'.receivedBefore ≠ sys.agent.wire.received.length + 1 := by
      intro y d d' hd hsame h
      have h1 := (hI.born y d hd).1
      have h2 : d'.receivedBefore = d.receivedBefore := hsame.kept.receivedBefore
      omega
    rcases hobjs x c hc with ⟨d, hd, hs⟩ | ⟨h1, -, h2⟩ <;> rcases hobjs x' c' hc' with ⟨d', hd', hs'⟩ | ⟨h1', -, h2'⟩
    · exact hI.madeOnce x x' d d' hd hd' (hs.kept.receivedBefore.symm.trans (he.trans hs'.kept.receivedBefore))
    · exact absurd (he.trans h2') (hle hd hs)
    · exact absurd (he.symm.trans h2) (hle hd' hs')
    · exact h1.trans h1'.symm
  · intro a a' s s' hs hs' hne hid
    by_cases ha : a = a0
    · subst ha
      rw [hs0] at hs
      cases hs
      have h := hover hs' (Ne.symm hne) (hid.symm.trans hid0)
      rw [Function.update_of_ne (Ne.symm hne)]
      exact .inr h
    · by_cases ha' : a' = a0
      · subst ha'
        rw [hs0] at hs'
        cases hs'
        have h := hover hs hne (hid.trans hid0)
        rw [Function.update_of_ne hne]
        exact .inl h
      · rw [Function.update_of_ne ha, Function.update_of_ne ha']
        exact hI.alone a a' s s' hs hs' hne hid

/-! ## Steps -/

theorem allocFrom_lookup {streams : Dict Nat Nat} {id : Nat} :
    ∀ {n next : Nat}, (AgentSession.allocFrom streams n next).1 = some id → streams.lookup id = none := by
  intro n
  induction n with
  | zero => intro next h; cases h
  | succ n ih =>
    intro next h
    unfold AgentSession.allocFrom at h
    dsimp only at h
    split at h
    · exact ih h
    · rename_i hn
      cases h
      exact AList.lookup_eq_none.mpr hn

/-- A new stream has read the pre-read head, and sent it. -/
theorem setUp_acts (env : WireEnv) {c : Ctx} {id : Nat} {window : Int} {chunks : List Bytes} {w : Wire}
    (hc : c.self = Endpoint.new id (AgentSession.accepted chunks) window w) :
    ∃ fs, Names id fs ∧ c.wire.Does (AgentSession.setUp env chunks.flatten c).wire fs ∧
      (AgentSession.setUp env chunks.flatten c).self.id = id ∧
      (AgentSession.setUp env chunks.flatten c).self.sentBefore = w.sent.length ∧
      (AgentSession.setUp env chunks.flatten c).self.finished = false ∧
      (AgentSession.setUp env chunks.flatten c).self.Reads ∧
      (End.fresh window).Run [] (Stream.asEnd (AgentSession.setUp env chunks.flatten c).self) (msgs id fs) := by
  let c1 : Ctx := if c.wire.congested then { c with self := c.self.setGlobalPause true } else c
  have h1 : c1.self.core = c.self.core ∧ c1.wire = c.wire := by
    simp only [c1]
    split
    · exact ⟨Endpoint.core_setGlobalPause true _, rfl⟩
    · exact ⟨rfl, rfl⟩
  have hf1 : c1.self.finished = false := (congrArg (·.finished) h1.1).trans (by rw [hc]; rfl)
  have he1 : c1.self.sentEof = false := (congrArg (·.sentEof) h1.1).trans (by rw [hc]; rfl)
  have hstep : AgentSession.setUp env chunks.flatten c =
      let c2 := if chunks.flatten.length > 0 then Stream.writePreread env c1 chunks.flatten else c1
      { c2 with self := c2.self.resume } := rfl
  rw [hstep]
  dsimp only
  split
  · rename_i hlen
    have hw : Stream.writePreread env c1 chunks.flatten = c1.onSourceData env chunks.flatten := by
      unfold Stream.writePreread
      rw [if_neg (by omega)]
      rfl
    rw [hw]
    have hd : c1.Does (c1.onSourceData env chunks.flatten) _ _ := Ctx.onSourceData_does env hf1 he1
    have hid1 : c1.self.id = id := (congrArg (·.id) h1.1).trans (by rw [hc]; rfl)
    have hcore : (c1.onSourceData env chunks.flatten).self.resume.core =
        ({ Endpoint.new id (AgentSession.accepted chunks) window w with
          sendCredit := window - chunks.flatten.length, chunks := [chunks.flatten] } : Endpoint).core := by
      rw [Endpoint.core_resume, hd.core]
      have h2 := h1.1
      rw [hc, Endpoint.ext_iff] at h2
      rw [Endpoint.ext_iff]
      simp_all [Endpoint.core, Endpoint.new]
    refine ⟨[.data id chunks.flatten], .single _ (by decide), ?_, congrArg (·.id) hcore, congrArg (·.sentBefore) hcore,
      congrArg (·.finished) hcore, .of_core hcore ⟨?_, ?_, ?_, ?_⟩, ?_⟩
    · rw [← h1.2, ← hid1]
      exact hd.wire
    · simp [Endpoint.new, AgentSession.accepted, Socket.bytesRead]
    · simp [Endpoint.new, AgentSession.accepted, Socket.bytesRead]
    · simp [Endpoint.new]
    · simp [Endpoint.new, AgentSession.accepted, Socket.fresh]
    · have hwr : (c1.onSourceData env chunks.flatten).self.resume.socket.bytesWritten = [] :=
        congrArg (·.socket.written.flatten) hcore
      rw [Stream.asEnd, Endpoint.toEnd_of_core hcore, hwr, msgs_singleton, msg?_data]
      have h2 := (End.Step.push (e := End.fresh window) chunks.flatten rfl).run rfl
      simpa [Endpoint.toEnd, Endpoint.new, End.fresh] using h2
  · rename_i hlen
    have hnil : chunks.flatten = [] := List.length_eq_zero_iff.mp (by omega)
    have hcore : c1.self.resume.core = (Endpoint.new id (AgentSession.accepted chunks) window w).core := by
      rw [Endpoint.core_resume, h1.1, hc]
    refine ⟨[], .nil _, by rw [← h1.2]; exact .refl _, congrArg (·.id) hcore, congrArg (·.sentBefore) hcore,
      congrArg (·.finished) hcore, .of_core hcore ⟨?_, ?_, ?_, ?_⟩, ?_⟩
    · simp [Endpoint.new]
    · simp [Endpoint.new, AgentSession.accepted, Socket.bytesRead, hnil]
    · simp [Endpoint.new]
    · simp [Endpoint.new, AgentSession.accepted, Socket.fresh]
    · have hwr : c1.self.resume.socket.bytesWritten = [] := congrArg (·.socket.written.flatten) hcore
      rw [Stream.asEnd, Endpoint.toEnd_of_core hcore, hwr, msgs_nil]
      exact .refl

/-- What `openStream` does where an id is free: one new object, in the table under that id. -/
theorem openStream_opens (env : WireEnv) (streamWindow : Int) {s : AgentSession} (tunnelId remoteAddr : String)
    (chunks : List Bytes) {id : Nat} (hid : s.allocStreamId.1 = some id) :
    ∃ (f : Nat → Stream → Stream) (r : Stream) (fs : List Frame),
      let s' := s.openStream env streamWindow tunnelId remoteAddr (AgentSession.accepted chunks) chunks.flatten
      (∀ b, s'.objs[b]? = if b = s.objs.length then some r else s.objs[b]?.map (f b)) ∧
      (∀ b t, Same t (f b t)) ∧ s'.streams = s.streams.insert id s.objs.length ∧
      s.wire.Does s'.wire (.streamJson FrameType.streamOpen id
        [("tunnelId", .str tunnelId), ("remoteAddr", .str remoteAddr)] :: fs) ∧
      Names id fs ∧ r.id = id ∧ r.sentBefore = s.wire.sent.length ∧ r.finished = false ∧ r.Reads ∧
      (End.fresh streamWindow).Run [] (Stream.asEnd r) (msgs id fs) := by
  let op : Frame := .streamJson FrameType.streamOpen id [("tunnelId", .str tunnelId), ("remoteAddr", .str remoteAddr)]
  let h0 := s.toHub.send env op
  let s0 := Endpoint.new id (AgentSession.accepted chunks) streamWindow s.wire
  let h1 := h0.insert id s0
  have hlen : h0.objs.length = s.objs.length := by
    simp only [h0, Hub.send]
    split <;> simp [Hub.pauseAll]
  have hhub : (s.openStream env streamWindow tunnelId remoteAddr (AgentSession.accepted chunks)
      chunks.flatten).toHub = h1.call h0.objs.length (AgentSession.method
        (AgentSession.setUp env chunks.flatten)) := by
    simp [AgentSession.openStream, hid, h0, h1, s0, op]
  let c : Ctx := ⟨s0, h1.wire, h1.listed h0.objs.length⟩
  let r := AgentSession.setUp env chunks.flatten c
  have hcall : h1.call h0.objs.length (AgentSession.method (AgentSession.setUp env chunks.flatten)) =
      h1.put h0.objs.length s0 (r.self, r.wire) := by
    unfold Hub.call
    rw [getElem?_insert_self]
    rfl
  obtain ⟨fs, hn, hwire, hrid, hrb, hrf, hreads, hrun⟩ := setUp_acts env
    (show c.self = Endpoint.new id (AgentSession.accepted chunks) streamWindow s.wire from rfl)
  have hst := Still.send env s.toHub op
  obtain ⟨g, hg1, hg2⟩ := hst.objs
  let f : Nat → Stream → Stream := fun b t =>
    if r.wire.congested && !h1.wire.congested && h1.listed b then setGlobalPause true (g b t) else g b t
  have hobjs : ∀ b, (h1.put h0.objs.length s0 (r.self, r.wire)).objs[b]? =
      if b = s.objs.length then some r.self else s.objs[b]?.map (f b) := by
    intro b
    split
    · rename_i hb
      rw [hb, ← hlen]
      exact getElem?_put_self (r.self, r.wire) (getElem?_insert_self id s0)
    · rename_i hb
      rw [getElem?_put_ne _ (by rw [hlen]; exact hb)]
      have hins : h1.objs[b]? = h0.objs[b]? := by
        by_cases hlt : b < h0.objs.length
        · exact getElem?_insert_of_lt s0 hlt
        · have h1len : h1.objs.length = h0.objs.length + 1 := by simp [h1, Hub.insert]
          rw [List.getElem?_eq_none (by omega), List.getElem?_eq_none (by omega)]
      rw [hins, hg1, Option.map_map]
      rfl
  have hsame : ∀ b t, Same t (f b t) := by
    intro b t
    simp only [f]
    split
    · exact (hg2 b t).trans (.pause true _)
    · exact hg2 b t
  have hstreams : (h1.put h0.objs.length s0 (r.self, r.wire)).streams = s.streams.insert id s.objs.length := by
    have hrf' : (base r.self).finished = false := hrf
    simp only [Hub.put, hrf', Bool.false_and, Bool.false_eq_true, if_false, h1, Hub.insert, h0, streams_send]
    rw [← hlen]
  have hput := hhub.trans hcall
  rw [← hput] at hobjs hstreams
  exact ⟨f, r.self, fs, hobjs, hsame, hstreams, by rw [hput]; exact hst.wire.trans hwire, hn, hrid, hrb, hrf,
    hreads, hrun⟩

theorem step_accept (hI : Inv env sys ends) {tunnelId remoteAddr : String} {chunks : List Bytes} {sys' : Sys}
    (hfresh : ∀ id, sys.server.allocStreamId.1 = some id → sys.FreshId id)
    (hs : sys.stepServer env (.accept tunnelId remoteAddr chunks) = some sys') : ∃ ends', Inv env sys' ends' := by
  obtain ⟨server', hx, rfl⟩ := Option.map_eq_some_iff.mp hs
  cases hx
  cases hid : sys.server.allocStreamId.1 with
  | none =>
    have hhub : (sys.server.openStream env.server env.streamWindow tunnelId remoteAddr (AgentSession.accepted chunks)
        chunks.flatten).toHub = sys.server.toHub := by
      simp [AgentSession.openStream, hid]
    obtain ⟨f, hf⟩ : ∃ f, Turn sys.server.toHub sys.server.toHub f [] [] :=
      Turn.of_control hI.serverTable [] (by simpa using Still.refl sys.server.toHub) (by simp) (by simp)
    exact ⟨ends, hI.server (show Turn sys.server.toHub _ f [] [] from hhub ▸ hf) (show sys.up = [] ++ sys.up from rfl)⟩
  | some id =>
    have hnone := allocFrom_lookup hid
    obtain ⟨f, r, fs, hobjs, hsame, hstreams, hdoes, hn, hrid, hrb, hrf, hreads, hrun⟩ :=
      openStream_opens env.server env.streamWindow tunnelId remoteAddr chunks hid
    have htable := TableOk.insert hI.serverTable (fun b t ht hk => (hI.over_of_fresh hnone (hfresh id hid) ht hk).1)
      hstreams hobjs hsame hrid hrf
    exact hI.accept hnone (hfresh id hid) hobjs hsame htable hdoes hn hrid hrb hreads hrun

/-- HELLO_OK is understood. -/
theorem handleHandshake_helloOk (env : SysEnv) (a : Agent) : a.handleHandshake env.helloOk =
    .ok (.ok { a with window := if 0 < env.streamWindow then env.streamWindow else a.window }) := by
  let body : Obj := [("agentId", .str env.agentId), ("heartbeatMs", .num (.fin env.heartbeatMs)),
    ("streamWindow", .num (.fin env.streamWindow)), ("httpDomain", .str env.httpDomain),
    ("serverVersion", .num (.fin PROTOCOL_VERSION))]
  have hwindow : Obj.get body "streamWindow" = some (.num (.fin env.streamWindow)) := rfl
  have hagent : Obj.strOr body "agentId" "?" = .ok env.agentId := rfl
  show a.handleHandshake (.control FrameType.helloOk body) = _
  simp [Agent.handleHandshake, FrameType.helloOk, FrameType.error, hwindow, hagent, toNumber?, Json.toNumber,
    Num.toInt?, bind, Except.bind, pure, Except.pure]

/-- The first frame to arrive is HELLO_OK. -/
theorem step_hello (hI : Inv env sys ends) (hh : sys.agent.handshook = false) {rest : List Frame} {flushed : Bool}
    (hdown : sys.down = env.helloOk :: rest) {sys' : Sys} (hs : sys.stepAgent env (.frame env.helloOk flushed) = some sys') :
    ∃ ends', Inv env sys' ends' := by
  obtain ⟨agent', hx, rfl⟩ := Option.map_eq_some_iff.mp hs
  have hx := toOption_eq_some.mp hx
  let a1 : Agent := { sys.agent with
    wire := { sys.agent.wire with received := sys.agent.wire.received ++ [env.helloOk] }
    handshook := false }
  simp only [Agent.onMessage, hh, Bool.false_eq_true, if_false] at hx
  change (a1.handleHandshake env.helloOk).map _ = _ at hx
  rw [handleHandshake_helloOk] at hx
  cases hx
  let a2 : Agent := { a1 with
    window := if 0 < env.streamWindow then env.streamWindow else a1.window
    handshook := true }
  obtain ⟨fs, hst, hctl, hw, hh2⟩ := Agent.registerTunnels_still env.agent env.specs a2
  obtain ⟨f, hT⟩ := Turn.of_control hI.agentTable [env.helloOk] hst
    (fun i hi k => by rw [List.mem_singleton.mp hi]; rfl) hctl
  refine hI.agent hT hdown (fun g hg k payload => ?_) (fun _ => hw.trans ?_) (fun h => ?_)
  · rw [List.mem_singleton.mp hg]
    simp [SysEnv.helloOk, AgentSession.helloOk]
  · simp only [a2, a1, (hI.notHandshook hh).2]
    rfl
  · exact absurd (hh2.symm.trans h) (by simp [a2])

/-- The arrival of a STREAM_OPEN, before the agent has handled it. -/
def arrived (sys : Sys) (f : Frame) : Hub ClientStream :=
  { sys.agent.toHub with wire := { sys.agent.wire with received := sys.agent.wire.received ++ [f] } }

theorem Inv.refuse (hI : Inv env sys ends) {id : Nat} {payload : Bytes} {rest : List Frame}
    (hdown : sys.down = .stream FrameType.streamOpen id payload :: rest) {agent' : Agent} (reason : String)
    (hhub : agent'.toHub =
      (sys.arrived (.stream FrameType.streamOpen id payload)).send env.agent (.reset id reason))
    (hwindow : agent'.window = sys.agent.window ∧ agent'.handshook = sys.agent.handshook) :
    ∃ ends', Inv env { sys with agent := agent' } ends' := by
  have hst := Still.send env.agent (sys.arrived (.stream FrameType.streamOpen id payload)) (.reset id reason)
  rw [← hhub] at hst
  obtain ⟨f, hf1, hf2⟩ := hst.objs
  have hcan : agent'.wire.canSend = sys.agent.wire.canSend := hst.wire.canSend
  have hn : Names id [Frame.reset id reason] := .single _ (by decide)
  have hobjs : ∀ (x : Nat) (c' : ClientStream), agent'.objs[x]? = some c' →
      ∃ c, sys.agent.objs[x]? = some c ∧ Same c c' := by
    intro x c' hc'
    rw [hf1] at hc'
    obtain ⟨c, hc, rfl⟩ := Option.map_eq_some_iff.mp hc'
    exact ⟨c, hc, hf2 x c⟩
  refine hI.receive hdown hst.wire.received hst.wire.sent hcan hn (hst.table hI.agentTable) hwindow
    (fun x c' hc' => .inl (hobjs x c' hc')) (fun x c hc => ?_) fun s0 hid hb hL hunpaired hd hu => ?_
  · exact ⟨f x c, by rw [hf1]; exact congrArg (Option.map (f x)) hc, hf2 x c⟩
  · have hunpaired' : ∀ (x : Nat) (c' : ClientStream), agent'.objs[x]? = some c' → ¬ Paired s0 c' := by
      intro x c' hc' hp
      obtain ⟨c, hc, hs⟩ := hobjs x c' hc'
      exact hunpaired x c hc ⟨hs.kept.id.symm.trans hp.1, hs.kept.receivedBefore.symm.trans hp.2⟩
    refine ⟨newEnd env false, fun x c hc hp => absurd hp (hunpaired' x c hc), fun hf => by simp [newEnd] at hf,
      fun hw => ?_, fun _ => ⟨rfl, rfl⟩, ?_⟩
    · have hw1 : agent'.wire.received.length ≤ s0.sentBefore := hw.1
      rw [hst.wire.received] at hw1
      simp only [arrived, List.length_append, List.length_singleton] at hw1
      omega
    · rw [hd, hu]
      have hr : (End.fresh env.agentWindow).Run [] (newEnd env false) [.reset] :=
        (End.Step.die (e := End.fresh env.agentWindow) none [.reset] (by simp)).run rfl
      have hrest : msgs s0.id sys.down = [] ++ msgs s0.id rest := by
        rw [hdown]
        simp [msgs]
      have h1 := (hL.inv.swap.run hr rfl hrest).swap
      have h2 : msgs s0.id (sys.agent.wire.passed [.reset id reason]) =
          if sys.agent.wire.canSend then [.reset] else [] := by
        unfold Wire.passed
        split
        · rw [← hid, msgs_singleton, msg?_reset]
          rfl
        · rfl
      rw [msgs_append, h2]
      show Duplex.Inv _ _ ⟨_, _, _, _, _, agent'.wire.canSend⟩
      rw [hcan]
      exact h1

/-- When a STREAM_OPEN is next to arrive, every stream of the agent with its id is finished. -/
theorem Inv.finished_of_open (hI : Inv env sys ends) {id : Nat} {payload : Bytes} {rest : List Frame}
    (hdown : sys.down = .stream FrameType.streamOpen id payload :: rest) {x : Nat} {c : ClientStream}
    (hc : sys.agent.objs[x]? = some c) (hk : c.id = id) : c.finished = true := by
  by_contra hf
  have hget : sys.server.wire.sent[sys.agent.wire.received.length]? = some (.stream FrameType.streamOpen id payload) := by
    rw [hI.sent_eq, hdown, List.getElem?_append_right (le_refl _)]
    simp
  obtain ⟨a, s, hs, hid, hb⟩ := hI.opens _ _ _ hget
  have hw : sys.Waiting s := ⟨hb.ge, hb ▸ (List.getElem?_eq_some_iff.mp hget).1⟩
  have hp : ¬ Paired s c := by
    intro hp
    have := (hI.born x c hc).1
    have := hp.2
    omega
  have h := (hI.over_of_agent hs hc ((Bool.not_eq_true _).mp hf) (hk.trans hid.symm) hp).2
  rw [(hI.linked a s hs).waiting hw] at h
  simp [End.fresh] at h

theorem Inv.dial (hI : Inv env sys ends) {id : Nat} {payload : Bytes} {rest : List Frame}
    (hdown : sys.down = .stream FrameType.streamOpen id payload :: rest) {agent' : Agent} {c c0 : ClientStream}
    (hhub : agent'.toHub = (sys.arrived (.stream FrameType.streamOpen id payload)).insert id c) (hsame : Same c0 c)
    (hcid : c0.id = id) (hcb : c0.receivedBefore = sys.agent.wire.received.length + 1) (hcf : c0.finished = false)
    (hview : ClientStream.View c0 (.fresh env.agentWindow))
    (hwindow : agent'.window = sys.agent.window ∧ agent'.handshook = sys.agent.handshook) :
    ∃ ends', Inv env { sys with agent := agent' } ends' := by
  have hcid : c.id = id := hsame.kept.id.trans hcid
  have hcb : c.receivedBefore = sys.agent.wire.received.length + 1 := hsame.kept.receivedBefore.trans hcb
  have hcf : c.finished = false := hsame.finished.trans hcf
  have hins : ∀ b, agent'.objs[b]? = if b = sys.agent.objs.length then some c
      else sys.agent.objs[b]?.map fun c => c := by
    intro b
    rw [hhub]
    split
    · rename_i hb
      rw [hb]
      exact getElem?_insert_self id c
    · rename_i hb
      rw [Option.map_id']
      by_cases hlt : b < sys.agent.objs.length
      · exact getElem?_insert_of_lt c hlt
      · have hlen : ((sys.arrived (.stream FrameType.streamOpen id payload)).insert id c).objs.length =
            sys.agent.objs.length + 1 := List.length_append
        rw [List.getElem?_eq_none (by omega), List.getElem?_eq_none (by omega)]
  have htable : agent'.toHub.TableOk := by
    refine TableOk.insert (h := sys.agent.toHub) (s := c) (f := fun _ c => c) hI.agentTable
      (fun x c hc hk => hI.finished_of_open hdown hc hk) ?_ hins (fun _ _ => .refl _) hcid hcf
    rw [hhub]
    rfl
  have hwire : sys.agent.wire.received ++ [.stream FrameType.streamOpen id payload] = agent'.wire.received ∧
      sys.agent.wire.sent = agent'.wire.sent ∧ sys.agent.wire.canSend = agent'.wire.canSend := by
    rw [hhub]
    exact ⟨rfl, rfl, rfl⟩
  have hcan : agent'.wire.canSend = sys.agent.wire.canSend := hwire.2.2.symm
  have hold : ∀ {x : Nat} {c' : ClientStream}, sys.agent.objs[x]? = some c' → agent'.objs[x]? = some c' := by
    intro x c' hc'
    have hlt := (List.getElem?_eq_some_iff.mp hc').1
    rw [hins, if_neg (by omega), hc']
    rfl
  have hobjs : ∀ (x : Nat) (c' : ClientStream), agent'.objs[x]? = some c' →
      (x = sys.agent.objs.length ∧ c' = c) ∨ sys.agent.objs[x]? = some c' := by
    intro x c' hc'
    rw [hins] at hc'
    split at hc'
    · exact .inl ⟨‹_›, (Option.some.inj hc').symm⟩
    · exact .inr (by simpa using hc')
  refine hI.receive hdown hwire.1.symm
    (show agent'.wire.sent = sys.agent.wire.sent ++ sys.agent.wire.passed [] by simp [hwire.2.1]) hcan (.nil _) htable hwindow
    (fun x c' hc' => ?_) (fun x c' hc' => ⟨c', hold hc', .refl _⟩) fun s0 hid hb hL hunpaired hd hu => ?_
  · rcases hobjs x c' hc' with ⟨hx, rfl⟩ | h
    · exact .inr ⟨hx, hcid, hcb⟩
    · exact .inl ⟨c', h, .refl _⟩
  · refine ⟨.fresh env.agentWindow, fun x c' hc' hp => ?_,
      fun _ => .inl ⟨sys.agent.objs.length, c, by rw [hins, if_pos rfl], hcid.trans hid.symm, by rw [hcb, hb]⟩,
      fun _ => rfl, fun _ => ⟨rfl, rfl⟩, ?_⟩
    · rcases hobjs x c' hc' with ⟨-, rfl⟩ | h
      · exact hsame.view _ hview
      · exact absurd hp (hunpaired x c' h)
    · have h1 : msgs s0.id rest = msgs s0.id sys.down := by
        rw [hdown]
        simp [msgs]
      rw [hd, hu, h1, Wire.passed_nil, List.append_nil]
      show Duplex.Inv _ _ ⟨_, _, _, _, _, agent'.wire.canSend⟩
      rw [hcan]
      exact hL.inv

theorem step_open (hI : Inv env sys ends) {id : Nat} {payload : Bytes} {rest : List Frame} {flushed : Bool}
    (hdown : sys.down = .stream FrameType.streamOpen id payload :: rest) (hh : sys.agent.handshook = true) {sys' : Sys}
    (hs : sys.stepAgent env (.frame (.stream FrameType.streamOpen id payload) flushed) = some sys') :
    ∃ ends', Inv env sys' ends' := by
  obtain ⟨agent', hx, rfl⟩ := Option.map_eq_some_iff.mp hs
  have hx := toOption_eq_some.mp hx
  simp only [Agent.onMessage, hh, if_true, Agent.handleFrame] at hx
  obtain ⟨tunnelId, -, rfl⟩ := map_ok.mp hx
  cases hl : sys.agent.tunnels.lookup tunnelId with
  | none =>
    refine hI.refuse hdown "unknown_tunnel" ?_ ⟨rfl, hh.symm⟩
    simp [Agent.onStreamOpen, hl, arrived]
  | some spec =>
    let c0 := ClientStream.new id spec sys.agent.window (sys.arrived (.stream FrameType.streamOpen id payload)).wire
    have hsame : Same c0 (if sys.agent.wire.congested then c0.setGlobalPause true else c0) := by
      split
      · exact .pause true c0
      · exact .refl c0
    refine hI.dial hdown ?_ hsame rfl (by simp [c0, ClientStream.new, Endpoint.new, arrived]) rfl ?_ ⟨rfl, hh.symm⟩
    · simp [Agent.onStreamOpen, hl, arrived, c0]
    · exact hI.handshook hh ▸ ClientStream.new_view id spec sys.agent.window _

theorem Inv.step_server (hI : Inv env sys ends) {e : AgentSession.Event} {sys' : Sys}
    (he : ∀ tunnelId remoteAddr chunks, e ≠ .accept tunnelId remoteAddr chunks)
    (hf : ∀ f flushed, e = .frame f flushed → ∃ rest, sys.up = f :: rest) (hs : sys.stepServer env e = some sys') :
    Inv env sys' ends := by
  obtain ⟨server', hx, rfl⟩ := Option.map_eq_some_iff.mp hs
  obtain ⟨f, ins, fs, hT, h1, h2⟩ := AgentSession.step_turn hI.serverTable he hx
  by_cases hframe : ∃ g flushed, e = .frame g flushed
  · obtain ⟨g, flushed, rfl⟩ := hframe
    obtain ⟨rest, hup⟩ := hf g flushed rfl
    exact hI.server hT (by rw [h1 g flushed rfl, hup]; rfl)
  · rw [h2 fun g flushed h => hframe ⟨g, flushed, h⟩] at hT
    exact hI.server hT (show sys.up = [] ++ sys.up from rfl)

theorem Inv.step_agent (hI : Inv env sys ends) {e : Agent.Event} {sys' : Sys}
    (hf : ∀ f flushed, e = .frame f flushed → sys.agent.handshook = true ∧
      (∀ id payload, f ≠ .stream FrameType.streamOpen id payload) ∧ ∃ rest, sys.down = f :: rest)
    (hs : sys.stepAgent env e = some sys') : ∃ ends', Inv env sys' ends' := by
  obtain ⟨agent', hx, rfl⟩ := Option.map_eq_some_iff.mp hs
  have hseen : ∀ (x : Nat) (c : ClientStream), sys.agent.objs[x]? = some c → ∃ e, ClientStream.View c e := by
    intro x c hc
    obtain ⟨-, a, s, hs, hp⟩ := hI.born x c hc
    exact ⟨_, (hI.linked a s hs).view x c hc hp⟩
  obtain ⟨⟨f, ins, fs, hT, h1, h2⟩, hw, hh⟩ := Agent.step_turn hI.agentTable hseen
    (fun g flushed h => ⟨(hf g flushed h).1, (hf g flushed h).2.1⟩) hx
  have hwindow : agent'.handshook = true → agent'.window = env.agentWindow :=
    fun h => hw.trans (hI.handshook (hh.symm.trans h))
  by_cases hframe : ∃ g flushed, e = .frame g flushed
  · obtain ⟨g, flushed, rfl⟩ := hframe
    obtain ⟨hshook, hopen, rest, hdown⟩ := hf g flushed rfl
    rw [h1 g flushed rfl] at hT
    exact hI.agent hT hdown (fun g' hg => by rw [List.mem_singleton.mp hg]; exact hopen) hwindow
      fun h => by simp [hh, hshook] at h
  · rw [h2 fun g flushed h => hframe ⟨g, flushed, h⟩] at hT
    refine hI.agent hT (show sys.down = [] ++ sys.down from rfl) (by simp) hwindow fun h => ?_
    have h3 := hI.notHandshook (hh.symm.trans h)
    exact ⟨hT.received.trans (by simp [h3.1]), hw.trans h3.2⟩

/-- Every step keeps the invariant, where streams are opened under fresh ids. -/
theorem Inv.step (hI : Inv env sys ends) {e : Event} {sys' : Sys} (hok : sys.OpensFresh e)
    (hs : sys.step env e = some sys') : ∃ ends', Inv env sys' ends' := by
  cases e with
  | server e =>
    cases e with
    | accept tunnelId remoteAddr chunks => exact step_accept hI hok hs
    | frame => cases hs
    | _ => exact ⟨ends, hI.step_server (by simp) (by simp) hs⟩
  | agent e =>
    cases e with
    | frame => cases hs
    | _ => exact hI.step_agent (by simp) hs
  | toServer flushed =>
    obtain ⟨f, hf, hs⟩ := Option.bind_eq_some_iff.mp hs
    obtain ⟨rest, hrest⟩ := List.head?_eq_some_iff.mp hf
    refine ⟨ends, hI.step_server (by simp) (fun g fl h => ?_) hs⟩
    cases h
    exact ⟨rest, hrest⟩
  | toAgent flushed =>
    obtain ⟨f, hf, hs⟩ := Option.bind_eq_some_iff.mp hs
    obtain ⟨rest, hdown⟩ := List.head?_eq_some_iff.mp hf
    cases hh : sys.agent.handshook with
    | false =>
      have hhello : f = env.helloOk := by
        have h1 := hI.sent_eq
        have h2 := hI.hello
        rw [(hI.notHandshook hh).1, List.nil_append, hdown] at h1
        rw [h1] at h2
        exact Option.some.inj h2
      exact step_hello hI hh (hhello ▸ hdown) (hhello ▸ hs)
    | true =>
      by_cases hopen : ∃ id payload, f = .stream FrameType.streamOpen id payload
      · obtain ⟨id, payload, rfl⟩ := hopen
        exact step_open hI hdown hh hs
      · refine hI.step_agent (fun g fl h => ?_) hs
        cases h
        exact ⟨hh, fun id payload h => hopen ⟨id, payload, h⟩, rest, hdown⟩

theorem inv_start (ends : Nat → End UInt8) : Inv env (start env) ends := by
  have hw := Still.send env.server AgentSession.new.toHub env.helloOk
  have hsent : (start env).server.wire.sent = [env.helloOk] := hw.wire.sent
  have hobjs : (start env).server.objs = [] := by
    obtain ⟨f, hf, -⟩ := hw.objs
    refine List.eq_nil_iff_forall_not_mem.mpr fun s hs => ?_
    obtain ⟨i, hi⟩ := List.mem_iff_getElem?.mp hs
    have hi := (hf i).symm.trans hi
    simp [AgentSession.new] at hi
  have hnone : ∀ (a : Nat) (s : Stream), (start env).server.objs[a]? ≠ some s := by simp [hobjs]
  refine ⟨by simp [start, Agent.new], ?_, hw.table ?_, ?_, by rw [hsent]; rfl, fun h => ?_, fun _ => ⟨rfl, rfl⟩,
    fun a s h => absurd h (hnone a s), ?_, fun a s h => absurd h (hnone a s), fun a s h => absurd h (hnone a s),
    fun x c h => by simp [start, Agent.new] at h, fun a s h => absurd h (hnone a s),
    fun a s h => absurd h (hnone a s), fun a _ s _ h => absurd h (hnone a s),
    fun x _ c _ h => by simp [start, Agent.new] at h, fun a _ s _ h => absurd h (hnone a s)⟩
  · rw [show (start env).server.wire.received = [] from hw.wire.received]
    exact List.nil_prefix
  · intro id a
    simp [AgentSession.new]
  · intro id a
    simp [start, Agent.new]
  · simp [start, Agent.new] at h
  · intro i k payload h
    rw [hsent] at h
    cases i with
    | zero => cases h
    | succ i => simp at h

theorem reach_inv (hr : Lts.Reach (Lts.ofFn (step env)) OpensFresh (· = start env) sys) :
    ∃ ends, Inv env sys ends := by
  refine hr.invariant (I := fun sys => ∃ ends, Inv env sys ends) ?_ ?_
  · rintro sys rfl
    exact ⟨fun _ => .fresh 0, inv_start _⟩
  · rintro sys e sys' _ ⟨ends, hI⟩ hok hs
    exact hI.step hok hs

end Sys

end UpTunnel
