import UpTunnel.Python.Session

/-!
# UpTunnel.Python.Link

A server session and the Python agent at the other end of its WebSocket, from the HELLO_OK on. Each direction is a
FIFO: the agent has read a prefix of what the session has sent, and the server a prefix of what the agent has handed
to its WebSocket. The agent may have had sessions before.

* `Sys.step`: one event at either end, or the arrival of one frame.
* `Sys.Inv`: what every stream of the agent has heard and said is what has come in and gone out under its id, and no
  two of the session have one id. Kept by every orderly step.
-/

namespace UpTunnel.Python

open Js Lts

structure Sys where
  server : AgentSession
  agent : Agent
  /-- How many of the session's frames the agent has read. -/
  arrived : Nat

/-- What both sides are configured with. -/
structure SysEnv where
  server : WireEnv
  streamWindow : Int
  agentId : String
  heartbeatMs : Int
  httpDomain : String
  agent : Env

namespace Sys

inductive Event where
  | server (e : AgentSession.Event)
  | agent (e : Agent.Event)
  | toServer (flushed : Bool)
  /-- The agent reads a frame, in these bytes. -/
  | toAgent (data : Bytes)

/-- What the agent has read. -/
def came (sys : Sys) : List UpTunnel.Frame := sys.server.wire.sent.take sys.arrived

/-- The frames in flight to the agent. -/
def down (sys : Sys) : List UpTunnel.Frame := sys.server.wire.sent.drop sys.arrived

/-- What is on its way to the server: in `_out`, or in flight. -/
def up (sys : Sys) : List UpTunnel.Frame :=
  (sys.agent.said.drop sys.server.wire.received.length).filterMap Message.frame?

variable (env : SysEnv)

/-- The agent has sent its HELLO, and the session its HELLO_OK. -/
def start (a : Agent) : Sys where
  server := { AgentSession.new with
    toHub := AgentSession.new.toHub.send env.server
      (AgentSession.helloOk env.agentId env.heartbeatMs env.streamWindow env.httpDomain) }
  agent := a.connect env.agent
  arrived := 0

def stepServer (sys : Sys) (e : AgentSession.Event) : Option Sys :=
  (AgentSession.step env.server env.streamWindow sys.server e).map fun s => { sys with server := s }

def stepAgent (sys : Sys) (e : Agent.Event) : Option Sys :=
  (sys.agent.step env.agent e).map fun a => { sys with agent := a }

/-- The first frame is the answer to the HELLO. -/
def read (sys : Sys) (data : Bytes) : Option Sys :=
  (sys.agent.step env.agent (if sys.agent.phase = .greeting then .reply data else .message data)).map fun a =>
    { sys with agent := a, arrived := sys.arrived + 1 }

/-- A frame that the server cannot decode ends the session, so there is no step that hands it over. -/
def step (sys : Sys) : Event → Option Sys
  | .server (.frame ..) => none
  | .server e => sys.stepServer env e
  | .agent .connect => none
  | .agent (.reply _) => none
  | .agent (.message _) => none
  | .agent e => sys.stepAgent env e
  | .toServer flushed =>
    sys.agent.passed[sys.server.wire.received.length]?.bind fun m =>
      m.frame?.bind fun f => sys.stepServer env (.frame f flushed)
  | .toAgent data =>
    sys.server.wire.sent[sys.arrived]?.bind fun f =>
      if carries env.agent.maxStrDigits f data = true then sys.read env data else none

/-- It opens a stream. -/
def accepts : AgentSession.Event → Bool
  | .accept .. => true
  | .data .. => false
  | .end _ => false
  | .drain _ => false
  | .error _ => false
  | .close _ => false
  | .frame .. => false
  | .control .. => false
  | .poll _ => false
  | .notOpen => false
  | .destroy => false

/-- Ids do not run out, and no dial of a finished stream comes back. -/
def Orderly (sys : Sys) : Event → Prop
  | .server e => accepts e = true → sys.server.objs.length < MAX_STREAM_ID
  | .agent e => ∀ x ∈ e.dial?, ∀ s ∈ sys.agent.objs[x]?, s.finished = false
  | .toServer _ => True
  | .toAgent _ => True

instance (sys : Sys) : (e : Event) → Decidable (Orderly sys e)
  | .server _ => inferInstanceAs (Decidable (_ → _))
  | .agent e => inferInstanceAs (Decidable (∀ x ∈ e.dial?, ∀ s ∈ sys.agent.objs[x]?, s.finished = false))
  | .toServer _ => .isTrue trivial
  | .toAgent _ => .isTrue trivial

/-- The agent begins a session, after a calm run. -/
def Starts (sys : Sys) : Prop :=
  ∃ a, Reach (ofFn (Agent.step env.agent)) (Agent.Calm env.agent) Agent.Starts a ∧ a.phase = .down ∧ sys = start env a

/-! ## The invariant -/

/-- The stream `c` of the agent, by what has gone over the link under its id. -/
structure Linked (sys : Sys) (c : Stream) : Prop where
  opened : ∃ i payload, i < sys.arrived ∧ sys.server.wire.sent[i]? = some (.stream FrameType.streamOpen c.id payload)
  heard : c.heardMsgs <+: msgs c.id sys.came
  all : c.finished = false → c.heardMsgs = msgs c.id sys.came
  said : ∃ rs, voice c.id sys.agent.said = voice c.id c.queued ++ rs ∧ (∀ w ∈ rs, w = .reset) ∧
    (c.finished = false → rs = [])

structure Inv (sys : Sys) : Prop where
  calm : Reach (ofFn (Agent.step env.agent)) (Agent.Calm env.agent) Agent.Starts sys.agent
  lives : sys.server.Lives env.streamWindow
  begun : sys.agent.spoken ≠ []
  arrived : sys.arrived ≤ sys.server.wire.sent.length
  received : (sys.agent.passed.take sys.server.wire.received.length).map Message.frame? =
    sys.server.wire.received.map some
  /-- What the agent says about a stream is said of one that it has read about. -/
  named : ∀ m ∈ sys.agent.said, ∀ f, m.frame? = some f → ∀ k, f.streamId? = some k →
    ∃ g ∈ sys.came, g.streamId? = some k
  linked : ∀ (x : Nat) (c : Stream), sys.agent.Current x c → Linked sys c
  apart : sys.agent.Apart
  strangers : ∀ k, (∀ (x : Nat) (c : Stream), sys.agent.Current x c → c.id ≠ k) →
    ∀ w ∈ voice k sys.agent.said, w = .reset

variable {env} {sys sys' : Sys} {e : Event}

theorem Inv.received_le (hI : Inv env sys) : sys.server.wire.received.length ≤ sys.agent.passed.length := by
  have h := congrArg List.length hI.received
  rw [List.length_map, List.length_map, List.length_take] at h
  omega

theorem Linked.id_opened {c : Stream} (h : Linked sys c) : ∃ g ∈ sys.came, g.streamId? = some c.id := by
  obtain ⟨i, payload, hi, hg⟩ := h.opened
  refine ⟨.stream FrameType.streamOpen c.id payload, List.mem_of_getElem? (i := i) ?_, rfl⟩
  rw [came, List.getElem?_take_of_lt hi]
  exact hg

/-- The id of a STREAM_OPEN that is about to be read is new to the agent. -/
theorem Inv.fresh (hI : Inv env sys) {k : Nat} {payload : Bytes}
    (hopen : sys.server.wire.sent[sys.arrived]? = some (.stream FrameType.streamOpen k payload)) :
    ∀ g ∈ sys.came, g.streamId? ≠ some k := by
  intro g hg
  obtain ⟨j, hj⟩ := List.mem_iff_getElem?.mp hg
  rw [came, List.getElem?_take] at hj
  split at hj
  · rename_i hlt
    exact (hI.lives.opens sys.arrived k payload hopen).2 j g hlt hj
  · cases hj

theorem Inv.fresh_current (hI : Inv env sys) {k : Nat} {payload : Bytes}
    (hopen : sys.server.wire.sent[sys.arrived]? = some (.stream FrameType.streamOpen k payload)) (x : Nat) (c : Stream)
    (hc : sys.agent.Current x c) : c.id ≠ k := by
  rintro rfl
  obtain ⟨g, hg, hid⟩ := (hI.linked x c hc).id_opened
  exact hI.fresh hopen g hg hid

theorem inv_start (h : Starts env sys) : Inv env sys := by
  obtain ⟨a, ha, hdown, rfl⟩ := h
  have hstep : a.step env.agent .connect = some (a.connect env.agent) := if_pos hdown
  have hcalm : Agent.Calm env.agent a .connect := ⟨by simp [Agent.Event.dial?], by simp [Agent.Event.opens?]⟩
  have hspoken : (a.connect env.agent).spoken = [(none, env.agent.hello)] := by simp [Agent.spoken, Agent.connect]
  have hsaid : (a.connect env.agent).said = [] := by
    rw [Agent.said, hspoken]
    rfl
  have hnone : ∀ (x : Nat) (c : Stream), ¬ (a.connect env.agent).Current x c := by
    intro x c hc
    have h1 := ((Agent.timed ha).past x c hc.1).1
    have h2 : c.session + 1 = a.sent.length + 1 := hc.2.trans List.length_append
    omega
  refine ⟨ha.next hcalm hstep, ?_, by rw [start, hspoken]; simp, Nat.zero_le _, ?_, fun m hm => ?_,
    fun x c hc => absurd hc (hnone x c), fun x y c d hc => absurd hc (hnone x c), fun k _ w hw => ?_⟩
  · exact (AgentSession.lives_new env.streamWindow).step (e := .control FrameType.helloOk _) trivial rfl
  · have hr : (start env a).server.wire.received = [] := by simp [start, AgentSession.new]
    rw [hr]
    rfl
  · rw [start, hsaid] at hm
    cases hm
  · rw [start, hsaid] at hw
    cases hw

/-- The server acts, or takes the next frame. -/
theorem Inv.server (hI : Inv env sys) {e : AgentSession.Event} {s' : AgentSession} (hok : sys.server.InOrder e)
    (hs : AgentSession.step env.server env.streamWindow sys.server e = some s')
    (hins : e.ins = [] ∨ ∃ m f, sys.agent.passed[sys.server.wire.received.length]? = some m ∧ m.frame? = some f ∧
      e.ins = [f]) : Inv env { sys with server := s' } := by
  obtain ⟨hsent, hrec⟩ := hI.lives.step_wire hok hs
  have hcame : ({ sys with server := s' } : Sys).came = sys.came := by
    obtain ⟨t, ht⟩ := hsent
    unfold came
    rw [← ht, List.take_append_of_le_length hI.arrived]
  have hlen := hI.received_le
  refine ⟨hI.calm, hI.lives.step hok hs, hI.begun, hI.arrived.trans hsent.length_le, ?_, ?_, fun x c hc => ?_,
    hI.apart, hI.strangers⟩
  · show (sys.agent.passed.take s'.wire.received.length).map Message.frame? = s'.wire.received.map some
    rw [hrec]
    rcases hins with h | ⟨m, f, hm, hf, h⟩
    · rw [h, List.append_nil]
      exact hI.received
    · rw [h, List.length_append, List.length_singleton, List.take_add_one, hm, List.map_append, List.map_append,
        hI.received]
      simp [hf]
  · rw [hcame]
    exact hI.named
  · have hL := hI.linked x c hc
    obtain ⟨i, payload, hi, hg⟩ := hL.opened
    refine ⟨⟨i, payload, hi, ?_⟩, by rw [hcame]; exact hL.heard, by rw [hcame]; exact hL.all, hL.said⟩
    obtain ⟨t, ht⟩ := hsent
    have hlt := (List.getElem?_eq_some_iff.mp hg).1
    show s'.wire.sent[i]? = _
    rw [← ht, List.getElem?_append_left hlt]
    exact hg

/-- The agent acts, or reads the next frame. -/
theorem Inv.agent (hI : Inv env sys) {a' : Agent} {ins : List UpTunnel.Frame} {new : List Message}
    (hcalm : Reach (ofFn (Agent.step env.agent)) (Agent.Calm env.agent) Agent.Starts a')
    (hT : Agent.Turns sys.agent a' ins new)
    (hins : ins = [] ∨ ∃ f, sys.server.wire.sent[sys.arrived]? = some f ∧ ins = [f]) :
    Inv env { sys with agent := a', arrived := sys.arrived + ins.length } := by
  have hcame : ({ sys with agent := a', arrived := sys.arrived + ins.length } : Sys).came = sys.came ++ ins := by
    unfold came
    rcases hins with rfl | ⟨f, hf, rfl⟩
    · simp
    · simp only [List.length_singleton, List.take_add_one, hf, Option.toList_some]
  have hsaid := hT.said hI.begun
  have hlen := hI.received_le
  have hopened : ∀ k, (∃ payload, ins = [.stream STREAM_OPEN k payload]) → ∀ g ∈ sys.came, g.streamId? ≠ some k := by
    rintro k ⟨payload, rfl⟩
    rcases hins with h | ⟨f, hf, h⟩
    · cases h
    · cases h
      exact hI.fresh hf
  refine ⟨hcalm, hI.lives, hT.begun hI.begun, ?_, ?_, fun m hm f hf k hk => ?_, fun x c' hc' => ?_,
    fun x y c' d' hc' hd' hid => ?_, fun k hk w hw => ?_⟩
  · rcases hins with rfl | ⟨f, hf, rfl⟩
    · exact hI.arrived
    · exact (List.getElem?_eq_some_iff.mp hf).1
  · obtain ⟨t, ht⟩ := hT.passed
    show (a'.passed.take _).map _ = _
    rw [← ht, List.take_append_of_le_length hlen]
    exact hI.received
  · rw [hcame]
    have hm : m ∈ a'.said := hm
    rw [hsaid] at hm
    rcases List.mem_append.mp hm with hm | hm
    · obtain ⟨g, hg, hgk⟩ := hI.named m hm f hf k hk
      exact ⟨g, List.mem_append_left _ hg, hgk⟩
    · rcases hT.names m hm f hf k hk with ⟨x, c, hc, rfl⟩ | ⟨g, hg, hgk⟩
      · obtain ⟨g, hg, hgk⟩ := (hI.linked x c hc).id_opened
        exact ⟨g, List.mem_append_left _ hg, hgk⟩
      · exact ⟨g, List.mem_append_right _ hg, hgk⟩
  · rcases hT.made x c' hc' with ⟨c, hc⟩ | ⟨-, ⟨payload, hopen⟩, hheard, hqueued, hf, rfl⟩
    · obtain ⟨c'', hx, hgo⟩ := hT.goes x c hc
      obtain rfl : c'' = c' := Option.some.inj (hx.symm.trans hc'.1)
      have hL := hI.linked x c hc
      obtain ⟨i, p, hi, hg⟩ := hL.opened
      refine ⟨⟨i, p, Nat.lt_add_right _ hi, by rw [hgo.later.id]; exact hg⟩, ?_, fun hf' => ?_, ?_⟩
      · rw [hcame, hgo.later.id, msgs_append]
        cases hf : c.finished with
        | false =>
          rw [hgo.heard hf, hL.all hf]
        | true =>
          rw [hgo.deaf hf]
          exact hL.heard.trans (List.prefix_append _ _)
      · have hf : c.finished = false := by
          by_contra h
          have := hgo.later.finished ((Bool.not_eq_false _).mp h)
          rw [hf'] at this
          cases this
        rw [hcame, hgo.later.id, msgs_append, hgo.heard hf, hL.all hf]
      · obtain ⟨rs, hvoice, hrs, hlive⟩ := hL.said
        obtain ⟨own, rs', hq, hnew, hrs', hown, hlive'⟩ := hgo.said
        show ∃ rs, voice c''.id a'.said = _ ∧ _
        rw [hsaid, hgo.later.id, voice_append, hvoice, hnew, hq, voice_append]
        cases hf : c.finished with
        | false =>
          refine ⟨[], ?_, by simp, fun _ => rfl⟩
          rw [hlive hf, hlive' hf]
          simp
        | true =>
          refine ⟨rs ++ rs', ?_, fun w hw => (List.mem_append.mp hw).elim (hrs w) (hrs' w), fun hf' => ?_⟩
          · rw [hown hf]
            simp
          · rw [hgo.later.finished hf] at hf'
            cases hf'
    · -- a new stream: nothing has gone over the link under its id
      have hfresh := hopened c'.id ⟨payload, hopen⟩
      have hm : c'.heardMsgs = [] := by
        unfold Stream.heardMsgs
        rw [hheard]
        rfl
      have hmsgs : msgs c'.id (sys.came ++ ins) = [] := by
        rw [msgs_append, msgs_of_ne hfresh, hopen, msgs_singleton,
          show msg? c'.id (.stream STREAM_OPEN c'.id payload) = none from msg?_streamOpen _ _]
        rfl
      have hvoice : voice c'.id a'.said = [] := by
        rw [hsaid, List.append_nil]
        exact voice_of_ne fun m hm f hf hid => by
          obtain ⟨g, hg, hgk⟩ := hI.named m hm f hf c'.id hid
          exact hfresh g hg hgk
      refine ⟨?_, by rw [hm]; exact List.nil_prefix, fun _ => by rw [hm, hcame, hmsgs], [], ?_, by simp, fun _ => rfl⟩
      · rcases hins with h | ⟨f, hf, h⟩
        · rw [h] at hopen
          cases hopen
        · rw [h] at hopen
          cases hopen
          exact ⟨sys.arrived, payload, by simp [h], hf⟩
      · rw [hqueued, hvoice]
        rfl
  · have old : ∀ {z : Nat} {b c : Stream}, sys.agent.Current z b → a'.Current z c → c.id = b.id := by
      intro z b c hb hc
      obtain ⟨b', hz, hgo⟩ := hT.goes z b hb
      obtain rfl : b' = c := Option.some.inj (hz.symm.trans hc.1)
      exact hgo.later.id
    rcases hT.made x c' hc' with ⟨c, hc⟩ | ⟨hx, hopen, -⟩
    · rcases hT.made y d' hd' with ⟨d, hd⟩ | ⟨hy, hopen, -⟩
      · exact hI.apart x y c d hc hd ((old hc hc').symm.trans (hid.trans (old hd hd')))
      · obtain ⟨g, hg, hgk⟩ := (hI.linked x c hc).id_opened
        exact absurd (hgk.trans (congrArg some ((old hc hc').symm.trans hid))) (hopened _ hopen g hg)
    · rcases hT.made y d' hd' with ⟨d, hd⟩ | ⟨hy, -⟩
      · obtain ⟨g, hg, hgk⟩ := (hI.linked y d hd).id_opened
        exact absurd (hgk.trans (congrArg some ((old hd hd').symm.trans hid.symm))) (hopened _ hopen g hg)
      · exact hx.trans hy.symm
  · have hold : ∀ (x : Nat) (c : Stream), sys.agent.Current x c → c.id ≠ k := by
      intro x c hc hid
      obtain ⟨c', hx, hgo⟩ := hT.goes x c hc
      refine hk x c' ⟨hx, ?_⟩ (hgo.later.id.trans hid)
      show c'.session + 1 = a'.sent.length
      rw [hgo.later.session, hT.length]
      exact hc.2
    have hw : w ∈ voice k a'.said := hw
    rw [hsaid, voice_append] at hw
    rcases List.mem_append.mp hw with hw | hw
    · exact hI.strangers k hold w hw
    · exact hT.strangers k hold w hw

/-- The agent stays calm: an id that a STREAM_OPEN brings is not in its table. -/
theorem Inv.calm_message (hI : Inv env sys) {f : UpTunnel.Frame} {data : Bytes}
    (hf : sys.server.wire.sent[sys.arrived]? = some f) (hc : carries env.agent.maxStrDigits f data = true) :
    Agent.Calm env.agent sys.agent (.message data) := by
  refine ⟨by simp [Agent.Event.dial?], fun id hid => ?_⟩
  simp only [Agent.Event.opens?, Agent.openedBy] at hid
  cases hd : decode env.agent.maxStrDigits data with
  | error err =>
    rw [hd] at hid
    cases hid
  | ok g =>
    rw [hd] at hid
    cases g with
    | control t body => cases hid
    | stream t i p =>
      simp only [Option.mem_def, Option.ite_none_right_eq_some, Option.some.injEq] at hid
      obtain ⟨rfl, rfl⟩ := hid
      cases f with
      | control type body =>
        simp only [carries, hd] at hc
        cases hc
      | stream type id payload =>
        simp only [carries, hd, decide_eq_true_eq] at hc
        obtain ⟨rfl, rfl, rfl⟩ := hc
        by_contra hne
        obtain ⟨x, hx⟩ := Option.ne_none_iff_exists'.mp hne
        obtain ⟨s, hs, hid, hn⟩ := Agent.listed hI.calm i x hx
        exact hI.fresh_current hf x s ⟨hs, ((Agent.settled hI.calm).live x s hs hn).2.2⟩ hid

/-- Every orderly step keeps it. -/
theorem Inv.step (hI : Inv env sys) (hok : Orderly sys e) (hs : sys.step env e = some sys') : Inv env sys' := by
  have local_ : ∀ {e : Agent.Event}, (∀ x ∈ e.dial?, ∀ s ∈ sys.agent.objs[x]?, s.finished = false) →
      e.opens? env.agent.maxStrDigits = none → e ≠ .connect → (∀ data, e ≠ .reply data) →
      (∀ data, e ≠ .message data) → sys.stepAgent env e = some sys' → Inv env sys' := by
    intro e hdial hopens h1 h2 h3 hs
    obtain ⟨a', ha, rfl⟩ := Option.map_eq_some_iff.mp hs
    have hcalm : Agent.Calm env.agent sys.agent e := ⟨hdial, by rw [hopens]; simp⟩
    obtain ⟨new, hT⟩ := Agent.turns_local hI.calm hcalm hI.apart ha h1 h2 h3
    have h := hI.agent (hI.calm.next hcalm ha) hT (.inl rfl)
    exact h
  have server : ∀ {e : AgentSession.Event}, sys.stepServer env e = some sys' → sys.server.InOrder e → e.ins = [] →
      Inv env sys' := by
    intro e hs hok hins
    obtain ⟨s', hx, rfl⟩ := Option.map_eq_some_iff.mp hs
    exact hI.server hok hx (.inl hins)
  cases e with
  | server e =>
    cases e with
    | frame => cases hs
    | accept => exact server hs (hok rfl) rfl
    | data | «end» | drain | error | close | control | poll | notOpen | destroy =>
      exact server hs trivial rfl
  | agent e =>
    cases e with
    | connect => cases hs
    | reply => cases hs
    | message => cases hs
    | unanswered | disconnect | deliver | stream | dialFailed | gathered => exact local_ hok rfl nofun nofun nofun hs
  | toServer flushed =>
    obtain ⟨m, hm, hs⟩ := Option.bind_eq_some_iff.mp hs
    obtain ⟨f, hf, hs⟩ := Option.bind_eq_some_iff.mp hs
    obtain ⟨s', hx, rfl⟩ := Option.map_eq_some_iff.mp hs
    refine hI.server (e := .frame f flushed) (fun k hk => ?_) hx (.inr ⟨m, f, hm, hf, rfl⟩)
    have hsaid := (Agent.passed_prefix sys.agent).subset (List.mem_of_getElem? hm)
    obtain ⟨g, hg, hgk⟩ := hI.named m hsaid f hf k hk
    exact hI.lives.sent g (List.mem_of_mem_take hg) k hgk
  | toAgent data =>
    obtain ⟨f, hf, hs⟩ := Option.bind_eq_some_iff.mp hs
    obtain ⟨hc, hs⟩ := Option.ite_none_right_eq_some.mp hs
    obtain ⟨a', ha, rfl⟩ := Option.map_eq_some_iff.mp hs
    split at ha
    · have hcalm : Agent.Calm env.agent sys.agent (.reply data) :=
        ⟨by simp [Agent.Event.dial?], by simp [Agent.Event.opens?]⟩
      obtain ⟨new, hT⟩ := Agent.turns_reply hI.calm ha [f]
      exact hI.agent (hI.calm.next hcalm ha) hT (.inr ⟨f, hf, rfl⟩)
    · obtain ⟨new, hT⟩ := Agent.turns_message hI.calm ha hc fun k payload he => by
        subst he
        exact hI.fresh_current hf
      exact hI.agent (hI.calm.next (hI.calm_message hf hc) ha) hT (.inr ⟨f, hf, rfl⟩)

theorem inv (h : Reach (ofFn (step env)) Orderly (Starts env) sys) : Inv env sys :=
  h.invariant (fun _ hs => inv_start hs) fun _ _ _ _ hI hok hs => hI.step hok hs

end Sys

end UpTunnel.Python
