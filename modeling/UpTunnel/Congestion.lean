import UpTunnel.Server.Flow
import UpTunnel.Client.Flow

/-!
# UpTunnel.Congestion

Whether every stream flows again after congestion. `maybeResume` resumes a stream only if it was
paused for credit, so one that was paused by congestion alone stays paused for good.

* `Caused`: a paused socket has a cause; kept by everything but the end of congestion.
* `not_flowing`: one congested stream and one `clearCongestion` are enough to hang it.
* `flowing_of_paused_for_credit`: nothing else hangs a stream, at the server or at the agent.
-/

namespace UpTunnel

open Js Hub

/-! ## Causes -/

structure Caused (c l : Bool) (g : Gate) : Prop where
  global : l = true → g.pausedGlobally = c
  cleared : c = false → g.pausedGlobally = false
  cause : g.pausedGlobally = false → g.paused = true → g.pausedForCredit = true
  credit : g.pausedGlobally = false → g.pausedForCredit = true → g.sendCredit ≤ 0

namespace Caused

variable {c l : Bool} {g : Gate}

theorem congest (h : Caused false true g) : Caused true true (g.setGlobalPause true) := by
  have hg := h.cleared rfl
  simp only [Gate.setGlobalPause, hg, Bool.false_eq_true, if_false, if_true]
  exact ⟨fun _ => rfl, by simp, by simp, by simp⟩

theorem congestUnlisted (h : Caused false false g) : Caused true false g :=
  ⟨by simp, by simp, h.cause, h.credit⟩

theorem unlist (h : Caused c true g) : Caused c false g :=
  ⟨by simp, h.cleared, h.cause, h.credit⟩

/-- Credit has come, or congestion has ended; either way `maybeResume` runs. -/
theorem maybeResume (hg : l = true → g.pausedGlobally = c) (hcl : c = false → g.pausedGlobally = false)
    (hcause : g.pausedGlobally = false → g.paused = true → g.pausedForCredit = true) :
    Caused c l g.maybeResume := by
  unfold Gate.maybeResume
  split
  · rename_i h1
    refine ⟨hg, hcl, hcause, fun h2 _ => ?_⟩
    simpa [h2] using h1
  · split
    · rename_i h2
      refine ⟨hg, hcl, hcause, fun _ h3 => ?_⟩
      simp [h3] at h2
    · exact ⟨hg, hcl, by simp, by simp⟩

theorem onAck (h : Caused c l g) (n : Nat) : Caused c l (g.onAck n) :=
  maybeResume h.global h.cleared h.cause

theorem onSourceData (h : Caused c l g) (chunk : Bytes) : Caused c l (g.onSourceData chunk) := by
  unfold Gate.onSourceData
  dsimp only
  split
  · rename_i h1
    simp only [Bool.and_eq_true, decide_eq_true_eq] at h1
    exact ⟨h.global, h.cleared, fun _ _ => rfl, fun _ _ => h1.1⟩
  · refine ⟨h.global, h.cleared, h.cause, fun h1 h2 => ?_⟩
    have := h.credit h1 h2
    simp only
    omega

/-- The end of congestion, for a stream that was paused for credit as well. -/
theorem clear (h : Caused true true g) (hp : g.paused = true → g.pausedForCredit = true) :
    Caused false true (g.setGlobalPause false) := by
  have hg := h.global rfl
  simp only [Gate.setGlobalPause, hg, Bool.true_eq_false, if_false, Bool.false_eq_true]
  exact maybeResume (fun _ => rfl) (fun _ => rfl) (fun _ => hp)

theorem clearUnlisted (h : Caused true false g) (hg : g.pausedGlobally = false) : Caused false false g :=
  ⟨by simp, fun _ => hg, h.cause, h.credit⟩

end Caused

/-! ## The server -/

namespace AgentSession

/-- Every stream in the table that has credit flows, unless the session is congested. -/
def Flowing (s : AgentSession) : Prop :=
  ∀ a st, s.objs[a]? = some st → s.listed a = true → st.finished = false →
    s.wire.congested = false → 0 < st.sendCredit → st.socket.paused = false

/-- Where congestion ends, every stream that is paused was paused for credit. -/
def ClearsCredited (env : WireEnv) (s : AgentSession) : Event → Prop
  | .poll buffered => (s.wire.closed = true ∨ (buffered : Int) ≤ env.wsMaxBuffered / 2) →
      s.wire.congested = true → ∀ a st, s.objs[a]? = some st → s.listed a = true → st.finished = false →
        st.socket.paused = true → st.pausedForCredit = true
  | _ => True

variable {env : WireEnv} {streamWindow : Int}

/-- `openStream` ends in `socket.resume()`. -/
theorem setUp_caused {c : Ctx} {preread : Bytes} (hl : c.listed = true) (hf : c.self.finished = false)
    (he : c.self.sentEof = false) (hg : c.self.pausedGlobally = false) (hp : c.self.pausedForCredit = false) :
    Caused (setUp env preread c).wire.congested true (setUp env preread c).self.gate := by
  let c1 : Ctx := if c.wire.congested then { c with self := c.self.setGlobalPause true } else c
  have h1 : c1.wire = c.wire ∧ c1.listed = true ∧ c1.self.finished = false ∧ c1.self.sentEof = false ∧
      c1.self.pausedForCredit = false ∧ c1.self.pausedGlobally = c.wire.congested := by
    simp only [c1]
    cases hc : c.wire.congested with
    | false => simp [hl, hf, he, hp, hg]
    | true => simp [Endpoint.setGlobalPause, Endpoint.pause, hl, hf, he, hp, hg]
  obtain ⟨hw, hl1, hf1, he1, hp1, hg1⟩ := h1
  -- up to the pause of the socket, which is about to be undone
  have key : ∀ c2 : Ctx, Caused c2.wire.congested true { c2.self.gate with paused := false } →
      Caused c2.wire.congested true c2.self.resume.gate := fun _ h => h
  show Caused (if preread.length > 0 then Stream.writePreread env c1 preread else c1).wire.congested true
    (if preread.length > 0 then Stream.writePreread env c1 preread else c1).self.resume.gate
  have h2 : Caused c1.wire.congested true { c1.self.gate with paused := false } :=
    ⟨fun _ => by rw [hw]; exact hg1, fun h => by rw [hw] at h; exact hg1.trans h, by simp,
      fun _ h => by simp [Endpoint.gate, hp1] at h⟩
  split
  · rename_i hne
    have hwp : Stream.writePreread env c1 preread = c1.onSourceData env preread := by
      simp [Stream.writePreread, Stream.onSocketData, Nat.pos_iff_ne_zero.mp hne]
    rw [hwp]
    obtain ⟨c2, hq, hw2, hf2, hg2⟩ := Ctx.onSourceData_gate env preread hf1 he1
    refine key _ ?_
    rw [← hw2, hg2, hq.gate hf2]
    have hmono := hq.congested
    have h3 : Caused c2.wire.congested true { (if c1.started c2 then c1.self.gate.setGlobalPause true
        else c1.self.gate : Gate) with paused := false } := by
      cases h4 : c1.wire.congested <;> cases h5 : c2.wire.congested
      · simpa [Ctx.started, h4, h5] using h2
      · have h6 : c1.self.gate.pausedGlobally = false := hg1.trans (hw ▸ h4)
        simp only [Ctx.started, h4, h5, hl1, Bool.not_false, Bool.and_self, if_true, Gate.setGlobalPause, h6]
        exact ⟨fun _ => rfl, by simp, by simp, by simp⟩
      · simp [hmono h4] at h5
      · simpa [Ctx.started, h4, h5] using h2
    have h4 := h3.onSourceData preread
    have h5 : ∀ g : Gate, { ({ g with paused := false } : Gate).onSourceData preread with paused := false } =
        ({ g.onSourceData preread with paused := false } : Gate) := by
      intro g
      unfold Gate.onSourceData
      dsimp only
      split <;> rfl
    rw [← h5]
    exact ⟨h4.global, h4.cleared, by simp, h4.credit⟩
  · exact key c1 h2

theorem step_caused {s s' : AgentSession} {e : Event} (hA : All (OnTable (Caused · true)) s.toHub)
    (hok : ClearsCredited env s e) (hs : step env streamWindow s e = some s') :
    All (OnTable (Caused · true)) s'.toHub := by
  refine step_keeps (fun g hg => hg.congest) (fun c g n hg => hg.onAck n) (fun c g chunk _ hg => ?_)
    hA (fun tunnelId remoteAddr chunks id _ _ => ?_) (fun a st he hc hst hl hf hg => ?_) hs
  · refine ⟨hg.onSourceData chunk, fun hc => ?_⟩
    subst hc
    exact hg.congest.onSourceData chunk
  · exact setUp_caused rfl rfl rfl rfl rfl
  · obtain ⟨buffered, rfl, hb⟩ := he
    exact hg.clear fun hp => hok hb hc a st hst hl hf hp

theorem flowing {s : AgentSession}
    (hr : Lts.Reach (Lts.ofFn (step env streamWindow)) (ClearsCredited env) (· = new) s) : s.Flowing := by
  have hA : All (OnTable (Caused · true)) s.toHub := by
    refine hr.invariant (I := fun s => All (OnTable (Caused · true)) s.toHub) ?_ ?_
    · rintro s rfl a t ht
      simp [new] at ht
    · intro s e s' _ hA hok hs
      exact step_caused hA hok hs
  intro a st hst hl hf hc hcr
  have hh := hA a st hst hl hf
  have hg := hh.cleared hc
  by_contra hp
  have h1 := hh.credit hg (hh.cause hg ((Bool.not_eq_false _).mp hp))
  simp only [Endpoint.gate] at h1
  omega

end AgentSession

/-! ## The agent -/

/-- A stream that still dials. -/
structure Waiting (c l : Bool) (g : Gate) : Prop where
  global : l = true → g.pausedGlobally = c
  cleared : c = false → g.pausedGlobally = false
  credit : g.pausedForCredit = false

namespace Waiting

variable {c l : Bool} {g : Gate}

theorem congest (h : Waiting false true g) : Waiting true true (g.setGlobalPause true) := by
  have hg := h.cleared rfl
  simp only [Gate.setGlobalPause, hg, Bool.false_eq_true, if_false, if_true]
  exact ⟨fun _ => rfl, by simp, h.credit⟩

theorem maybeResume (h : Waiting c l g) : Waiting c l g.maybeResume := by
  have hc := h.credit
  unfold Gate.maybeResume
  simpa [hc] using h

theorem clear (h : Waiting true true g) : Waiting false true (g.setGlobalPause false) := by
  have hg := h.global rfl
  simp only [Gate.setGlobalPause, hg, Bool.true_eq_false, if_false, Bool.false_eq_true]
  exact maybeResume ⟨fun _ => rfl, fun _ => rfl, h.credit⟩

end Waiting

namespace Agent

/-- Why the gate of an attached or a dialling stream is as it is. -/
def PauseCaused (k c l : Bool) (g : Gate) : Prop := if k then Caused c l g else Waiting c l g

theorem gateLaw_pauseCaused : GateLaw PauseCaused where
  congest k g h := by cases k <;> exact h.congest
  congestUnlisted k g h := by
    cases k with
    | true => exact Caused.congestUnlisted h
    | false => exact ⟨by simp, by simp, Waiting.credit h⟩
  unlist k c g h := by
    cases k with
    | true => exact Caused.unlist h
    | false => exact ⟨by simp, Waiting.cleared h, Waiting.credit h⟩
  onAck k c l g n h := by
    cases k with
    | true => exact Caused.onAck h n
    | false =>
      have hw : Waiting c l g := h
      exact Waiting.maybeResume ⟨hw.global, hw.cleared, hw.credit⟩
  onSourceData c l g chunk _ h := Caused.onSourceData h chunk
  congestData g chunk _ h := Caused.onSourceData (Caused.congest h) chunk
  attach c l g h := by
    have hw : Waiting c l g := h
    have hcr := hw.credit
    exact show Caused _ _ _ from ⟨hw.global, hw.cleared, by simp, fun _ hp => by simp [hcr] at hp⟩
  pause c l g hg h := by
    have hc : Caused c l g := h
    exact show Caused _ _ _ from ⟨hc.global, hc.cleared, fun h3 => by simp [hg] at h3, fun h3 => by simp [hg] at h3⟩

/-- Every stream that is attached and has credit flows, unless the agent is congested. -/
def Flowing (a : Agent) : Prop :=
  ∀ (x : Nat) (s : ClientStream), a.objs[x]? = some s → s.finished = false → s.connected = true →
    a.wire.congested = false → 0 < s.sendCredit → s.socket.paused = false

/-- No stream that another one of the same id has replaced in the table is still paused globally. -/
def NoneLeftPaused (a : Agent) : Prop :=
  ∀ (x : Nat) (s : ClientStream), a.objs[x]? = some s → s.finished = false → a.listed x = false →
    s.pausedGlobally = false

/-- Where congestion ends, every stream that is paused was paused for credit. -/
def ClearsCredited (env : WireEnv) (a : Agent) : Event → Prop
  | .poll buffered => (a.wire.closed = true ∨ (buffered : Int) ≤ env.wsMaxBuffered / 2) →
      a.wire.congested = true → a.NoneLeftPaused ∧
        ∀ (x : Nat) (s : ClientStream), a.objs[x]? = some s → s.finished = false → a.listed x = true →
          s.connected = true → s.socket.paused = true → s.pausedForCredit = true
  | .teardown => a.wire.congested = true → a.NoneLeftPaused
  | .frame .. => a.handshook = false → a.wire.congested = true → a.NoneLeftPaused
  | _ => True

section
variable {env : WireEnv} {specs : List TunnelSpec} {a a' : Agent}

theorem step_caused {e : Event} (hA : All (OnGate PauseCaused) a.toHub) (hok : ClearsCredited env a e)
    (hs : step env specs a e = some a') : All (OnGate PauseCaused) a'.toHub := by
  refine step_keeps gateLaw_pauseCaused hA (fun _ => ?_) (fun buffered he hb hc x s hx hf hl hp => ?_)
    (fun he hc x s hx hf hl hp => ?_) hs
  · exact ⟨fun _ => rfl, fun _ => rfl, rfl⟩
  · subst he
    cases hk : s.connected with
    | true =>
      rw [hk] at hp
      exact Caused.clear hp fun h => (hok hb hc).2 x s hx hf hl hk h
    | false =>
      rw [hk] at hp
      exact Waiting.clear hp
  · have hg : s.pausedGlobally = false := by
      cases e with
      | poll => exact (hok he hc).1 x s hx hf hl
      | teardown => exact hok hc x s hx hf hl
      | frame => exact hok he hc x s hx hf hl
      | _ => exact he.elim
    cases hk : s.connected with
    | true =>
      rw [hk] at hp
      exact Caused.clearUnlisted hp hg
    | false =>
      rw [hk] at hp
      exact ⟨by simp, fun _ => hg, Waiting.credit hp⟩

theorem flowing (hr : Lts.Reach (Lts.ofFn (step env specs)) (ClearsCredited env) (· = new) a) : a.Flowing := by
  have hA : All (OnGate PauseCaused) a.toHub := by
    refine hr.invariant (I := fun a => All (OnGate PauseCaused) a.toHub) ?_ ?_
    · rintro a rfl x t ht
      simp [new] at ht
    · intro a e a' _ hA hok hs
      exact step_caused hA hok hs
  intro x s hs hf hcon hc hcr
  have hh := hA x s hs hf
  rw [hcon] at hh
  have hh : Caused a.wire.congested (a.listed x) s.toEndpoint.gate := hh
  have hg := hh.cleared hc
  by_contra hp
  have h1 := hh.credit hg (hh.cause hg ((Bool.not_eq_false _).mp hp))
  simp only [Endpoint.gate] at h1
  omega

end

end Agent

/-- In every run in which the streams that are paused when congestion ends were all paused for
credit as well, no stream with credit is paused, at the server and at the agent. -/
theorem flowing_of_paused_for_credit {env env' : WireEnv} {streamWindow : Int} {specs : List TunnelSpec}
    {s : AgentSession} {a : Agent}
    (hs : Lts.Reach (Lts.ofFn (AgentSession.step env streamWindow)) (AgentSession.ClearsCredited env)
      (· = AgentSession.new) s)
    (ha : Lts.Reach (Lts.ofFn (Agent.step env' specs)) (Agent.ClearsCredited env') (· = Agent.new) a) :
    s.Flowing ∧ a.Flowing :=
  ⟨AgentSession.flowing hs, Agent.flowing ha⟩

/-- Its second frame fills the WebSocket. -/
def brimming : WireEnv := ⟨100, fun n => if n = 2 then 1000 else 0⟩

/-- The byte that congests the session is also the last of the window; an acknowledgement comes before
the session clears. -/
theorem flowing_of_paused_for_credit_acked : ∃ (s : AgentSession) (st : Stream),
    Lts.Reach (Lts.ofFn (AgentSession.step brimming 1)) (AgentSession.ClearsCredited brimming)
      (· = AgentSession.new) s ∧ s.objs[0]? = some st ∧ st.socket.paused = false := by
  let es : List AgentSession.Event :=
    [.accept "t" "r" [], .data 0 [7], .frame (.stream FrameType.streamAck 1 (u32be 4)) true]
  have hq : ((Lts.exec (AgentSession.step brimming 1) AgentSession.new es).map fun s =>
      s.objs.all (·.pausedForCredit)) = some true := by decide
  obtain ⟨s1, hs1, hall⟩ := Option.map_eq_some_iff.mp hq
  have h1 : Lts.Reach (Lts.ofFn (AgentSession.step brimming 1)) (AgentSession.ClearsCredited brimming)
      (· = AgentSession.new) s1 := Lts.Reach.exec (.start rfl) (by simp [es, AgentSession.ClearsCredited]) hs1
  have hq2 : (((Lts.exec (AgentSession.step brimming 1) AgentSession.new (es ++ [.poll 0])).bind fun s =>
      if s.listed 0 && !s.wire.congested then s.objs[0]? else none).map
      fun st => (st.finished, decide (0 < st.sendCredit))) = some (false, true) := by decide
  obtain ⟨st, hst, hv⟩ := Option.map_eq_some_iff.mp hq2
  obtain ⟨s, hs, hst⟩ := Option.bind_eq_some_iff.mp hst
  rw [Option.ite_none_right_eq_some] at hst
  rw [Lts.exec_append, hs1, Option.bind_some, Lts.exec] at hs
  obtain ⟨s2, hs2, hs3⟩ := Option.bind_eq_some_iff.mp hs
  cases hs3
  have hok : AgentSession.ClearsCredited brimming s1 (.poll 0) := fun _ _ a st hst _ _ _ =>
    List.all_eq_true.mp hall st (List.mem_of_getElem? hst)
  have hr := h1.next hok hs2
  have hc : s.listed 0 = true ∧ s.wire.congested = false := by simpa using hst.1
  simp only [Prod.mk.injEq, decide_eq_true_eq] at hv
  have ha : Lts.Reach (Lts.ofFn (Agent.step brimming [])) (Agent.ClearsCredited brimming) (· = Agent.new)
      Agent.new := .start rfl
  exact ⟨s, st, hr, hst.2, (flowing_of_paused_for_credit hr ha).1 0 st hst.2 hc.1 hv.1 hc.2 hv.2⟩

/-- One byte from a public socket congests the session; when that has cleared, the stream has credit
left and its socket is still paused. -/
theorem not_flowing :
    ¬ ((∀ (env : WireEnv) (streamWindow : Int) (s : AgentSession),
        Lts.Reachable (Lts.ofFn (AgentSession.step env streamWindow)) (· = AgentSession.new) s → s.Flowing) ∧
      ∀ (env : WireEnv) (specs : List TunnelSpec) (a : Agent),
        Lts.Reachable (Lts.ofFn (Agent.step env specs)) (· = Agent.new) a → a.Flowing) := by
  rintro ⟨h, -⟩
  have hq : ((Lts.exec (AgentSession.step brimming 4) AgentSession.new
      [.accept "t" "r" [], .data 0 [7], .poll 0]).bind fun s =>
        if s.listed 0 && !s.wire.congested then s.objs[0]? else none).map
      (fun st => (st.finished, decide (0 < st.sendCredit), st.socket.paused)) = some (false, true, true) := by
    decide
  obtain ⟨st, hst, hv⟩ := Option.map_eq_some_iff.mp hq
  obtain ⟨s, hs, hst⟩ := Option.bind_eq_some_iff.mp hst
  rw [Option.ite_none_right_eq_some] at hst
  simp only [Prod.mk.injEq, decide_eq_true_eq] at hv
  have hr : Lts.Reachable (Lts.ofFn (AgentSession.step brimming 4)) (· = AgentSession.new) s :=
    Lts.Reachable.exec (.start rfl) hs
  have hc : s.listed 0 = true ∧ s.wire.congested = false := by simpa using hst.1
  have hp := h brimming 4 s hr 0 st hst.2 hc.1 hv.1 hc.2 hv.2.1
  simp [hp] at hv

end UpTunnel
