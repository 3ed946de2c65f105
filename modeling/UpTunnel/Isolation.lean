import UpTunnel.Client.Flow
import UpTunnel.Client.Sessions
import UpTunnel.Lib.Reach
import UpTunnel.Link.Turn

/-!
# UpTunnel.Isolation

What an event of one WebSocket of the agent does to the sessions of the others.

* `Agent.address_speaks`, `Agent.listed_speaks`: an event of one stream makes only that stream send.
* `AgentRun.Inv`: one session at most is not settled, `this.ws` is its WebSocket, and every stream that is not
  finished was made in it. `Inv.step`: every step keeps it, unless a frame comes in late or an id is used twice.
* `sessions_isolated`: so a session that has settled does nothing any more, and frames stay in the session that their
  stream was made in. `not_isolated`: neither holds of every run.
-/

namespace UpTunnel

open Js Hub StreamObj EndView

/-! ## Who sends a frame -/

section
variable {α : Type} [EndView α] {h h' : Hub α} {a : Nat} {s : α} {i : List Frame}

/-- What went to `peer.send` between `w` and `w'` are frames of the stream `s`, which is not finished if there are
any. -/
def Speaks (s : α) (w w' : Wire) : Prop :=
  ∃ fs, w.Does w' fs ∧ Names (base s).id fs ∧ ((base s).finished = true → fs = [])

theorem Acted.speaks {s s' : α} {w w' : Wire} {fs : List Frame} (h : Acted s s' w w' i fs) : Speaks s w w' :=
  ⟨fs, h.wire, h.names, h.silent⟩

theorem Speaks.call {m : α → Wire → Bool → α × Wire} {s1 : α} (hs : h.objs[a]? = some s1)
    (hA : ∀ l, ∃ fs, Acted s (m s1 h.wire l).1 h.wire (m s1 h.wire l).2 i fs) :
    Speaks s h.wire (h.call a m).wire := by
  obtain ⟨fs, hA⟩ := hA (h.listed a)
  simp only [Hub.call, hs]
  exact hA.speaks

theorem Speaks.run {m : α → Wire → Bool → Except JsError (α × Wire)} {s1 : α} (hs : h.objs[a]? = some s1)
    (hA : ∀ l r, m s1 h.wire l = .ok r → ∃ fs, Acted s r.1 h.wire r.2 i fs) (hr : h.run a m = .ok h') :
    Speaks s h.wire h'.wire := by
  simp only [Hub.run, hs] at hr
  obtain ⟨r, hm, rfl⟩ := map_ok.mp hr
  obtain ⟨fs, hA⟩ := hA _ _ hm
  exact hA.speaks

end

namespace Agent

variable {env : WireEnv} {specs : List TunnelSpec} {a a' : Agent} {h h' : Hub ClientStream} {x : Nat}

/-- Only the stream that an event is about sends anything. -/
theorem address_speaks (hseen : ∀ (x : Nat) (c : ClientStream), a.objs[x]? = some c → ∃ e, ClientStream.View c e)
    {e : Event} (he : e.address? = some x) (hs : step env specs a e = some a') :
    ∃ c, a.objs[x]? = some c ∧ Speaks c a.wire a'.wire := by
  cases e with
  | frame | teardown | poll | notOpen => cases he
  | dialed y flushed =>
    cases he
    simp only [step] at hs
    split at hs
    · rename_i hd
      obtain ⟨h1, hx, rfl⟩ := Option.map_eq_some_iff.mp hs
      cases hc : a.objs[x]? with
      | none => simp [dialling, hc] at hd
      | some c =>
        simp only [dialling, hc, Option.any_some, Bool.not_eq_true'] at hd
        refine ⟨c, rfl, Speaks.run (i := []) hc (fun l r hm => ?_) (toOption_eq_some.mp hx)⟩
        obtain ⟨c', hc', rfl⟩ := map_ok.mp hm
        exact ClientStream.attach_acted (c := ⟨c, a.wire, l⟩) hd (hseen x c hc) hc'
    · cases hs
  | dialFailed y message =>
    cases he
    simp only [step] at hs
    split at hs
    · rename_i hd
      cases hs
      cases hc : a.objs[x]? with
      | none => simp [dialling, hc] at hd
      | some c =>
        exact ⟨c, rfl, Speaks.call (i := []) hc fun l =>
          ClientStream.dialFailed_acted (c := ⟨c, a.wire, l⟩) message⟩
    · cases hs
  | data y chunk =>
    cases he
    obtain ⟨h1, hh, rfl⟩ := Option.map_eq_some_iff.mp hs
    obtain ⟨c, k, hc, hconn, hk, hself, -, -, -⟩ := onSocket_some hh
    refine ⟨c, hc, ?_⟩
    rw [← onSocket_wire hh]
    refine Speaks.call (i := []) hself fun l => ?_
    split at hk
    · rename_i hread
      cases hk
      simp only [Socket.canRead, Bool.and_eq_true, Bool.not_eq_true'] at hread
      obtain ⟨fs, hn, hw, hm⟩ := Ctx.data_moved env (c := ⟨c.toEndpoint, h1.wire, l⟩) chunk hread.1.2
      exact ⟨fs, ClientStream.acted_of_moved rfl hn hw hm fun h2 => by simp [hconn] at h2⟩
    · cases hk
  | «end» y =>
    cases he
    obtain ⟨h1, hh, rfl⟩ := Option.map_eq_some_iff.mp hs
    obtain ⟨c, k, hc, hconn, hk, hself, -, -, -⟩ := onSocket_some hh
    refine ⟨c, hc, ?_⟩
    rw [← onSocket_wire hh]
    refine Speaks.call (i := []) hself fun l => ?_
    split at hk
    · cases hk
      obtain ⟨fs, hn, hw, hm⟩ := Ctx.end_moved env (c := ⟨c.toEndpoint, h1.wire, l⟩)
      exact ⟨fs, ClientStream.acted_of_moved rfl hn hw hm fun h2 => by simp [hconn] at h2⟩
    · cases hk
  | drain y =>
    cases he
    obtain ⟨h1, hh, hs1⟩ := Option.bind_eq_some_iff.mp hs
    obtain ⟨h2, hx, rfl⟩ := Option.map_eq_some_iff.mp hs1
    obtain ⟨c, k, hc, hconn, hk, hself, -, -, -⟩ := onSocket_some hh
    refine ⟨c, hc, ?_⟩
    rw [← onSocket_wire hh]
    refine Speaks.run (i := []) hself (fun l r hm => ?_) (toOption_eq_some.mp hx)
    split at hk
    · cases hk
      obtain ⟨c', hc', rfl⟩ := map_ok.mp hm
      exact ClientStream.onDrain_acted (c := ⟨c, h1.wire, l⟩) hconn hc'
    · cases hk
  | error y =>
    cases he
    obtain ⟨h1, hh, rfl⟩ := Option.map_eq_some_iff.mp hs
    obtain ⟨c, k, hc, hconn, hk, hself, -, -, -⟩ := onSocket_some hh
    cases hk
    refine ⟨c, hc, ?_⟩
    rw [← onSocket_wire hh]
    refine Speaks.call (i := []) hself fun l => ?_
    obtain ⟨fs, hn, hw, hm⟩ := Ctx.destroy_moved env (c := ⟨c.toEndpoint, h1.wire, l⟩) "local_error" []
      (fun _ => rfl) (by simp)
    exact ⟨fs, ClientStream.acted_of_moved rfl hn hw hm fun h2 => by simp [hconn] at h2⟩
  | close y =>
    cases he
    obtain ⟨h1, hh, rfl⟩ := Option.map_eq_some_iff.mp hs
    obtain ⟨c, k, hc, hconn, hk, hself, -, -, -⟩ := onSocket_some hh
    cases hk
    refine ⟨c, hc, ?_⟩
    rw [← onSocket_wire hh]
    refine Speaks.call (i := []) hself fun l => ?_
    obtain ⟨hm, hw⟩ := Ctx.close_moved (c := ⟨c.toEndpoint, h1.wire, l⟩)
    exact ⟨[], ClientStream.acted_of_moved rfl (.nil _) hw hm fun h2 => by simp [hconn] at h2⟩

/-- A frame for a stream of the table makes only that stream send. -/
theorem listed_speaks (hT : h.TableOk) {type id : Nat} {payload : Bytes} {flushed : Bool}
    (hx : h.streams.lookup id = some x) (hs : handleStreamFrame env h type id payload flushed = .ok h') :
    ∃ c, h.objs[x]? = some c ∧ Speaks c h.wire h'.wire := by
  obtain ⟨c, hc, rfl, hf⟩ := (hT id x).mp hx
  change c.finished = false at hf
  refine ⟨c, hc, ?_⟩
  unfold handleStreamFrame at hs
  simp only [hx] at hs
  split at hs
  · refine Speaks.run (i := [.data c.id payload]) hc (fun l r hm => ?_) hs
    obtain ⟨c', hc', rfl⟩ := map_ok.mp hm
    exact ClientStream.onData_acted (c := ⟨c, _, l⟩) hf hc'
  · split at hs
    · refine Speaks.run (i := [.stream FrameType.streamEof c.id payload]) hc (fun l r hm => ?_) hs
      obtain ⟨c', hc', rfl⟩ := map_ok.mp hm
      exact ClientStream.onEof_acted (c := ⟨c, _, l⟩) hf hc'
    · have still : Speaks c h.wire h.wire := ⟨[], .refl _, .nil _, fun _ => rfl⟩
      split at hs
      · cases hs
        split
        · simp only [Hub.call, hc]
          exact still
        · exact still
      · split at hs
        · cases hs
          refine Speaks.call (i := [.stream FrameType.streamReset c.id payload]) hc fun l => ?_
          obtain ⟨fs, hn, hw, hm⟩ := Ctx.destroy_moved env (c := ⟨c.toEndpoint, h.wire, l⟩) "peer_reset"
            [.stream FrameType.streamReset c.id payload] (fun h1 => by simp [hf] at h1) (by simp [msgs_singleton])
          exact ⟨fs, ClientStream.acted_of_moved rfl hn hw hm fun _ hfin => by
            simp [Ctx.destroy_finished] at hfin⟩
        · cases hs
          exact still

end Agent

/-! ## What a method does to the streams and to `ws` -/

/-- The streams are still the same, and `fs` was sent. -/
structure Goes (h h' : Hub ClientStream) (fs : List Frame) : Prop where
  objs : ∃ f : Nat → ClientStream → ClientStream, (∀ b, h'.objs[b]? = h.objs[b]?.map (f b)) ∧
    ∀ b c, h.objs[b]? = some c →
      c.toEndpoint.Kept (f b c).toEndpoint ∧ ∀ e, ClientStream.View c e → ∃ e', ClientStream.View (f b c) e'
  table : h'.TableOk
  sent : h'.wire.sent = h.wire.sent ++ h.wire.passed fs

namespace Goes

variable {h h' : Hub ClientStream} {fs : List Frame}

theorem of_turn {f : Nat → ClientStream → ClientStream} {ins gs : List Frame} (ht : Turn h h' f ins gs)
    (hs : h'.wire.sent = h.wire.sent ++ h.wire.passed fs) : Goes h h' fs where
  objs := ⟨f, ht.objs, fun b c hc => ⟨ht.kept b c hc, fun e he => by
    obtain ⟨e', he', -⟩ := ht.view b c hc e he
    exact ⟨e', he'⟩⟩⟩
  table := ht.table
  sent := hs

theorem of_still (hT : h.TableOk) (hst : Still h h' fs) : Goes h h' fs := by
  obtain ⟨f, h1, h2⟩ := hst.objs
  exact ⟨⟨f, h1, fun b c _ => ⟨(h2 b c).kept, fun e he => ⟨e, (h2 b c).view e he⟩⟩⟩, hst.table hT, hst.wire.sent⟩

theorem length (hg : Goes h h' fs) : h'.objs.length = h.objs.length := by
  obtain ⟨f, hf, -⟩ := hg.objs
  have key : ∀ b, h'.objs.length ≤ b ↔ h.objs.length ≤ b := by
    intro b
    rw [← List.getElem?_eq_none_iff, ← List.getElem?_eq_none_iff, hf, Option.map_eq_none_iff]
  exact le_antisymm ((key _).mpr le_rfl) ((key _).mp le_rfl)

end Goes

namespace Agent

variable {env : WireEnv} {specs : List TunnelSpec} {a a' : Agent}

/-- A teardown sends nothing. -/
theorem teardownSession_goes (env : WireEnv) (hT : a.toHub.TableOk) :
    Goes a.toHub (a.teardownSession env).toHub [] := by
  obtain ⟨f, fs, hf⟩ : ∃ f fs, Turn a.toHub (a.teardownSession env).toHub f [] fs := teardownSession_turn hT
  refine .of_turn hf ?_
  have hm : ∀ (c : ClientStream) (l : Bool),
      method (fun c => ClientStream.destroy env c "peer_reset") c a.toHub.clearCongestion.wire l =
        ({ c with toEndpoint := c.toEndpoint.aborted }, a.toHub.clearCongestion.wire) := by
    intro c l
    simp [method, ClientStream.destroy, ClientCtx.put, ClientCtx.base, Ctx.destroy_silent]
  obtain ⟨h1, -⟩ := foldl_call (f := fun c : ClientStream => { c with toEndpoint := c.toEndpoint.aborted }) hm
    (fun c => by simp [Endpoint.aborted_aborted]) a.toHub.clearCongestion.streams.values rfl
  simp only [teardownSession]
  rw [h1, wire_clearCongestion]
  simp

end Agent

/-! ## The invariant -/

namespace AgentRun

variable {env : RunEnv} {s s' : AgentRun}

/-- Where a frame that went out in session `k`, which is `x`, came from: a stream that was made in that session, or
the agent itself, which names a stream only to refuse one that a frame of the session has named. -/
def FromHere (s : AgentRun) (k : Nat) (x : ClientSession) : Option Nat × Frame → Prop
  | (some a, f) => ∃ c, s.agent.objs[a]? = some c ∧ f.streamId? = some c.id ∧ s.origin[a]? = some k
  | (none, f) => ∀ id, f.streamId? = some id →
      ∃ code type payload, f = .reset id code ∧ .stream type id payload ∈ x.received

structure Inv (s : AgentRun) : Prop where
  table : s.agent.toHub.TableOk
  seen : ∀ (a : Nat) (c : ClientStream), s.agent.objs[a]? = some c → ∃ e, ClientStream.View c e
  origin : s.origin.length = s.agent.objs.length
  /-- At most one session is not settled, and `this.ws` is its WebSocket. -/
  current : ∀ k, s.ws = some k ↔ ∃ x, s.sessions[k]? = some x ∧ x.settled = false
  /-- A stream that is not finished was made in the session that is not settled. -/
  home : ∀ (a : Nat) (c : ClientStream), s.agent.objs[a]? = some c → c.finished = false →
    ∃ k, s.ws = some k ∧ s.origin[a]? = some k
  logs : ∀ k x, s.sessions[k]? = some x → ∀ p ∈ x.sent, s.FromHere k x p
  opened : ∀ (a k : Nat), s.origin[a]? = some k → ∃ c x payload, s.agent.objs[a]? = some c ∧
    s.sessions[k]? = some x ∧ .stream FrameType.streamOpen c.id payload ∈ x.received
  quiet : ∀ (k : Nat) (x : ClientSession), s.sessions[k]? = some x → x.settled = true →
    x.ping = false ∧ x.pongArmed = false

theorem getElem?_update (s : AgentRun) (k j : Nat) (f : ClientSession → ClientSession) :
    (s.update k f).sessions[j]? = if j = k then s.sessions[j]?.map f else s.sessions[j]? := by
  simp only [update, List.getElem?_modify, eq_comm (a := k)]
  cases s.sessions[j]? <;> split <;> rfl

/-- What has gone to `this.ws` since `s`. -/
theorem getElem?_commit (s : AgentRun) (source : Option Nat) (a : Agent) (j : Nat) :
    (s.commit source a).sessions[j]? = s.sessions[j]?.map fun x =>
      if s.ws = some j then
        { x with sent := x.sent ++ (a.wire.sent.drop s.agent.wire.sent.length).map (source, ·) }
      else x := by
  unfold commit
  cases hw : s.ws with
  | none => simp
  | some k =>
    simp only [Option.elim, List.getElem?_modify, Option.some.injEq]
    cases s.sessions[j]? <;> simp

theorem FromHere.mono {k : Nat} {x x' : ClientSession} {p : Option Nat × Frame} (h : s.FromHere k x p)
    (ho : ∀ (a : Nat) c, s.agent.objs[a]? = some c → ∃ c', s'.agent.objs[a]? = some c' ∧ c'.id = c.id)
    (horigin : ∀ (a j : Nat), s.origin[a]? = some j → s'.origin[a]? = some j)
    (hr : ∀ f ∈ x.received, f ∈ x'.received) : s'.FromHere k x' p := by
  obtain ⟨source, f⟩ := p
  cases source with
  | none =>
    intro id hid
    obtain ⟨code, type, payload, he, hm⟩ := h id hid
    exact ⟨code, type, payload, he, hr _ hm⟩
  | some a =>
    obtain ⟨c, hc, hid, hk⟩ := h
    obtain ⟨c', hc', he⟩ := ho a c hc
    exact ⟨c', hc', by rw [hid, he], horigin a k hk⟩

/-- A change of the variables of one session, by which the session is not settled and no stream sends. -/
theorem Inv.update (h : s.Inv) (k : Nat) {f : ClientSession → ClientSession}
    (hsettled : ∀ x, (f x).settled = x.settled) (hr : ∀ x, ∀ g ∈ x.received, g ∈ (f x).received)
    (hsent : ∀ x, ∀ p ∈ (f x).sent, p ∈ x.sent ∨ p.1 = none ∧ p.2.streamId? = none)
    (hquiet : ∀ x, s.sessions[k]? = some x → x.settled = true → x.ping = false → x.pongArmed = false →
      (f x).ping = false ∧ (f x).pongArmed = false) : (s.update k f).Inv where
  table := h.table
  seen := h.seen
  origin := h.origin
  current j := by
    refine (h.current j).trans ?_
    rw [getElem?_update]
    split
    · constructor
      · rintro ⟨x, hx, h1⟩
        exact ⟨f x, by rw [hx]; rfl, (hsettled x).trans h1⟩
      · rintro ⟨y, hy, h1⟩
        obtain ⟨x, hx, rfl⟩ := Option.map_eq_some_iff.mp hy
        exact ⟨x, hx, (hsettled x).symm.trans h1⟩
    · exact Iff.rfl
  home := h.home
  logs j y hy p hp := by
    rw [getElem?_update] at hy
    split at hy
    · obtain ⟨x, hx, rfl⟩ := Option.map_eq_some_iff.mp hy
      rcases hsent x p hp with hp | ⟨h1, h2⟩
      · exact (h.logs j x hx p hp).mono (fun _ c hc => ⟨c, hc, rfl⟩) (fun _ _ ho => ho) (hr x)
      · obtain ⟨source, g⟩ := p
        cases h1
        intro id hid
        rw [h2] at hid
        cases hid
    · exact h.logs j y hy p hp
  opened a j hj := by
    obtain ⟨c, x, payload, hc, hx, hm⟩ := h.opened a j hj
    refine ⟨c, if j = k then f x else x, payload, hc, ?_, ?_⟩
    · rw [getElem?_update]
      split
      · rw [hx]
        rfl
      · exact hx
    · split
      · exact hr x _ hm
      · exact hm
  quiet j y hy h1 := by
    rw [getElem?_update] at hy
    split at hy
    · rename_i hjk
      obtain ⟨x, hx, rfl⟩ := Option.map_eq_some_iff.mp hy
      have hx' := h.quiet j x hx ((hsettled x).symm.trans h1)
      exact hquiet x (hjk ▸ hx) ((hsettled x).symm.trans h1) hx'.1 hx'.2
    · exact h.quiet j y hy h1

/-- The frames that a method has sent are new in the session of `this.ws`. -/
theorem sent_of_goes {a : Agent} {fs : List Frame} (hg : Goes s.view.toHub a.toHub fs) :
    a.wire.sent.drop s.agent.wire.sent.length = s.view.wire.passed fs := by
  rw [show a.wire.sent = s.agent.wire.sent ++ s.view.wire.passed fs from hg.sent, List.drop_left]

theorem mem_passed {w : Wire} {fs : List Frame} {g : Frame} (h : g ∈ w.passed fs) : g ∈ fs := by
  unfold Wire.passed at h
  split at h
  · exact h
  · cases h

/-- A method that makes no stream. -/
theorem Inv.commit (h : s.Inv) (source : Option Nat) {a : Agent} {fs : List Frame} (hg : Goes s.view.toHub a.toHub fs)
    (hfs : ∀ k x, s.ws = some k → s.sessions[k]? = some x → ∀ g ∈ fs, s.FromHere k x (source, g)) :
    (s.commit source a).Inv := by
  obtain ⟨f, hf, hk⟩ := hg.objs
  change ∀ b, a.objs[b]? = s.agent.objs[b]?.map (f b) at hf
  have ho : ∀ (b : Nat) c, s.agent.objs[b]? = some c → ∃ c', a.objs[b]? = some c' ∧ c'.id = c.id :=
    fun b c hc => ⟨f b c, by rw [hf, hc]; rfl, (hk b c hc).1.id⟩
  refine ⟨hg.table, ?_, h.origin.trans hg.length.symm, ?_, ?_, ?_, ?_, ?_⟩
  · intro b c hc
    obtain ⟨c0, hc0, rfl⟩ := Option.map_eq_some_iff.mp ((hf b).symm.trans hc)
    obtain ⟨e, he⟩ := h.seen b c0 hc0
    exact (hk b c0 hc0).2 e he
  · intro j
    refine (h.current j).trans ?_
    rw [getElem?_commit]
    constructor
    · rintro ⟨x, hx, h1⟩
      rw [hx]
      exact ⟨_, rfl, by split <;> exact h1⟩
    · rintro ⟨y, hy, h1⟩
      obtain ⟨x, hx, rfl⟩ := Option.map_eq_some_iff.mp hy
      refine ⟨x, hx, ?_⟩
      split at h1 <;> exact h1
  · intro b c hc hfin
    obtain ⟨c0, hc0, rfl⟩ := Option.map_eq_some_iff.mp ((hf b).symm.trans hc)
    refine h.home b c0 hc0 ?_
    cases hf0 : c0.finished with
    | false => rfl
    | true =>
      rw [(hk b c0 hc0).1.finished hf0] at hfin
      cases hfin
  · intro j y hy p hp
    rw [getElem?_commit] at hy
    obtain ⟨x, hx, rfl⟩ := Option.map_eq_some_iff.mp hy
    split at hp
    · rename_i hj
      rw [if_pos hj]
      rcases List.mem_append.mp hp with hp | hp
      · exact (h.logs j x hx p hp).mono ho (fun _ _ ho => ho) fun _ hr => hr
      · rw [sent_of_goes hg] at hp
        obtain ⟨g, hgm, rfl⟩ := List.mem_map.mp hp
        exact (hfs j x hj hx g (mem_passed hgm)).mono ho (fun _ _ ho => ho) fun _ hr => hr
    · rename_i hj
      rw [if_neg hj]
      exact (h.logs j x hx p hp).mono ho (fun _ _ ho => ho) fun _ hr => hr
  · intro b j hj
    obtain ⟨c, x, payload, hc, hx, hm⟩ := h.opened b j hj
    obtain ⟨c', hc', hid⟩ := ho b c hc
    refine ⟨c', _, payload, hc', by rw [getElem?_commit, hx]; rfl, ?_⟩
    rw [hid]
    split <;> exact hm
  · intro j y hy h1
    rw [getElem?_commit] at hy
    obtain ⟨x, hx, rfl⟩ := Option.map_eq_some_iff.mp hy
    split at h1 <;> rename_i hj
    · rw [if_pos hj]
      exact h.quiet j x hx h1
    · rw [if_neg hj]
      exact h.quiet j x hx h1

theorem view_hear (s : AgentRun) (k : Nat) (f : Frame) : (s.hear k f).view =
    { s.view with toHub := { s.view.toHub with wire := { s.view.wire with
      received := s.view.wire.received ++ [f] } } } := by
  have hopen : ((s.hear k f).ws.bind ((s.hear k f).sessions[·]?)).any (·.readyState = .open) =
      (s.ws.bind (s.sessions[·]?)).any (·.readyState = .open) := by
    show (s.ws.bind fun j => (s.update k fun x => { x with received := x.received ++ [f] }).sessions[j]?).any _ = _
    cases s.ws with
    | none => rfl
    | some j =>
      simp only [Option.bind_some, getElem?_update]
      cases s.sessions[j]? <;> split <;> rfl
  unfold view
  rw [hopen]
  rfl

/-- A frame has arrived. -/
theorem Inv.hear (h : s.Inv) (k : Nat) (f : Frame) : (s.hear k f).Inv := by
  have hu : (s.update k fun x => { x with received := x.received ++ [f] }).Inv :=
    h.update k (fun _ => rfl) (fun _ _ hg => List.mem_append_left _ hg) (fun _ _ hp => .inl hp)
      fun _ _ _ h1 h2 => ⟨h1, h2⟩
  exact ⟨hu.table, hu.seen, hu.origin, hu.current, hu.home, hu.logs, hu.opened, hu.quiet⟩

/-- The session is over; if it is the first time, the streams of the agent are, too. -/
theorem Inv.finish (h : s.Inv) {k : Nat} {x : ClientSession} (hx : s.sessions[k]? = some x) (auth : Bool) :
    (s.finish env k auth).Inv := by
  unfold AgentRun.finish
  rw [hx, Option.any_some]
  split
  · exact h
  · rename_i hsettled
    have hw : s.ws = some k := (h.current k).mpr ⟨x, hx, (Bool.not_eq_true _).mp hsettled⟩
    let s1 := s.update k fun x =>
      { x with settled := true, ping := false, pongArmed := false, handshakeTimer := false }
    have hg : Goes s1.view.toHub (s1.view.teardownSession env.wire).toHub [] := Agent.teardownSession_goes _ h.table
    have hempty : (s1.view.teardownSession env.wire).streams = ∅ := rfl
    have hsess : ∀ j : Nat, (s1.commit none (s1.view.teardownSession env.wire)).sessions[j]? = s1.sessions[j]? := by
      intro j
      rw [getElem?_commit, sent_of_goes hg, Wire.passed_nil]
      cases s1.sessions[j]? <;> simp
    have hs1 : ∀ j : Nat, s1.sessions[j]? = if j = k then s.sessions[j]?.map fun x =>
        { x with settled := true, ping := false, pongArmed := false, handshakeTimer := false } else s.sessions[j]? :=
      fun j => getElem?_update s k j _
    obtain ⟨f, hf, hk⟩ := hg.objs
    have ho : ∀ (b : Nat) c, s.agent.objs[b]? = some c →
        ∃ c', (s1.view.teardownSession env.wire).objs[b]? = some c' ∧ c'.id = c.id :=
      fun b c hc => ⟨f b c, (hf b).trans (congrArg (Option.map (f b)) hc), (hk b c hc).1.id⟩
    have hset : ∀ (j : Nat) y, s1.sessions[j]? = some y → y.settled = true := by
      intro j y hy
      rw [hs1] at hy
      split at hy
      · obtain ⟨z, -, rfl⟩ := Option.map_eq_some_iff.mp hy
        rfl
      · rename_i hj
        cases hys : y.settled with
        | true => rfl
        | false => exact absurd (Option.some.inj (((h.current j).mpr ⟨y, hy, hys⟩).symm.trans hw)) hj
    refine ⟨hg.table, ?_, h.origin.trans hg.length.symm, ?_, ?_, ?_, ?_, ?_⟩
    · intro b c hc
      obtain ⟨c0, hc0, rfl⟩ := Option.map_eq_some_iff.mp ((hf b).symm.trans hc)
      obtain ⟨e, he⟩ := h.seen b c0 hc0
      exact (hk b c0 hc0).2 e he
    · intro j
      refine iff_of_false (by simp [teardownSession]) ?_
      rintro ⟨y, hy, h1⟩
      rw [hset j y ((hsess j).symm.trans hy)] at h1
      cases h1
    · intro b c hc hfin
      have hl := (hg.table c.id b).mpr ⟨c, hc, rfl, hfin⟩
      rw [hempty] at hl
      cases hl
    · intro j y hy p hp
      have hy := (hsess j).symm.trans hy
      rw [hs1] at hy
      split at hy
      · obtain ⟨z, hz, rfl⟩ := Option.map_eq_some_iff.mp hy
        exact (h.logs j z hz p hp).mono ho (fun _ _ ho => ho) fun _ hr => hr
      · exact (h.logs j y hy p hp).mono ho (fun _ _ ho => ho) fun _ hr => hr
    · intro b j hj
      obtain ⟨c, z, payload, hc, hz, hm⟩ := h.opened b j hj
      obtain ⟨c', hc', hid⟩ := ho b c hc
      obtain ⟨z', hz', hr⟩ : ∃ z', s1.sessions[j]? = some z' ∧ z'.received = z.received := by
        rw [hs1, hz]
        split
        · exact ⟨_, rfl, rfl⟩
        · exact ⟨_, rfl, rfl⟩
      refine ⟨c', z', payload, hc', (hsess j).trans hz', ?_⟩
      rw [hid, hr]
      exact hm
    · intro j y hy _
      have hy := (hsess j).symm.trans hy
      rw [hs1] at hy
      split at hy
      · obtain ⟨z, -, rfl⟩ := Option.map_eq_some_iff.mp hy
        exact ⟨rfl, rfl⟩
      · rename_i hj
        exact h.quiet j y hy (hset j y (by rw [hs1, if_neg hj]; exact hy))

/-! ## Messages -/

/-- The `message` listener acts on the fields of the agent, where `handshook` says whether the handshake is over. -/
def acts (handshook : Bool) : Frame → Bool
  | .control type _ =>
    if handshook then type = FrameType.tunnelOk || type = FrameType.error else type = FrameType.helloOk
  | .stream .. => handshook

/-- A frame that the listener acts on comes in after its session has settled. -/
def Event.Late (s : AgentRun) : Event → Prop
  | .message k data isBinary _ => isBinary = true ∧ ∃ x f, s.sessions[k]? = some x ∧ x.settled = true ∧
      decodeFrame data = .ok f ∧ acts x.handshook f = true
  | _ => False

/-- A STREAM_OPEN that makes a stream under an id that another has in the table. -/
def Event.Reopens (s : AgentRun) : Event → Prop
  | .message k data isBinary _ => isBinary = true ∧ ∃ x id payload tunnelId, s.sessions[k]? = some x ∧
      x.handshook = true ∧ decodeFrame data = .ok (.stream FrameType.streamOpen id payload) ∧
      (streamFrameJson payload).strOr "tunnelId" "" = .ok tunnelId ∧
      s.agent.tunnels.lookup tunnelId ≠ none ∧ s.agent.streams.lookup id ≠ none
  | _ => False

def Apart (s : AgentRun) (e : Event) : Prop := ¬ e.Late s ∧ ¬ e.Reopens s

/-- A STREAM_OPEN for a known tunnel with an id that is in the table. -/
def reopens (s : AgentRun) : Frame → Bool
  | .control .. => false
  | .stream type id payload =>
    type = FrameType.streamOpen && (s.agent.streams.lookup id).isSome &&
      ((streamFrameJson payload).strOr "tunnelId" "").toOption.any fun tunnelId =>
        (s.agent.tunnels.lookup tunnelId).isSome

theorem reopens_iff {s : AgentRun} {f : Frame} : s.reopens f = true ↔ ∃ id payload tunnelId,
    f = .stream FrameType.streamOpen id payload ∧ (streamFrameJson payload).strOr "tunnelId" "" = .ok tunnelId ∧
      s.agent.tunnels.lookup tunnelId ≠ none ∧ s.agent.streams.lookup id ≠ none := by
  cases f with
  | control type body => simp [reopens]
  | stream type id payload =>
    simp only [reopens, Bool.and_eq_true, decide_eq_true_eq, Option.any_eq_true, toOption_eq_some,
      Option.isSome_iff_ne_none, Frame.stream.injEq]
    constructor
    · rintro ⟨⟨rfl, hid⟩, tunnelId, ht, hl⟩
      exact ⟨id, payload, tunnelId, ⟨rfl, rfl, rfl⟩, ht, hl, hid⟩
    · rintro ⟨_, _, tunnelId, ⟨rfl, rfl, rfl⟩, ht, hl, hid⟩
      exact ⟨⟨rfl, hid⟩, tunnelId, ht, hl⟩

instance (s : AgentRun) : ∀ e : Event, Decidable (e.Late s)
  | .message k data isBinary _ =>
    decidable_of_iff (isBinary = true ∧ ∃ x ∈ s.sessions[k]?, x.settled = true ∧
      ∃ f ∈ (decodeFrame data).toOption, acts x.handshook f = true) (by
        simp only [Event.Late, Option.mem_def, toOption_eq_some, exists_and_left])
  | .connect | .stop | .local _ | .poll _ | .open _ | .pong _ | .error _ | .close _ _ | .closing _
  | .handshakeTimeout _ | .pingTick _ | .pongTimeout _ => inferInstanceAs (Decidable False)

instance (s : AgentRun) : ∀ e : Event, Decidable (e.Reopens s)
  | .message k data isBinary _ =>
    decidable_of_iff (isBinary = true ∧ ∃ x ∈ s.sessions[k]?, x.handshook = true ∧
      ∃ f ∈ (decodeFrame data).toOption, s.reopens f = true) (by
        simp only [Event.Reopens, Option.mem_def, toOption_eq_some, reopens_iff]
        refine and_congr_right fun _ => exists_congr fun x => ?_
        constructor
        · rintro ⟨hx, hh, _, hf, id, payload, tunnelId, rfl, ht, hl, hid⟩
          exact ⟨id, payload, tunnelId, hx, hh, hf, ht, hl, hid⟩
        · rintro ⟨id, payload, tunnelId, hx, hh, hf, ht, hl, hid⟩
          exact ⟨hx, hh, _, hf, id, payload, tunnelId, rfl, ht, hl, hid⟩)
  | .connect | .stop | .local _ | .poll _ | .open _ | .pong _ | .error _ | .close _ _ | .closing _
  | .handshakeTimeout _ | .pingTick _ | .pongTimeout _ => inferInstanceAs (Decidable False)

instance (s : AgentRun) (e : Event) : Decidable (s.Apart e) := inferInstanceAs (Decidable (_ ∧ _))

/-- A new stream. -/
theorem Inv.insert (h : s.Inv) {k id : Nat} {x : ClientSession} {payload : Bytes} {c : ClientStream}
    (hx : s.sessions[k]? = some x) (hw : s.ws = some k)
    (hrec : .stream FrameType.streamOpen id payload ∈ x.received) (hn : s.agent.streams.lookup id = none)
    (hid : c.id = id) (hfin : c.finished = false) (hview : ∃ e, ClientStream.View c e) :
    ((s.commit none { s.view with toHub := s.view.toHub.insert id c }).claim k).Inv := by
  have hsess : ∀ j : Nat, (s.commit none { s.view with toHub := s.view.toHub.insert id c }).sessions[j]? =
      s.sessions[j]? := by
    intro j
    have hd : (s.view.toHub.insert id c).wire.sent.drop s.agent.wire.sent.length = [] := List.drop_length
    rw [getElem?_commit, hd]
    cases s.sessions[j]? <;> simp
  have hlen : (s.agent.objs ++ [c]).length - s.origin.length = 1 := by
    rw [h.origin, List.length_append, List.length_singleton]
    omega
  have hobjs : ∀ b : Nat,
      (s.agent.objs ++ [c])[b]? = if b = s.agent.objs.length then some c else s.agent.objs[b]? := by
    intro b
    split
    · rename_i hb
      rw [hb, List.getElem?_concat_length]
    · rename_i hb
      rcases Nat.lt_or_gt_of_ne hb with hlt | hgt
      · rw [List.getElem?_append_left hlt]
      · rw [List.getElem?_eq_none (by simp; omega), List.getElem?_eq_none (by omega)]
  have horig : ∀ b : Nat, (s.origin ++ [k])[b]? = if b = s.agent.objs.length then some k else s.origin[b]? := by
    intro b
    rw [← h.origin]
    split
    · rename_i hb
      rw [hb, List.getElem?_concat_length]
    · rename_i hb
      rcases Nat.lt_or_gt_of_ne hb with hlt | hgt
      · rw [List.getElem?_append_left hlt]
      · rw [List.getElem?_eq_none (by simp; omega), List.getElem?_eq_none (by omega)]
  have hold : ∀ (b : Nat) c', s.agent.objs[b]? = some c' → b ≠ s.agent.objs.length := by
    rintro b c' hc rfl
    rw [List.getElem?_eq_none le_rfl] at hc
    cases hc
  have hclaim : (s.commit none { s.view with toHub := s.view.toHub.insert id c }).claim k =
      { s.commit none { s.view with toHub := s.view.toHub.insert id c } with origin := s.origin ++ [k] } := by
    show { s.commit none _ with
      origin := s.origin ++ List.replicate ((s.agent.objs ++ [c]).length - s.origin.length) k } = _
    rw [hlen]
    rfl
  have hmono : ∀ j y p, s.FromHere j y p →
      ({ s.commit none { s.view with toHub := s.view.toHub.insert id c } with
        origin := s.origin ++ [k] } : AgentRun).FromHere j y p := by
    refine fun j y p hp => hp.mono (fun b c' hc => ⟨c', ?_, rfl⟩) (fun b j' hb => ?_) fun _ hr => hr
    · exact (hobjs b).trans (by rw [if_neg (hold b c' hc)]; exact hc)
    · refine (horig b).trans ?_
      rw [if_neg ?_]
      · exact hb
      · rintro rfl
        rw [← h.origin, List.getElem?_eq_none le_rfl] at hb
        cases hb
  rw [hclaim]
  refine ⟨?_, ?_, ?_, ?_, ?_, ?_, ?_, ?_⟩
  · refine TableOk.insert (h := s.agent.toHub) (f := fun _ c => c) h.table (s := c) ?_ rfl ?_
      (fun _ t => .refl t) hid hfin
    · intro b t ht hbid
      cases htf : (base t).finished with
      | true => rfl
      | false =>
        rw [(h.table id b).mpr ⟨t, ht, hbid, htf⟩] at hn
        cases hn
    · intro b
      rw [Option.map_id']
      exact hobjs b
  · intro b c' hc
    have hc := (hobjs b).symm.trans hc
    split at hc
    · cases hc
      exact hview
    · exact h.seen b c' hc
  · show (s.origin ++ [k]).length = (s.agent.objs ++ [c]).length
    rw [List.length_append, List.length_append, h.origin]
    rfl
  · intro j
    refine (h.current j).trans ?_
    show _ ↔ ∃ y, (s.commit none _).sessions[j]? = some y ∧ _
    rw [hsess]
  · intro b c' hc hf
    have hc := (hobjs b).symm.trans hc
    refine ⟨k, hw, (horig b).trans ?_⟩
    split at hc
    · rename_i hb
      rw [if_pos hb]
    · rename_i hb
      rw [if_neg hb]
      obtain ⟨k', hk', ho⟩ := h.home b c' hc hf
      rw [hw] at hk'
      cases hk'
      exact ho
  · intro j y hy p hp
    exact hmono j y p (h.logs j y ((hsess j).symm.trans hy) p hp)
  · intro b j hj
    have hj := (horig b).symm.trans hj
    split at hj
    · rename_i hb
      cases hj
      exact ⟨c, x, payload, (hobjs b).trans (if_pos hb), (hsess k).trans hx, by rw [hid]; exact hrec⟩
    · obtain ⟨c', y, payload', hc, hy, hm⟩ := h.opened b j hj
      exact ⟨c', y, payload', (hobjs b).trans (by rw [if_neg (hold b c' hc)]; exact hc), (hsess j).trans hy, hm⟩
  · intro j y hy h1
    exact h.quiet j y ((hsess j).symm.trans hy) h1

theorem claim_eq (h : s.origin.length = s.agent.objs.length) (k : Nat) : s.claim k = s := by
  unfold claim
  rw [h, Nat.sub_self]
  simp

/-- A frame for a stream, but for STREAM_OPEN. -/
theorem handleStreamFrame_goes {h h' : Hub ClientStream} {type id : Nat} {payload : Bytes} {flushed : Bool}
    (hT : h.TableOk) (hs : Agent.handleStreamFrame env.wire
      { h with wire := { h.wire with received := h.wire.received ++ [.stream type id payload] } } type id payload
      flushed = .ok h') :
    ∃ fs, Goes h h' fs ∧
      ((∃ a c, h.streams.lookup id = some a ∧ h.objs[a]? = some c ∧
          ∀ g ∈ fs, g.streamId? = some c.id ∧ c.finished = false) ∨
        h.streams.lookup id = none ∧ ∀ g ∈ fs, g = .reset id "unknown_stream") := by
  cases hl : h.streams.lookup id with
  | some a =>
    obtain ⟨f, gs, ht⟩ := Agent.listed_turn hT hl hs
    obtain ⟨c, hc, fs, hd, hn, hsilent⟩ := Agent.listed_speaks
      (h := { h with wire := { h.wire with received := h.wire.received ++ [.stream type id payload] } }) hT hl hs
    refine ⟨fs, .of_turn ht hd.sent, .inl ⟨a, c, rfl, hc, fun g hg => ?_⟩⟩
    obtain ⟨t, p, rfl, -⟩ := hn g hg
    refine ⟨rfl, ?_⟩
    cases hf : c.finished with
    | false => rfl
    | true =>
      rw [hsilent hf] at hg
      cases hg
  | none =>
    simp only [Agent.handleStreamFrame, hl] at hs
    cases hs
    split
    · have hg := Goes.of_still (h := { h with wire := { h.wire with received := h.wire.received ++
        [.stream type id payload] } }) hT (.send env.wire _ (.reset id "unknown_stream"))
      exact ⟨_, ⟨hg.objs, hg.table, hg.sent⟩, .inr ⟨rfl, fun g hg => List.mem_singleton.mp hg⟩⟩
    · exact ⟨[], ⟨(Goes.of_still hT (.refl h)).objs, hT, by simp⟩, .inr ⟨rfl, by simp⟩⟩

theorem getElem?_hear (s : AgentRun) (k j : Nat) (f : Frame) : (s.hear k f).sessions[j]? =
    if j = k then s.sessions[j]?.map fun x => { x with received := x.received ++ [f] } else s.sessions[j]? :=
  getElem?_update s k j _

/-- A frame that the agent sends of its own accord to refuse a stream. -/
theorem FromHere.refused {k : Nat} {x : ClientSession} {type id : Nat} {payload : Bytes} (code : String)
    (h : .stream type id payload ∈ x.received) : s.FromHere k x (none, .reset id code) := by
  intro id' hid
  rw [Frame.streamId?_reset] at hid
  cases hid
  exact ⟨code, type, payload, rfl, h⟩

/-- A frame comes in where the handshake is over. -/
theorem Inv.onFrame (h : s.Inv) {k : Nat} {x : ClientSession} {f : Frame} {flushed : Bool} {a : Agent}
    (hx : s.sessions[k]? = some x) (hcur : acts true f = true → s.ws = some k)
    (hre : ∀ id payload tunnelId, f = .stream FrameType.streamOpen id payload →
      (streamFrameJson payload).strOr "tunnelId" "" = .ok tunnelId → s.agent.tunnels.lookup tunnelId ≠ none →
      s.agent.streams.lookup id = none)
    (ha : (s.hear k f).view.handleFrame env.wire flushed f = .ok a) :
    (((s.hear k f).commit ((s.hear k f).target f) a).claim k).Inv := by
  have h1 := h.hear k f
  have hx1 : (s.hear k f).sessions[k]? = some { x with received := x.received ++ [f] } := by
    rw [getElem?_hear, if_pos rfl, hx]
    rfl
  have hmem : f ∈ x.received ++ [f] := List.mem_append_right _ (List.mem_singleton_self f)
  -- No stream object is new, so there is nothing to claim.
  have keep : ∀ (source : Option Nat) {a : Agent} {fs : List Frame}, Goes (s.hear k f).view.toHub a.toHub fs →
      (∀ j y, (s.hear k f).ws = some j → (s.hear k f).sessions[j]? = some y →
        ∀ g ∈ fs, (s.hear k f).FromHere j y (source, g)) → (((s.hear k f).commit source a).claim k).Inv := by
    intro source a fs hg hfs
    have hi := h1.commit source hg hfs
    rwa [claim_eq hi.origin]
  cases f with
  | control type body =>
    obtain ⟨hh, -⟩ := Agent.handleFrame_control ha
    have hg : Goes (s.hear k (.control type body)).view.toHub a.toHub [] := by
      rw [hh]
      exact .of_still h1.table (.refl _)
    exact keep _ hg (by simp)
  | stream type id payload =>
    have hw : s.ws = some k := hcur rfl
    have hself : ∀ {j y}, (s.hear k (.stream type id payload)).ws = some j →
        (s.hear k (.stream type id payload)).sessions[j]? = some y →
        j = k ∧ .stream type id payload ∈ y.received := by
      intro j y hj hy
      cases (show s.ws = some j from hj).symm.trans hw
      cases hx1.symm.trans hy
      exact ⟨rfl, hmem⟩
    simp only [Agent.handleFrame] at ha
    split at ha
    · rename_i htype
      subst htype
      obtain ⟨tunnelId, ht, rfl⟩ := map_ok.mp ha
      have htarget : (s.hear k (.stream FrameType.streamOpen id payload)).target
          (.stream FrameType.streamOpen id payload) = none := by simp [target]
      rw [htarget]
      cases hl : s.agent.tunnels.lookup tunnelId with
      | none =>
        have hopen : (s.hear k (.stream FrameType.streamOpen id payload)).view.onStreamOpen env.wire id tunnelId =
            (s.hear k (.stream FrameType.streamOpen id payload)).view.toHub.send env.wire
              (.reset id "unknown_tunnel") := by
          have hl' : (s.hear k (.stream FrameType.streamOpen id payload)).view.tunnels.lookup tunnelId = none := hl
          rw [Agent.onStreamOpen, hl']
        rw [hopen]
        refine keep none (.of_still h1.table (.send env.wire _ _)) fun j y hj hy g hg => ?_
        rw [List.mem_singleton.mp hg]
        exact .refused _ (hself hj hy).2
      | some spec =>
        let c := ClientStream.new id spec s.agent.window
          (s.hear k (.stream FrameType.streamOpen id payload)).view.wire
        have hopen : (s.hear k (.stream FrameType.streamOpen id payload)).view.onStreamOpen env.wire id tunnelId =
            (s.hear k (.stream FrameType.streamOpen id payload)).view.toHub.insert id
              (if s.agent.wire.congested then c.setGlobalPause true else c) := by
          have hl' : (s.hear k (.stream FrameType.streamOpen id payload)).view.tunnels.lookup tunnelId =
            some spec := hl
          rw [Agent.onStreamOpen, hl']
          rfl
        have hv : ClientStream.View c (.fresh s.agent.window) := ClientStream.new_view ..
        rw [hopen]
        have hn := hre id payload tunnelId rfl ht (by rw [hl]; exact Option.some_ne_none _)
        refine h1.insert hx1 hw hmem hn ?_ ?_ ?_
        · split <;> rfl
        · split
          · exact (Endpoint.finished_setGlobalPause c.toEndpoint true).trans rfl
          · rfl
        · split
          · exact ⟨_, @EndView.view_pause ClientStream _ true c _ hv⟩
          · exact ⟨_, hv⟩
    · rename_i htype
      obtain ⟨hub, hh, rfl⟩ := map_ok.mp ha
      have htarget : (s.hear k (.stream type id payload)).target (.stream type id payload) =
          s.agent.streams.lookup id := by
        simp only [target, if_neg htype]
        rfl
      rw [htarget]
      rw [view_hear] at hh
      obtain ⟨fs, hg, hfs⟩ := handleStreamFrame_goes (h := s.view.toHub) h.table hh
      have hg' : Goes (s.hear k (.stream type id payload)).view.toHub hub fs := by
        rw [view_hear]
        exact ⟨hg.objs, hg.table, hg.sent⟩
      refine keep _ hg' fun j y hj hy g hgm => ?_
      obtain ⟨rfl, hrec⟩ := hself hj hy
      rcases hfs with ⟨b, c, hlb, hc, hfs⟩ | ⟨hln, hfs⟩
      · rw [show s.agent.streams.lookup id = some b from hlb]
        obtain ⟨hid, hfin⟩ := hfs g hgm
        obtain ⟨j', hj', ho⟩ := h.home b c hc hfin
        cases hj'.symm.trans hw
        exact ⟨c, hc, hid, ho⟩
      · rw [show s.agent.streams.lookup id = none from hln, hfs g hgm]
        exact .refused _ hrec

theorem handleHandshake_ok {a a' : Agent} {f : Frame} (h : a.handleHandshake f = .ok (.ok a')) :
    acts false f = true ∧ a'.toHub = a.toHub := by
  refine ⟨?_, Agent.handleHandshake_toHub h a' rfl⟩
  cases f with
  | stream type id payload => cases h
  | control type body =>
    simp only [Agent.handleHandshake] at h
    split at h
    · obtain ⟨_, -, h⟩ := bind_ok.mp h
      obtain ⟨_, -, h⟩ := bind_ok.mp h
      cases h
    · split at h
      · cases h
      · rename_i htype
        exact decide_eq_true (not_not.mp htype)

theorem Inv.onMessage (h : s.Inv) {k : Nat} {x : ClientSession} {f : Frame} {flushed : Bool}
    (hx : s.sessions[k]? = some x) (hlate : acts x.handshook f = true → x.settled = false)
    (hre : ∀ id payload tunnelId, x.handshook = true → f = .stream FrameType.streamOpen id payload →
      (streamFrameJson payload).strOr "tunnelId" "" = .ok tunnelId → s.agent.tunnels.lookup tunnelId ≠ none →
      s.agent.streams.lookup id = none)
    (hm : s.onMessage env k x f flushed = .ok s') : s'.Inv := by
  have hcur : acts x.handshook f = true → s.ws = some k := fun ha => (h.current k).mpr ⟨x, hx, hlate ha⟩
  unfold AgentRun.onMessage at hm
  dsimp only at hm
  split at hm
  · rename_i hh
    obtain ⟨a, ha, rfl⟩ := map_ok.mp hm
    exact h.onFrame hx (fun hacts => hcur (by rw [hh]; exact hacts)) (fun id payload t => hre id payload t hh) ha
  · rename_i hh
    have h1 := h.hear k f
    have hx1 : (s.hear k f).sessions[k]? = some { x with received := x.received ++ [f] } := by
      rw [getElem?_hear, if_pos rfl, hx]
      rfl
    obtain ⟨r, hr, rfl⟩ := map_ok.mp hm
    cases r with
    | error e =>
      have h2 := h1.update k (f := fun x => { x with readyState := x.readyState.close }) (fun _ => rfl)
        (fun _ _ hg => hg) (fun _ _ hp => .inl hp) fun _ _ _ h1 h2 => ⟨h1, h2⟩
      exact h2.finish (x := { x with received := x.received ++ [f], readyState := x.readyState.close })
        (by rw [getElem?_update, if_pos rfl, hx1]; rfl) e.isAuth
    | ok a =>
      obtain ⟨hacts, hhub⟩ := handleHandshake_ok hr
      have hw : s.ws = some k := hcur (by rw [(Bool.not_eq_true _).mp hh]; exact hacts)
      have hnone : ∀ {t : AgentRun} {fs : List Frame}, (∀ g ∈ fs, g.streamId? = none) → ∀ j y, t.ws = some j →
          t.sessions[j]? = some y → ∀ g ∈ fs, t.FromHere j y (none, g) := by
        intro t fs hfs j y _ _ g hg id hid
        rw [hfs g hg] at hid
        cases hid
      have hg : Goes (s.hear k f).view.toHub a.toHub [] := by
        rw [hhub]
        exact .of_still h1.table (.refl _)
      have h2 := h1.commit none hg (hnone (by simp))
      have h3 := h2.update k (f := fun x => { x with handshook := true, handshakeTimer := false }) (fun _ => rfl)
        (fun _ _ hg => hg) (fun _ _ hp => .inl hp) fun _ _ _ h1 h2 => ⟨h1, h2⟩
      obtain ⟨fs, hst, hfs, -⟩ := Agent.registerTunnels_still env.wire env.specs
        (((s.hear k f).commit none a).update k fun x => { x with handshook := true, handshakeTimer := false }).view
      have h4 := h3.commit none (.of_still h3.table hst) (hnone hfs)
      refine h4.update k (fun _ => rfl) (fun _ _ hg => hg) (fun _ _ hp => .inl hp) fun y hy hys _ h6 => ?_
      obtain ⟨z, hz, hzs⟩ := (h4.current k).mp hw
      cases hz.symm.trans hy
      rw [hys] at hzs
      cases hzs

/-! ## Steps -/

theorem inSession_some {k : Nat} {p : ClientSession → Bool} {f : ClientSession → Option AgentRun}
    (h : s.inSession k p f = some s') : ∃ x, s.sessions[k]? = some x ∧ p x = true ∧ f x = some s' := by
  obtain ⟨x, hx, h⟩ := Option.bind_eq_some_iff.mp h
  rw [Option.ite_none_right_eq_some] at h
  exact ⟨x, hx, h.1, h.2⟩

theorem start_inv : start.Inv where
  table k a := by simp [start, Agent.new]
  seen a c hc := by simp [start, Agent.new] at hc
  origin := rfl
  current k := by simp [start]
  home a c hc := by simp [start, Agent.new] at hc
  logs k x hx := by simp [start] at hx
  opened a k hk := by simp [start] at hk
  quiet k x hx := by simp [start] at hx

/-- A new session, where the ones before have settled. -/
theorem Inv.connect (h : s.Inv) (hall : s.sessions.any (!·.settled) = false) :
    ({ s with ws := some s.sessions.length, sessions := s.sessions ++ [ClientSession.new] } : AgentRun).Inv := by
  have hset : ∀ (j : Nat) x, s.sessions[j]? = some x → x.settled = true := by
    intro j x hx
    have := List.any_eq_false.mp hall x (List.mem_of_getElem? hx)
    simpa using this
  have hnone : s.ws = none := by
    cases hw : s.ws with
    | none => rfl
    | some k =>
      obtain ⟨x, hx, h1⟩ := (h.current k).mp hw
      rw [hset k x hx] at h1
      cases h1
  have hold : ∀ {j : Nat} {x}, s.sessions[j]? = some x → (s.sessions ++ [ClientSession.new])[j]? = some x := by
    intro j x hx
    rw [List.getElem?_append_left (List.getElem?_eq_some_iff.mp hx).1]
    exact hx
  have hcase : ∀ {j : Nat} {x}, (s.sessions ++ [ClientSession.new])[j]? = some x →
      s.sessions[j]? = some x ∨ j = s.sessions.length ∧ x = ClientSession.new := by
    intro j x hx
    rcases Nat.lt_or_ge j s.sessions.length with hlt | hge
    · rw [List.getElem?_append_left hlt] at hx
      exact .inl hx
    · rw [List.getElem?_append_right hge, List.getElem?_singleton] at hx
      split at hx
      · cases hx
        exact .inr ⟨by omega, rfl⟩
      · cases hx
  refine ⟨h.table, h.seen, h.origin, ?_, ?_, ?_, ?_, ?_⟩
  · intro j
    constructor
    · intro hj
      cases hj
      exact ⟨_, List.getElem?_concat_length, rfl⟩
    · rintro ⟨x, hx, h1⟩
      rcases hcase hx with hx | ⟨rfl, -⟩
      · rw [hset j x hx] at h1
        cases h1
      · rfl
  · intro a c hc hf
    obtain ⟨k, hk, -⟩ := h.home a c hc hf
    rw [hnone] at hk
    cases hk
  · intro j x hx p hp
    rcases hcase hx with hx | ⟨-, rfl⟩
    · exact (h.logs j x hx p hp).mono (fun _ c hc => ⟨c, hc, rfl⟩) (fun _ _ ho => ho) fun _ hr => hr
    · cases hp
  · intro a k hk
    obtain ⟨c, x, payload, hc, hx, hm⟩ := h.opened a k hk
    exact ⟨c, x, payload, hc, hold hx, hm⟩
  · intro j x hx h1
    rcases hcase hx with hx | ⟨-, rfl⟩
    · exact h.quiet j x hx h1
    · cases h1

/-- An event of a local socket or a dial. -/
theorem Inv.address (h : s.Inv) {e : Agent.Event} {b : Nat} {a : Agent} (he : e.address? = some b)
    (hs : s.view.step env.wire env.specs e = some a) : (s.commit (some b) a).Inv := by
  obtain ⟨c, hc, fs, hd, hn, hsilent⟩ := Agent.address_speaks (a := s.view) h.seen he hs
  obtain ⟨⟨f, ins, gs, ht, -⟩, -⟩ := Agent.step_turn (a := s.view) h.table h.seen
    (fun g flushed hf => by rw [hf] at he; cases he) hs
  refine h.commit (some b) (.of_turn ht hd.sent) fun k x hk hx g hg => ?_
  obtain ⟨type, payload, rfl, -⟩ := hn g hg
  have hfin : c.finished = false := by
    cases hf : c.finished with
    | false => rfl
    | true =>
      rw [hsilent hf] at hg
      cases hg
  obtain ⟨k', hk', ho⟩ := h.home b c hc hfin
  cases hk'.symm.trans hk
  exact ⟨c, hc, rfl, ho⟩

theorem Inv.step (h : s.Inv) {e : Event} (hap : s.Apart e) (hs : step env s e = some s') : s'.Inv := by
  -- Most events set variables of one session, and may then settle it.
  have set : ∀ (k : Nat) (f : ClientSession → ClientSession), (∀ x, (f x).settled = x.settled) →
      (∀ x, (f x).received = x.received) → (∀ x, (f x).sent = x.sent) →
      (∀ x, x.ping = false → (f x).ping = false) → (∀ x, x.ping = false → x.pongArmed = false →
        (f x).pongArmed = false) → (s.update k f).Inv := fun k f h1 h2 h3 h4 h5 =>
    h.update k h1 (fun x _ hg => by rw [h2]; exact hg) (fun x _ hp => by rw [h3] at hp; exact .inl hp)
      fun x _ _ hp hq => ⟨h4 x hp, h5 x hp hq⟩
  have setFinish : ∀ (k : Nat) (x : ClientSession) (f : ClientSession → ClientSession) (auth : Bool),
      s.sessions[k]? = some x → (s.update k f).Inv → ((s.update k f).finish env k auth).Inv :=
    fun k x f auth hx hi => hi.finish (x := f x) (by rw [getElem?_update, if_pos rfl, hx]; rfl) auth
  cases e with
  | connect =>
    simp only [AgentRun.step] at hs
    split at hs
    · cases hs
    · rename_i hc
      cases hs
      simp only [Bool.or_eq_true, not_or, Bool.not_eq_true] at hc
      exact h.connect hc.2
  | stop =>
    cases hs
    have h1 : ({ s with stopping := true } : AgentRun).Inv :=
      ⟨h.table, h.seen, h.origin, h.current, h.home, h.logs, h.opened, h.quiet⟩
    cases hw : s.ws with
    | none =>
      simp only [Option.elim]
      rw [hw] at h1
      exact h1
    | some k =>
      simp only [Option.elim]
      rw [hw] at h1
      exact h1.update k (fun _ => rfl) (fun _ _ hg => hg) (fun _ _ hp => .inl hp) fun _ _ _ h1 h2 => ⟨h1, h2⟩
  | «local» e =>
    obtain ⟨b, hb, hs⟩ := Option.bind_eq_some_iff.mp hs
    obtain ⟨a, ha, rfl⟩ := Option.map_eq_some_iff.mp hs
    exact h.address hb ha
  | poll buffered =>
    obtain ⟨a, ha, rfl⟩ := Option.map_eq_some_iff.mp hs
    simp only [Agent.step, Option.ite_none_right_eq_some, Option.some.injEq] at ha
    obtain ⟨-, rfl⟩ := ha
    have hg : Goes s.view.toHub (s.view.toHub.poll env.wire buffered) [] := .of_still h.table (.poll ..)
    exact h.commit none hg (by simp)
  | «open» k =>
    obtain ⟨x, hx, -, hs⟩ := inSession_some hs
    cases hs
    refine h.update k (fun _ => rfl) (fun _ _ hg => hg) (fun x p hp => ?_) fun _ _ _ h1 h2 => ⟨h1, h2⟩
    rcases List.mem_append.mp hp with hp | hp
    · exact .inl hp
    · rw [List.mem_singleton.mp hp]
      exact .inr ⟨rfl, rfl⟩
  | message k data isBinary flushed =>
    obtain ⟨x, hx, -, hs⟩ := inSession_some hs
    split at hs
    · cases hs
      exact h
    · rename_i hb
      have hb : isBinary = true := by simpa using hb
      split at hs
      · cases hs
        exact h
      · rename_i f hf
        refine h.onMessage hx (fun hacts => ?_) (fun id payload tunnelId hh he ht hl => ?_) (toOption_eq_some.mp hs)
        · cases hset : x.settled with
          | false => rfl
          | true => exact absurd ⟨hb, x, f, hx, hset, hf, hacts⟩ hap.1
        · by_contra hne
          exact hap.2 ⟨hb, x, id, payload, tunnelId, hx, hh, by rw [hf, he], ht, hl, hne⟩
  | pong k =>
    obtain ⟨x, hx, -, hs⟩ := inSession_some hs
    cases hs
    exact set k _ (fun _ => rfl) (fun _ => rfl) (fun _ => rfl) (fun _ h => h) fun _ _ _ => rfl
  | error k =>
    obtain ⟨x, hx, -, hs⟩ := inSession_some hs
    cases hs
    exact setFinish k x _ _ hx (set k _ (fun _ => rfl) (fun _ => rfl) (fun _ => rfl) (fun _ h => h) fun _ _ h => h)
  | close k code =>
    obtain ⟨x, hx, -, hs⟩ := inSession_some hs
    cases hs
    exact setFinish k x _ _ hx (set k _ (fun _ => rfl) (fun _ => rfl) (fun _ => rfl) (fun _ h => h) fun _ _ h => h)
  | closing k =>
    obtain ⟨x, hx, -, hs⟩ := inSession_some hs
    cases hs
    exact set k _ (fun _ => rfl) (fun _ => rfl) (fun _ => rfl) (fun _ h => h) fun _ _ h => h
  | handshakeTimeout k =>
    obtain ⟨x, hx, -, hs⟩ := inSession_some hs
    cases hs
    have h1 : (s.update k fun x => { x with handshakeTimer := false }).Inv :=
      set k _ (fun _ => rfl) (fun _ => rfl) (fun _ => rfl) (fun _ h => h) fun _ _ h => h
    split
    · exact h1
    · have h2 := h1.update k (f := fun x => { x with readyState := x.readyState.close }) (fun _ => rfl)
        (fun _ _ hg => hg) (fun _ _ hp => .inl hp) fun _ _ _ h1 h2 => ⟨h1, h2⟩
      refine h2.finish (x := { x with handshakeTimer := false, readyState := x.readyState.close }) ?_ false
      rw [getElem?_update, if_pos rfl, getElem?_update, if_pos rfl, hx]
      rfl
  | pingTick k =>
    obtain ⟨x, hx, hping, hs⟩ := inSession_some hs
    cases hs
    refine h.update k (fun x => ?_) (fun x g hg => ?_) (fun x p hp => .inl ?_) fun y hy _ hp _ => ?_
    · split <;> rfl
    · split <;> exact hg
    · split at hp <;> exact hp
    · cases hx.symm.trans hy
      rw [hping] at hp
      cases hp
  | pongTimeout k =>
    obtain ⟨x, hx, -, hs⟩ := inSession_some hs
    cases hs
    exact set k _ (fun _ => rfl) (fun _ => rfl) (fun _ => rfl) (fun _ h => h) fun _ _ _ => rfl

/-! ## Isolation -/

/-- Nothing of the agent, and nothing of another session, has changed by an event of session `k`; nor do its pings
start. -/
structure Untouched (s s' : AgentRun) (k : Nat) : Prop where
  streams : s'.agent.streams = s.agent.streams
  objs : s'.agent.objs = s.agent.objs
  tunnels : s'.agent.tunnels = s.agent.tunnels
  pending : s'.agent.pending = s.agent.pending
  window : s'.agent.window = s.agent.window
  ws : s'.ws = s.ws
  others : ∀ j, j ≠ k → s'.sessions[j]? = s.sessions[j]?
  ping : ∀ x ∈ s'.sessions[k]?, x.ping = false

/-- Every frame for a stream that went out in a session comes from a stream that a STREAM_OPEN made in that session,
or is the refusal of a stream that a frame of that session has named. -/
def Homegrown (s : AgentRun) : Prop :=
  ∀ (k : Nat) (x : ClientSession), s.sessions[k]? = some x →
    ∀ source f, (source, f) ∈ x.sent → ∀ id, f.streamId? = some id →
    (∃ (a : Nat) (payload : Bytes), source = some a ∧ s.origin[a]? = some k ∧
      .stream FrameType.streamOpen id payload ∈ x.received) ∨
    source = none ∧ ∃ code type payload, f = .reset id code ∧ .stream type id payload ∈ x.received

theorem finish_settled {k : Nat} {x : ClientSession} (hx : s.sessions[k]? = some x) (h : x.settled = true)
    (auth : Bool) : s.finish env k auth = s := by
  unfold finish
  rw [hx, Option.any_some, if_pos h]

theorem Untouched.update {k : Nat} (f : ClientSession → ClientSession)
    (hp : ∀ x, s.sessions[k]? = some x → (f x).ping = false) : s.Untouched (s.update k f) k where
  streams := rfl
  objs := rfl
  tunnels := rfl
  pending := rfl
  window := rfl
  ws := rfl
  others j hj := by rw [getElem?_update, if_neg hj]
  ping y hy := by
    rw [getElem?_update, if_pos rfl] at hy
    obtain ⟨x, hx, rfl⟩ := Option.map_eq_some_iff.mp hy
    exact hp x hx

theorem Inv.untouched (h : s.Inv) {e : Event} {k : Nat} {x : ClientSession} (he : e.session? = some k)
    (hx : s.sessions[k]? = some x) (hset : x.settled = true) (hap : s.Apart e)
    (hs : AgentRun.step env s e = some s') : s.Untouched s' k := by
  obtain ⟨hping, hpong⟩ := h.quiet k x hx hset
  have set : ∀ (f : ClientSession → ClientSession), (∀ x, (f x).ping = x.ping) → s.Untouched (s.update k f) k :=
    fun f hf => .update f fun y hy => by
      cases hx.symm.trans hy
      rw [hf, hping]
  have done : ∀ (f : ClientSession → ClientSession) (auth : Bool), (∀ x, (f x).settled = x.settled) →
      (∀ x, (f x).ping = x.ping) → s.Untouched ((s.update k f).finish env k auth) k := by
    intro f auth hf hp
    rw [finish_settled (x := f x) (by rw [getElem?_update, if_pos rfl, hx]; rfl) ((hf x).trans hset)]
    exact set f hp
  have same : s.Untouched s k := ⟨rfl, rfl, rfl, rfl, rfl, rfl, fun _ _ => rfl, fun y hy => by
    cases hx.symm.trans hy
    exact hping⟩
  cases e with
  | connect | stop | «local» | poll => cases he
  | «open» j =>
    cases he
    obtain ⟨y, hy, -, hs⟩ := inSession_some hs
    cases hs
    exact set _ fun _ => rfl
  | message j data isBinary flushed =>
    cases he
    obtain ⟨y, hy, -, hs⟩ := inSession_some hs
    cases hx.symm.trans hy
    split at hs
    · cases hs
      exact same
    · rename_i hb
      have hb : isBinary = true := by simpa using hb
      split at hs
      · cases hs
        exact same
      · rename_i f hf
        have hacts : acts x.handshook f = false := by
          by_contra hacts
          exact hap.1 ⟨hb, x, f, hx, hset, hf, (Bool.not_eq_false _).mp hacts⟩
        have hheard : s.Untouched (s.hear k f) k := by
          have hu := set (fun x => { x with received := x.received ++ [f] }) fun _ => rfl
          exact ⟨rfl, rfl, rfl, rfl, rfl, rfl, hu.others, hu.ping⟩
        have hs := toOption_eq_some.mp hs
        unfold AgentRun.onMessage at hs
        dsimp only at hs
        split at hs
        · rename_i hh
          obtain ⟨a, ha, rfl⟩ := map_ok.mp hs
          rw [hh] at hacts
          cases f with
          | stream type id payload => cases hacts
          | control type body =>
            simp only [acts, if_true, Bool.or_eq_false_iff, decide_eq_false_iff_not] at hacts
            simp only [Agent.handleFrame, if_neg hacts.1, if_neg hacts.2, Except.ok.injEq] at ha
            subst ha
            have hcommit : ∀ (source : Option Nat) (i : Nat),
                ((s.hear k (.control type body)).commit source (s.hear k (.control type body)).view).sessions[i]? =
                  (s.hear k (.control type body)).sessions[i]? := by
              intro source i
              have hd : (s.hear k (.control type body)).view.wire.sent.drop
                  (s.hear k (.control type body)).agent.wire.sent.length = [] := List.drop_length
              rw [getElem?_commit, hd]
              cases (s.hear k (.control type body)).sessions[i]? <;> simp
            exact ⟨rfl, rfl, rfl, rfl, rfl, rfl, fun i hi => (hcommit _ i).trans (hheard.others i hi),
              fun y hy => hheard.ping y ((hcommit _ k).symm.trans hy)⟩
        · rename_i hh
          obtain ⟨r, hr, rfl⟩ := map_ok.mp hs
          cases r with
          | ok a =>
            rw [(Bool.not_eq_true _).mp hh, (handleHandshake_ok hr).1] at hacts
            cases hacts
          | error err =>
            have hx1 : (s.hear k f).sessions[k]? = some { x with received := x.received ++ [f] } := by
              rw [getElem?_hear, if_pos rfl, hx]
              rfl
            obtain ⟨y, hy, hys⟩ : ∃ y, ((s.hear k f).update k fun x =>
                { x with readyState := x.readyState.close }).sessions[k]? = some y ∧ y.settled = true := by
              rw [getElem?_update, if_pos rfl, hx1]
              exact ⟨_, rfl, hset⟩
            show s.Untouched (AgentRun.finish env _ k err.isAuth) k
            rw [finish_settled hy hys]
            have hu : (s.hear k f).Untouched
                ((s.hear k f).update k fun x => { x with readyState := x.readyState.close }) k :=
              .update _ fun y hy => hheard.ping y hy
            exact ⟨rfl, rfl, rfl, rfl, rfl, rfl, fun i hi => (hu.others i hi).trans (hheard.others i hi), hu.ping⟩
  | pong j =>
    cases he
    obtain ⟨y, hy, -, hs⟩ := inSession_some hs
    cases hs
    exact set _ fun _ => rfl
  | error j =>
    cases he
    obtain ⟨y, hy, -, hs⟩ := inSession_some hs
    cases hs
    exact done _ _ (fun _ => rfl) fun _ => rfl
  | close j code =>
    cases he
    obtain ⟨y, hy, -, hs⟩ := inSession_some hs
    cases hs
    exact done _ _ (fun _ => rfl) fun _ => rfl
  | closing j =>
    cases he
    obtain ⟨y, hy, -, hs⟩ := inSession_some hs
    cases hs
    exact set _ fun _ => rfl
  | handshakeTimeout j =>
    cases he
    obtain ⟨y, hy, -, hs⟩ := inSession_some hs
    cases hx.symm.trans hy
    cases hs
    have h1 := set (fun x => { x with handshakeTimer := false }) fun _ => rfl
    split
    · exact h1
    · rw [finish_settled (x := { x with handshakeTimer := false, readyState := x.readyState.close })
        (by rw [getElem?_update, if_pos rfl, getElem?_update, if_pos rfl, hx]; rfl) hset]
      have h2 : (s.update k fun x => { x with handshakeTimer := false }).Untouched
          ((s.update k fun x => { x with handshakeTimer := false }).update k
            fun x => { x with readyState := x.readyState.close }) k := .update _ fun y hy => h1.ping y hy
      exact ⟨rfl, rfl, rfl, rfl, rfl, rfl, fun i hi => (h2.others i hi).trans (h1.others i hi), h2.ping⟩
  | pingTick j =>
    cases he
    obtain ⟨y, hy, hp, -⟩ := inSession_some hs
    cases hx.symm.trans hy
    rw [hping] at hp
    cases hp
  | pongTimeout j =>
    cases he
    obtain ⟨y, hy, hp, -⟩ := inSession_some hs
    cases hx.symm.trans hy
    rw [hpong] at hp
    cases hp

theorem Inv.homegrown (h : s.Inv) : s.Homegrown := by
  intro k x hx source f hp id hid
  have hfrom := h.logs k x hx (source, f) hp
  cases source with
  | none =>
    obtain ⟨code, type, payload, he, hr⟩ := hfrom id hid
    exact .inr ⟨rfl, code, type, payload, he, hr⟩
  | some a =>
    obtain ⟨c, hc, hcid, ho⟩ := hfrom
    obtain ⟨c', y, payload, hc', hy, hr⟩ := h.opened a k ho
    cases hc.symm.trans hc'
    cases hx.symm.trans hy
    cases hcid.symm.trans hid
    exact .inl ⟨a, payload, rfl, ho, hr⟩

/-- As long as no frame that the agent acts on comes in late, and no STREAM_OPEN makes a second stream under an id
that is in use, the sessions of an agent have nothing to do with each other. -/
theorem sessions_isolated (env : RunEnv) {s : AgentRun}
    (h : Lts.Reach (Lts.ofFn (AgentRun.step env)) Apart (· = start) s) :
    (∀ k e x s', e.session? = some k → s.sessions[k]? = some x → x.settled = true → s.Apart e →
      AgentRun.step env s e = some s' → s.Untouched s' k) ∧ s.Homegrown := by
  have hi : s.Inv := h.invariant (by rintro _ rfl; exact start_inv) fun _ _ _ _ hi hap hs => hi.step hap hs
  exact ⟨fun k e x s' he hx hset hap hs => hi.untouched he hx hset hap hs, hi.homegrown⟩

/-! ## Two sessions that do have to do with each other -/

/-- One HTTP tunnel to the desk's own machine. -/
def desk : RunEnv where
  specs := [⟨"web", .http, "localhost", 3000, some "web", none, false⟩]
  token := "tok"
  name := "desk"
  pingIntervalMs := 20000
  pingTimeoutMs := 10000
  lanIp := none
  bufferedAmount _ := 0

def helloOk : Bytes := UInt8.ofNat FrameType.helloOk :: utf8Encode "\x7b\"streamWindow\":262144\x7d"

def tunnelOk : Bytes := UInt8.ofNat FrameType.tunnelOk :: utf8Encode "\x7b\"reqId\":\"0\",\"tunnelId\":\"tn\"\x7d"

def streamOpen : Bytes := UInt8.ofNat FrameType.streamOpen :: u32be 1 ++ utf8Encode "\x7b\"tunnelId\":\"tn\"\x7d"

/-- `{"code":"busy"}` -/
def busy : Bytes := UInt8.ofNat FrameType.error :: utf8Encode "\x7b\"code\":\"busy\"\x7d"

/-- The first HELLO is refused, for which the agent closes the WebSocket; the next one is up before it is closed. -/
def refused : List Event := [.connect, .open 0, .message 0 busy true true, .connect, .open 1]

/-- The server opens stream 1 twice, and the connection breaks. -/
def twice : List Event :=
  [.connect, .open 0, .message 0 helloOk true true, .message 0 tunnelOk true true, .message 0 streamOpen true true,
    .message 0 streamOpen true true, .local (.dialed 0 fun _ => true), .error 0, .connect, .open 1,
    .local (.data 0 [1, 2, 3])]

/-- Session 0 has settled, and now pings. -/
def pings (s s' : AgentRun) : Bool := s.sessions[0]?.any (·.settled) && s'.sessions[0]?.any (·.ping)

/-- A stream of session 0 sends in session 1. -/
def stray (s : AgentRun) : Bool :=
  s.sessions[1]?.any (fun x => x.sent.any fun p => p.1 = some 0 && p.2.streamId? = some 1) && s.origin[0]? = some 0

/-- A HELLO_OK that comes in after the handshake was refused starts the pings of its session, and registers the
tunnels over the next one; and a stream that has lost its place in the table outlives its session. -/
theorem not_isolated :
    (¬ ∀ (env : RunEnv) (s : AgentRun), Lts.Reachable (Lts.ofFn (AgentRun.step env)) (· = start) s →
      ∀ k e x s', e.session? = some k → s.sessions[k]? = some x → x.settled = true →
        AgentRun.step env s e = some s' → s.Untouched s' k) ∧
    ¬ ∀ (env : RunEnv) (s : AgentRun), Lts.Reachable (Lts.ofFn (AgentRun.step env)) (· = start) s → s.Homegrown := by
  constructor
  · intro h
    have hq : ((Lts.exec (AgentRun.step desk) start refused).bind fun s =>
        (AgentRun.step desk s (.message 0 helloOk true true)).map (pings s)) = some true := by decide +kernel
    obtain ⟨s, hs, hq⟩ := Option.bind_eq_some_iff.mp hq
    obtain ⟨s', hs', hq⟩ := Option.map_eq_some_iff.mp hq
    simp only [pings, Bool.and_eq_true, Option.any_eq_true] at hq
    obtain ⟨⟨x, hx, hset⟩, ⟨y, hy, hping⟩⟩ := hq
    have hu := h desk s (.exec (.start rfl) hs) 0 _ x s' rfl hx hset hs'
    rw [hu.ping y hy] at hping
    cases hping
  · intro h
    have hq : ((Lts.exec (AgentRun.step desk) start twice).map stray) = some true := by decide +kernel
    obtain ⟨s, hs, hq⟩ := Option.map_eq_some_iff.mp hq
    simp only [stray, Bool.and_eq_true, Option.any_eq_true, List.any_eq_true, decide_eq_true_eq] at hq
    obtain ⟨⟨x, hx, ⟨source, f⟩, hp, rfl, hid⟩, ho⟩ := hq
    rcases h desk s (.exec (.start rfl) hs) 1 x hx _ f hp 1 hid with ⟨a, payload, ha, hk, -⟩ | ⟨hn, -⟩
    · cases ha
      rw [ho] at hk
      cases hk
    · cases hn

/-- Two sessions, each with a tunnel and a stream 1 that sends; the first WebSocket has failed and is not closed. -/
def backToBack : List Event :=
  [.connect, .open 0, .message 0 helloOk true true, .message 0 tunnelOk true true, .message 0 streamOpen true true,
    .local (.dialed 0 fun _ => true), .local (.data 0 [1, 2, 3]), .error 0,
    .connect, .open 1, .message 1 helloOk true true, .message 1 tunnelOk true true, .message 1 streamOpen true true,
    .local (.dialed 1 fun _ => true), .local (.data 1 [4, 5])]

/-- The stream at `a` has sent a frame for stream 1 in session `k`. -/
def speaks (s : AgentRun) (k a : Nat) : Bool :=
  s.sessions[k]?.any fun x => x.sent.any fun p => p.1 = some a && p.2.streamId? = some 1

/-- A HELLO_OK that comes in once more on the first WebSocket is ignored. -/
theorem sessions_isolated_backToBack : ∃ s s', Lts.execOk (AgentRun.step desk) Apart start backToBack = some s ∧
    AgentRun.step desk s (.message 0 helloOk true true) = some s' ∧ s.sessions[0]?.any (·.settled) = true ∧
    s.speaks 0 0 = true ∧ s.speaks 1 1 = true ∧ s.Untouched s' 0 ∧ s.Homegrown := by
  have hq : ((Lts.execOk (AgentRun.step desk) Apart start backToBack).bind fun s =>
      (AgentRun.step desk s (.message 0 helloOk true true)).map fun _ =>
        s.sessions[0]?.any (·.settled) && s.speaks 0 0 && s.speaks 1 1 &&
          decide (s.Apart (.message 0 helloOk true true))) = some true := by decide +kernel
  obtain ⟨s, hs, hq⟩ := Option.bind_eq_some_iff.mp hq
  obtain ⟨s', hs', hq⟩ := Option.map_eq_some_iff.mp hq
  simp only [Bool.and_eq_true, decide_eq_true_eq] at hq
  obtain ⟨⟨⟨hset, h0⟩, h1⟩, hap⟩ := hq
  obtain ⟨x, hx, hsettled⟩ := (Option.any_eq_true _ _).mp hset
  obtain ⟨hlate, hhome⟩ := sessions_isolated desk (.execOk (.start rfl) hs)
  exact ⟨s, s', hs, hs', hset, h0, h1, hlate 0 _ x s' rfl hx hsettled hap hs', hhome⟩

end AgentRun

end UpTunnel
