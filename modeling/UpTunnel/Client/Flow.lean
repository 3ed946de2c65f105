import UpTunnel.Gate
import UpTunnel.Client.Agent

/-!
# UpTunnel.Client.Flow

What happens to the gates of the agent's streams, dialling or attached.

* `GateLaw`: what keeps a property of gates that may depend on whether the local socket is attached,
  whether the agent is congested and whether the table holds the stream.
* `step_keeps`: such a property is kept by every step of the agent. What clearing congestion does is
  left to the property.
* `Metered`: what a stream has outstanding is what its window lacks, and is never more than the window
  and one chunk less one byte.
-/

namespace UpTunnel

open Js Hub

/-- The gate of a stream that has just been made. -/
def Gate.fresh (window : Int) : Gate := ⟨false, false, false, window, [], 0⟩

/-- `P k c l` is a property of gates: `k` says that the local socket is attached, `c` that the agent
is congested and `l` that its table holds the stream. -/
structure GateLaw (P : Bool → Bool → Bool → Gate → Prop) : Prop where
  congest : ∀ k g, P k false true g → P k true true (g.setGlobalPause true)
  congestUnlisted : ∀ k g, P k false false g → P k true false g
  unlist : ∀ k c g, P k c true g → P k c false g
  onAck : ∀ k c l g n, P k c l g → P k c l (g.onAck n)
  onSourceData : ∀ c l g chunk, g.paused = false → P true c l g → P true c l (g.onSourceData chunk)
  congestData : ∀ g chunk, g.paused = false → P true false true g →
    P true true true ((g.setGlobalPause true).onSourceData chunk)
  attach : ∀ c l g, P false c l g → P true c l { g with paused := false }
  pause : ∀ c l g, g.pausedGlobally = true → P true c l g → P true c l { g with paused := true }

namespace Agent

/-- `P` holds of the gate of a stream that is not finished. -/
def OnGate (P : Bool → Bool → Bool → Gate → Prop) (c l : Bool) (s : ClientStream) : Prop :=
  s.finished = false → P s.connected c l s.toEndpoint.gate

variable {P : Bool → Bool → Bool → Gate → Prop}

theorem law_onGate (hP : GateLaw P) : Law (OnGate P) where
  congest s hs hf := by
    have hf' : s.finished = false := (Endpoint.finished_setGlobalPause s.toEndpoint true).symm.trans hf
    have hg : (StreamObj.setGlobalPause true s).toEndpoint.gate = s.toEndpoint.gate.setGlobalPause true :=
      Endpoint.gate_setGlobalPause hf' true
    rw [hg]
    exact hP.congest _ _ (hs hf')
  congestUnlisted s hs hf := hP.congestUnlisted _ _ (hs hf)
  unlist c s hs hf := hP.unlist _ _ _ (hs hf)

/-- A quiet method keeps the property. -/
theorem onGate_quiet (hP : GateLaw P) {c c' : ClientCtx} (h : c.Quiet c')
    (hp : OnGate P c.wire.congested c.listed c.self) : OnGate P c'.wire.congested c.listed c'.self := by
  intro hf
  have hg : c'.self.toEndpoint.gate = if c.listed && c'.wire.congested && !c.wire.congested then
      c.self.toEndpoint.gate.setGlobalPause true else c.self.toEndpoint.gate := h.base.gate hf
  have hmono : c.wire.congested = true → c'.wire.congested = true := h.base.congested
  have hp := hp (h.base.finished hf)
  rw [hg, h.connected]
  cases h1 : c.wire.congested <;> cases h2 : c'.wire.congested <;> cases h3 : c.listed <;>
    simp only [h1, h2, h3, forall_true_left, Bool.false_eq_true] at hp hmono ⊢
  · exact hp
  · exact hp
  · exact hP.congestUnlisted _ _ hp
  · exact hP.congest _ _ hp
  · exact hp
  · exact hp

section
variable {env : WireEnv} {h h' : Hub ClientStream} {x : Nat}

theorem call_keeps (hP : GateLaw P) (hA : All (OnGate P) h) {m : ClientCtx → ClientCtx}
    (hm : ∀ c : ClientCtx, c.Quiet (m c)) : All (OnGate P) (h.call x (method m)) :=
  hA.call (law_onGate hP) fun s _ hp =>
    ⟨(hm ⟨s, h.wire, h.listed x⟩).base.congested, onGate_quiet hP (hm ⟨s, h.wire, h.listed x⟩) hp⟩

theorem run_keeps (hP : GateLaw P) (hA : All (OnGate P) h) {m : ClientCtx → Except JsError ClientCtx}
    (hm : ∀ c c' : ClientCtx, m c = .ok c' → c.Quiet c') (hr : h.run x (methodE m) = .ok h') :
    All (OnGate P) h' := by
  refine hA.run (law_onGate hP) hr fun s r _ hr hp => ?_
  obtain ⟨c', hc', rfl⟩ := map_ok.mp hr
  exact ⟨(hm _ c' hc').base.congested, onGate_quiet hP (hm _ c' hc') hp⟩

theorem onSocket_keeps (hA : All (OnGate P) h) {p : Socket → Option Socket}
    (hp : ∀ k k', p k = some k' → k'.paused = k.paused) (hs : onSocket h x p = some h') :
    All (OnGate P) h' := by
  unfold onSocket at hs
  split at hs
  · cases hs
  · rename_i s hs0
    rw [Option.ite_none_right_eq_some] at hs
    obtain ⟨-, hs⟩ := hs
    obtain ⟨k, hk, rfl⟩ := Option.map_eq_some_iff.mp hs
    intro x' t ht
    have hx : x < h.objs.length := (List.getElem?_eq_some_iff.mp hs0).1
    by_cases hne : x' = x
    · subst hne
      simp only [List.getElem?_set_self hx] at ht
      cases ht
      have hg : Endpoint.gate { s.toEndpoint with socket := k } = s.toEndpoint.gate := by
        simp [Endpoint.gate, hp _ _ hk]
      intro hf
      show P s.connected _ _ (Endpoint.gate { s.toEndpoint with socket := k })
      rw [hg]
      exact hA x' s hs0 hf
    · exact hA x' t (by simpa [List.getElem?_set_ne (Ne.symm hne)] using ht)

theorem onLocalData_keeps (hP : GateLaw P) (hA : All (OnGate P) h)
    (hc : ∀ s, h.objs[x]? = some s → s.connected = true ∧ s.socket.paused = false) (chunk : Bytes) :
    All (OnGate P) (h.call x (method fun c => ClientStream.onLocalData env c chunk)) := by
  refine hA.call (law_onGate hP) fun s hs hp => ?_
  obtain ⟨hcs, hpaused⟩ := hc s hs
  let c : ClientCtx := ⟨s, h.wire, h.listed x⟩
  show (_ → (c.base.onSourceData env chunk).wire.congested = true) ∧
    OnGate P (c.base.onSourceData env chunk).wire.congested (h.listed x)
      { s with toEndpoint := (c.base.onSourceData env chunk).self }
  by_cases hskip : (c.base.self.finished || c.base.self.sentEof) = true
  · rw [Ctx.onSourceData_skip env hskip]
    exact ⟨fun h => h, hp⟩
  · simp only [Bool.or_eq_true, not_or, Bool.not_eq_true] at hskip
    obtain ⟨c1, hq, hw, hf1, hg⟩ := Ctx.onSourceData_gate env chunk hskip.1 hskip.2
    rw [← hw]
    refine ⟨hq.congested, fun _ => ?_⟩
    show P s.connected _ _ (c.base.onSourceData env chunk).self.gate
    have hp : P true h.wire.congested (h.listed x) s.toEndpoint.gate := hcs ▸ hp hskip.1
    have hpg : s.toEndpoint.gate.paused = false := hpaused
    have hmono : h.wire.congested = true → c1.wire.congested = true := hq.congested
    rw [hg, hq.gate hf1, hcs]
    show P true _ _ ((if (h.listed x && c1.wire.congested && !h.wire.congested) = true then
      s.toEndpoint.gate.setGlobalPause true else s.toEndpoint.gate).onSourceData chunk)
    cases h1 : h.wire.congested <;> cases h2 : c1.wire.congested <;> cases h3 : h.listed x <;>
      simp only [h1, h2, h3, forall_true_left, Bool.false_eq_true] at hp hmono ⊢
    · exact hP.onSourceData _ _ _ _ hpg hp
    · exact hP.onSourceData _ _ _ _ hpg hp
    · exact hP.onSourceData _ _ _ _ hpg (hP.congestUnlisted _ _ hp)
    · exact hP.congestData _ _ hpg hp
    · exact hP.onSourceData _ _ _ _ hpg hp
    · exact hP.onSourceData _ _ _ _ hpg hp

theorem attach_keeps (hP : GateLaw P) (hA : All (OnGate P) h) (hc : ∀ s, h.objs[x]? = some s → s.connected = false)
    {flushed : Nat → Bool} (hr : h.run x (methodE fun c => ClientStream.attach env c flushed) = .ok h') :
    All (OnGate P) h' := by
  refine hA.run (law_onGate hP) hr fun s r hs hr hp => ?_
  obtain ⟨c', hc', rfl⟩ := map_ok.mp hr
  cases hf : s.finished with
  | true =>
    change ClientStream.attach env ⟨s, h.wire, h.listed x⟩ flushed = .ok c' at hc'
    rw [ClientStream.attach_skip hf] at hc'
    cases hc'
    exact ⟨fun h => h, hp⟩
  | false =>
    obtain ⟨c1, hq, rfl⟩ := ClientStream.attach_quiet hf hc'
    have hp1 := hp hf
    rw [hc s hs] at hp1
    have h0 : OnGate P h.wire.congested (h.listed x) { s with socket := Socket.fresh, connected := true } :=
      fun _ => hP.attach _ _ _ hp1
    have h1 := onGate_quiet hP hq h0
    have hwire : (if c1.self.pausedGlobally then
        { c1 with self := { c1.self with toEndpoint := c1.self.pause } } else c1).wire = c1.wire := by
      split <;> rfl
    rw [hwire]
    refine ⟨hq.base.congested, fun hf' => ?_⟩
    split
    · rename_i hg
      have hf1 : c1.self.finished = false := by simpa [hg, Endpoint.pause] using hf'
      have hcon : c1.self.connected = true := hq.connected
      have h2 := h1 hf1
      show P c1.self.connected _ _ { c1.self.toEndpoint.gate with paused := true }
      rw [hcon] at h2 ⊢
      exact hP.pause _ _ _ hg h2
    · rename_i hg
      exact h1 (by simpa [hg] using hf')

theorem handleStreamFrame_keeps (hP : GateLaw P) (hA : All (OnGate P) h) {type id : Nat} {payload : Bytes}
    {flushed : Bool} (hs : handleStreamFrame env h type id payload flushed = .ok h') : All (OnGate P) h' := by
  unfold handleStreamFrame at hs
  split at hs
  · cases hs
    split
    · exact hA.send (law_onGate hP) _
    · exact hA
  · split at hs
    · exact run_keeps hP hA (fun _ _ => ClientStream.onData_quiet) hs
    · split at hs
      · exact run_keeps hP hA (fun _ _ => ClientStream.onEof_quiet) hs
      · split at hs
        · cases hs
          split
          · refine hA.call (law_onGate hP) fun s _ hp => ⟨fun h1 => h1, fun hf => ?_⟩
            have hf' : s.finished = false := (Endpoint.finished_onAck s.toEndpoint _).symm.trans hf
            show P s.connected _ _ (s.toEndpoint.onAck _).gate
            rw [Endpoint.gate_onAck hf']
            exact hP.onAck _ _ _ _ _ (hp hf')
          · exact hA
        · split at hs <;> cases hs
          · exact call_keeps hP hA fun c => ClientStream.destroy_quiet "peer_reset" c
          · exact hA

end

/-- The event ends congestion. -/
def Clears (env : WireEnv) (a : Agent) : Event → Prop
  | .poll buffered => a.wire.closed = true ∨ (buffered : Int) ≤ env.wsMaxBuffered / 2
  | .teardown => True
  | .frame .. => a.handshook = false
  | _ => False

section
variable {env : WireEnv} {specs : List TunnelSpec} {a a' : Agent}

/-- A teardown finishes every stream of the table. -/
theorem teardownSession_keeps (hA : All (OnGate P) a.toHub)
    (hleft : a.wire.congested = true → ∀ (x : Nat) (s : ClientStream), a.objs[x]? = some s → s.finished = false →
      a.listed x = false → P s.connected true false s.toEndpoint.gate → P s.connected false false s.toEndpoint.gate) :
    All (OnGate P) (a.teardownSession env).toHub := by
  let f : ClientStream → ClientStream := fun s => { s with toEndpoint := s.toEndpoint.aborted }
  have hm : ∀ (s : ClientStream) (l : Bool),
      method (fun c => ClientStream.destroy env c "peer_reset") s a.toHub.clearCongestion.wire l =
        (f s, a.toHub.clearCongestion.wire) := by
    intro s l
    simp [method, ClientStream.destroy, ClientCtx.put, ClientCtx.base, Ctx.destroy_silent, f]
  obtain ⟨h1, h2⟩ := foldl_call hm (fun s => by simp [f, Endpoint.aborted_aborted])
    a.toHub.clearCongestion.streams.values rfl
  intro x s' hs
  have h3 := (h2 x).symm.trans hs
  show OnGate P (List.foldl _ a.toHub.clearCongestion _).wire.congested _ s'
  rw [h1, wire_clearCongestion]
  have hul : (a.teardownSession env).listed x = false := by
    simp only [Bool.eq_false_iff, ne_eq, listed_iff, not_exists]
    intro k hk
    simp [teardownSession] at hk
  show OnGate P false ((a.teardownSession env).listed x) s'
  rw [hul]
  by_cases hx : x ∈ a.toHub.clearCongestion.streams.values
  · rw [if_pos hx] at h3
    obtain ⟨s, -, rfl⟩ := Option.map_eq_some_iff.mp h3
    intro hfin
    have := Endpoint.finished_aborted s.toEndpoint
    simp [f, this] at hfin
  · have hl : a.listed x = false := by
      rw [streams_clearCongestion] at hx
      simpa [listed] using hx
    have hs' : a.objs[x]? = some s' := by
      rw [← getElem?_clearCongestion hl]
      rwa [if_neg hx] at h3
    have hp := hA x s' hs'
    rw [hl] at hp
    cases hc : a.wire.congested with
    | false => rw [hc] at hp; exact hp
    | true =>
      rw [hc] at hp
      exact fun hfin => hleft hc x s' hs' hfin hl (hp hfin)

theorem registerTunnels_keeps (hP : GateLaw P) (hA : All (OnGate P) a.toHub) :
    All (OnGate P) (a.registerTunnels env specs).toHub := by
  unfold registerTunnels
  generalize specs.zipIdx = l
  induction l generalizing a with
  | nil => exact hA
  | cons p l ih => exact ih (a := a.registerTunnel env p.2 p.1) (hA.send (law_onGate hP) _)

theorem handleFrame_keeps (hP : GateLaw P) {f : Frame} {flushed : Bool} (hA : All (OnGate P) a.toHub)
    (hnew : P false false true (.fresh a.window)) (hs : a.handleFrame env flushed f = .ok a') :
    All (OnGate P) a'.toHub := by
  unfold handleFrame at hs
  cases f with
  | control type body =>
    dsimp only at hs
    split at hs
    · obtain ⟨_, -, hs⟩ := bind_ok.mp hs
      obtain ⟨_, -, hs⟩ := bind_ok.mp hs
      obtain ⟨_, -, hs⟩ := bind_ok.mp hs
      cases hs
      exact hA
    · split at hs
      · obtain ⟨_, -, hs⟩ := bind_ok.mp hs
        obtain ⟨_, -, hs⟩ := bind_ok.mp hs
        obtain ⟨_, -, hs⟩ := bind_ok.mp hs
        cases hs
        exact hA
      · cases hs
        exact hA
  | stream type id payload =>
    dsimp only at hs
    split at hs
    · obtain ⟨tunnelId, -, rfl⟩ := map_ok.mp hs
      show All (OnGate P) (a.onStreamOpen env id tunnelId)
      unfold onStreamOpen
      split
      · exact hA.send (law_onGate hP) _
      · refine hA.insert (law_onGate hP) id fun _ => ?_
        cases hc : a.wire.congested with
        | false => exact hnew
        | true => exact hP.congest _ _ hnew
    · obtain ⟨h, hh, rfl⟩ := map_ok.mp hs
      exact handleStreamFrame_keeps hP hA hh

theorem handleHandshake_toHub {f : Frame} {r : Except HandshakeError Agent} (hr : a.handleHandshake f = .ok r) :
    ∀ a1, r = .ok a1 → a1.toHub = a.toHub := by
  rintro a1 rfl
  unfold handleHandshake at hr
  cases f with
  | stream type id payload => cases hr
  | control type body =>
    dsimp only at hr
    split at hr
    · obtain ⟨_, -, hr⟩ := bind_ok.mp hr
      obtain ⟨_, -, hr⟩ := bind_ok.mp hr
      cases hr
    · split at hr
      · cases hr
      · obtain ⟨_, -, hr⟩ := bind_ok.mp hr
        obtain ⟨_, -, hr⟩ := bind_ok.mp hr
        cases hr
        rfl

theorem step_keeps (hP : GateLaw P) {e : Event} (hA : All (OnGate P) a.toHub)
    (hnew : a.handshook = true → P false false true (.fresh a.window))
    (hclear : ∀ buffered, e = .poll buffered → Clears env a e → a.wire.congested = true →
      ∀ (x : Nat) (s : ClientStream), a.objs[x]? = some s → s.finished = false → a.listed x = true →
      P s.connected true true s.toEndpoint.gate → P s.connected false true (s.toEndpoint.gate.setGlobalPause false))
    (hleft : Clears env a e → a.wire.congested = true →
      ∀ (x : Nat) (s : ClientStream), a.objs[x]? = some s → s.finished = false → a.listed x = false →
      P s.connected true false s.toEndpoint.gate → P s.connected false false s.toEndpoint.gate)
    (hs : step env specs a e = some a') : All (OnGate P) a'.toHub := by
  cases e with
  | dialed x flushed =>
    simp only [step, Option.ite_none_right_eq_some] at hs
    obtain ⟨hd, hs⟩ := hs
    obtain ⟨h, hh, rfl⟩ := Option.map_eq_some_iff.mp hs
    refine attach_keeps hP hA (fun s hs => ?_) (toOption_eq_some.mp hh)
    simpa [dialling, hs] using hd
  | dialFailed x message =>
    simp only [step, Option.ite_none_right_eq_some, Option.some.injEq] at hs
    obtain ⟨-, rfl⟩ := hs
    exact call_keeps hP hA (ClientStream.dialFailed_quiet message)
  | data x chunk =>
    obtain ⟨h1, hh, rfl⟩ := Option.map_eq_some_iff.mp hs
    have hA1 := onSocket_keeps hA (fun k k' hk => by split at hk <;> cases hk; rfl) hh
    refine onLocalData_keeps hP hA1 (fun s hs => ?_) chunk
    unfold onSocket at hh
    split at hh
    · cases hh
    · rename_i t ht
      rw [Option.ite_none_right_eq_some] at hh
      obtain ⟨hc, hh⟩ := hh
      obtain ⟨k, hk, rfl⟩ := Option.map_eq_some_iff.mp hh
      have hx : x < a.objs.length := (List.getElem?_eq_some_iff.mp ht).1
      simp only [List.getElem?_set_self hx, Option.some.injEq] at hs
      rw [Option.ite_none_right_eq_some] at hk
      obtain ⟨hr, hk⟩ := hk
      simp only [Socket.canRead, Bool.and_eq_true, Bool.not_eq_true'] at hr
      cases hk
      rw [← hs]
      exact ⟨hc, hr.1.1⟩
  | «end» x =>
    obtain ⟨h1, hh, rfl⟩ := Option.map_eq_some_iff.mp hs
    have hA1 := onSocket_keeps hA (fun k k' hk => by split at hk <;> cases hk; rfl) hh
    exact call_keeps hP hA1 ClientStream.onLocalEnd_quiet
  | drain x =>
    obtain ⟨h1, hh, hs1⟩ := Option.bind_eq_some_iff.mp hs
    obtain ⟨h2, hx, rfl⟩ := Option.map_eq_some_iff.mp hs1
    have hA1 := onSocket_keeps hA (fun k k' hk => by split at hk <;> cases hk; rfl) hh
    exact run_keeps hP hA1 (fun _ _ => ClientStream.onDrain_quiet) (toOption_eq_some.mp hx)
  | error x =>
    obtain ⟨h1, hh, rfl⟩ := Option.map_eq_some_iff.mp hs
    have hA1 := onSocket_keeps hA (fun k k' hk => by cases hk; rfl) hh
    exact call_keeps hP hA1 fun c => ClientStream.destroy_quiet "local_error" c
  | close x =>
    obtain ⟨h1, hh, rfl⟩ := Option.map_eq_some_iff.mp hs
    have hA1 := onSocket_keeps hA (fun k k' hk => by cases hk; rfl) hh
    exact call_keeps hP hA1 ClientStream.finish_quiet
  | frame f flushed =>
    have hx := toOption_eq_some.mp hs
    unfold onMessage at hx
    split at hx
    · rename_i hh
      exact handleFrame_keeps hP (a := { a with toHub := { a.toHub with wire := { a.wire with
        received := a.wire.received ++ [f] } } }) hA (hnew hh) hx
    · rename_i hh
      have hh : a.handshook = false := (Bool.not_eq_true _).mp hh
      obtain ⟨r, hr, rfl⟩ := map_ok.mp hx
      cases r with
      | error e =>
        exact teardownSession_keeps (a := { a with toHub := { a.toHub with wire := { a.wire with
          received := a.wire.received ++ [f] } } }) hA (hleft hh)
      | ok a1 =>
        refine registerTunnels_keeps hP (a := { a1 with handshook := true }) ?_
        show All (OnGate P) a1.toHub
        rw [handleHandshake_toHub hr a1 rfl]
        exact hA
  | poll buffered =>
    simp only [step, Option.ite_none_right_eq_some, Option.some.injEq] at hs
    obtain ⟨-, rfl⟩ := hs
    show All (OnGate P) (a.toHub.poll env buffered)
    unfold Hub.poll
    split
    · rename_i hb
      have hb : Clears env a (.poll buffered) := by simpa [Clears] using hb
      refine hA.clearCongestion fun x s hs hc hp => ?_
      cases hl : a.listed x with
      | true =>
        rw [hl] at hp
        intro hf
        have hf' : s.finished = false := (Endpoint.finished_setGlobalPause s.toEndpoint false).symm.trans hf
        show P s.connected false true (s.toEndpoint.setGlobalPause false).gate
        rw [Endpoint.gate_setGlobalPause hf']
        exact hclear buffered rfl hb hc x s hs hf' hl (hp hf')
      | false =>
        rw [hl] at hp
        exact fun hf => hleft hb hc x s hs hf hl (hp hf)
    · exact hA
  | notOpen =>
    cases hs
    exact hA
  | teardown =>
    cases hs
    exact teardownSession_keeps hA (hleft trivial)

end

/-! ## Credit -/

/-- What a stream has outstanding is what its window lacks, and was in bounds when the socket was
last read from. -/
structure Metered (window : Int) (connected : Bool) (g : Gate) : Prop where
  pausedForCredit : g.pausedForCredit = true → g.paused = true ∧ connected = true
  credit : g.sendCredit ≤ 0 → g.pausedForCredit = true
  balance : g.sendCredit + g.outstanding = window
  bound : g.outstanding ≤ 0 ∨ ∃ chunk ∈ g.chunks, g.outstanding ≤ window + chunk.length - 1

section
variable {window : Int} {g : Gate} {k : Bool}

theorem Metered.fresh (hw : 0 < window) : Metered window false (.fresh window) :=
  ⟨by simp [Gate.fresh], fun h => by simp only [Gate.fresh] at h; omega, by simp [Gate.fresh, Gate.outstanding],
    .inl (by simp [Gate.fresh, Gate.outstanding])⟩

theorem Metered.maybeResume (h : Metered window k g) : Metered window k g.maybeResume := by
  unfold Gate.maybeResume
  split
  · exact h
  · rename_i h1
    simp only [Bool.or_eq_true, decide_eq_true_eq, not_or, not_le, Bool.not_eq_true] at h1
    split
    · exact h
    · exact ⟨by simp, fun h2 => by simp only at h2; omega, h.balance, h.bound⟩

theorem Metered.setGlobalPause (h : Metered window k g) (b : Bool) : Metered window k (g.setGlobalPause b) := by
  unfold Gate.setGlobalPause
  split
  · exact h
  · split
    · exact ⟨fun hp => ⟨rfl, (h.pausedForCredit hp).2⟩, h.credit, h.balance, h.bound⟩
    · exact .maybeResume ⟨h.pausedForCredit, h.credit, h.balance, h.bound⟩

theorem Metered.onAck (h : Metered window k g) (n : Nat) : Metered window k (g.onAck n) := by
  have hbal := h.balance
  have hb := h.bound
  simp only [Gate.outstanding] at hbal hb
  refine .maybeResume ⟨h.pausedForCredit, fun h1 => h.credit ?_, ?_, ?_⟩
  · simp only at h1
    omega
  · simp only [Gate.outstanding]
    omega
  · simp only [Gate.outstanding]
    rcases hb with hb | ⟨chunk, hc, hb⟩
    · exact .inl (by omega)
    · exact .inr ⟨chunk, hc, by omega⟩

theorem Metered.onSourceData (h : Metered window true g) (hpos : 0 < g.sendCredit) (chunk : Bytes) :
    Metered window true (g.onSourceData chunk) := by
  have hbal := h.balance
  have hout : ({ g with sendCredit := g.sendCredit - chunk.length, chunks := g.chunks ++ [chunk] } : Gate).outstanding
      = g.outstanding + chunk.length := by
    simp only [Gate.outstanding, List.flatten_append, List.length_append, List.flatten_cons, List.flatten_nil,
      List.append_nil]
    omega
  have hnew : g.outstanding + (chunk.length : Int) ≤ window + chunk.length - 1 := by omega
  unfold Gate.onSourceData
  dsimp only
  split
  · refine ⟨fun _ => ⟨rfl, rfl⟩, fun _ => rfl, ?_, .inr ⟨chunk, by simp, ?_⟩⟩
    · simp only [Gate.outstanding] at hout hbal ⊢
      omega
    · simp only [Gate.outstanding] at hout hnew ⊢
      omega
  · rename_i h1
    simp only [Bool.and_eq_true, decide_eq_true_eq, Bool.not_eq_true', not_and, Bool.not_eq_false] at h1
    refine ⟨h.pausedForCredit, h1, ?_, .inr ⟨chunk, by simp, ?_⟩⟩
    · simp only [hout]
      omega
    · rw [hout]
      exact hnew

theorem Metered.pos (h : Metered window k g) (hp : g.paused = false) : 0 < g.sendCredit := by
  by_contra hle
  have h1 := (h.pausedForCredit (h.credit (by omega))).1
  simp [hp] at h1

theorem gateLaw_metered (window : Int) : GateLaw fun k _ _ => Metered window k where
  congest _ _ h := h.setGlobalPause true
  congestUnlisted _ _ h := h
  unlist _ _ _ h := h
  onAck _ _ _ _ n h := h.onAck n
  onSourceData _ _ _ chunk hp h := h.onSourceData (h.pos hp) chunk
  congestData g chunk hp h := by
    refine (h.setGlobalPause true).onSourceData ?_ chunk
    have hs : (g.setGlobalPause true).sendCredit = g.sendCredit := by
      unfold Gate.setGlobalPause
      split <;> rfl
    rw [hs]
    exact h.pos hp
  attach _ _ _ h :=
    ⟨fun hp => absurd (h.pausedForCredit hp).2 (by simp), h.credit, h.balance, h.bound⟩
  pause _ _ _ _ h := ⟨fun hp => ⟨rfl, (h.pausedForCredit hp).2⟩, h.credit, h.balance, h.bound⟩

end

end Agent

end UpTunnel
