import UpTunnel.Link.Integrity

/-!
# UpTunnel.Link.Stall

What a sender that is out of credit waits for.

* `AgentSession.step_owing`, `Agent.step_owes`: a stream holds back an acknowledgement only while its
  socket owes a `drain`.
* `reach_unstalled`: so in either direction there is data under way, queued or unflushed, or an
  acknowledgement on the way back.
* `not_unstalled`: the reuse of a stream id leaves a sender waiting for nothing.
-/

namespace UpTunnel

open Js Hub StreamObj

/-! ## Held back until `drain` -/

/-- What is not acknowledged was written to a socket that owes a `drain`. -/
def Endpoint.Owing (s : Endpoint) : Prop := s.finished = false → 0 < s.recvUnacked → s.socket.needDrain = true

section
variable {s s' : Endpoint}

theorem Endpoint.Owing.of_le (h : s.Owing) (hf : s'.finished = false → s.finished = false)
    (hu : s'.recvUnacked = s.recvUnacked) (hd : s'.socket.needDrain = s.socket.needDrain) : s'.Owing := by
  intro hf' hu'
  rw [hd]
  exact h (hf hf') (hu ▸ hu')

theorem Endpoint.Owing.of_finished (hf : s.finished = true) : s.Owing := by
  intro hf'
  simp [hf] at hf'

theorem Endpoint.Owing.of_acked (hu : s.recvUnacked = 0) : s.Owing := by
  intro _ hu'
  omega

@[simp] theorem Endpoint.needDrain_maybeResume (s : Endpoint) :
    s.maybeResume.socket.needDrain = s.socket.needDrain := by
  unfold Endpoint.maybeResume
  split <;> (try split) <;> rfl

@[simp] theorem Endpoint.needDrain_setGlobalPause (b : Bool) (s : Endpoint) :
    (s.setGlobalPause b).socket.needDrain = s.socket.needDrain := by
  unfold Endpoint.setGlobalPause
  split
  · rfl
  · cases b with
    | false => exact Endpoint.needDrain_maybeResume _
    | true => rfl

theorem Endpoint.Owing.setGlobalPause (h : s.Owing) (b : Bool) : (s.setGlobalPause b).Owing :=
  h.of_le (fun hf => (Endpoint.finished_setGlobalPause s b).symm.trans hf)
    (congrArg (·.recvUnacked) (Endpoint.core_setGlobalPause b s)) (Endpoint.needDrain_setGlobalPause b s)

theorem Endpoint.Owing.onAck (h : s.Owing) (n : Nat) : (s.onAck n).Owing := by
  refine h.of_le (fun hf => (Endpoint.finished_onAck s n).symm.trans hf) ?_ ?_
  · have h1 := congrArg (·.recvUnacked) (Endpoint.core_onAck s n)
    refine h1.trans ?_
    split <;> rfl
  · unfold Endpoint.onAck
    split
    · rfl
    · exact Endpoint.needDrain_maybeResume _

end

namespace Ctx

variable {env : WireEnv} {c c' : Ctx}

theorem send_owing (h : c.self.Owing) (f : Frame) : (c.send env f).self.Owing := by
  unfold send
  dsimp only
  split
  · exact h.setGlobalPause true
  · exact h

theorem onSourceData_owing (h : c.self.Owing) (chunk : Bytes) : (c.onSourceData env chunk).self.Owing := by
  have h1 : (c.send env (.data c.self.id chunk)).self.Owing := send_owing h _
  unfold onSourceData
  split
  · exact h
  · dsimp only
    split <;> exact h1.of_le id rfl rfl

theorem finish_owing (h : c.self.Owing) : c.finish.self.Owing := by
  unfold finish
  split
  · exact h
  · exact .of_finished rfl

theorem onSourceEnd_owing (h : c.self.Owing) : (c.onSourceEnd env).self.Owing := by
  unfold onSourceEnd
  split
  · exact h
  · have h1 : Endpoint.Owing { c.self with sentEof := true } := h.of_le id rfl rfl
    let c1 : Ctx := { c with self := { c.self with sentEof := true } }
    have h2 : (c1.send env (.eof c.self.id)).self.Owing := send_owing (c := c1) h1 _
    dsimp only
    split
    · exact finish_owing h2
    · exact h2

theorem destroy_owing (c : Ctx) (reason : String) : (c.destroy env reason).self.Owing :=
  .of_finished (destroy_finished env c reason)

/-- It leaves nothing unacknowledged, whatever the socket owes. -/
theorem flushAck_owing (h : c.flushAck env = .ok c') : c'.self.Owing := by
  by_cases hf : c.self.finished = true
  · rw [flushAck_finished env hf] at h
    cases h
    exact .of_finished hf
  · obtain ⟨fs, -, hd⟩ := flushAck_does env ((Bool.not_eq_true _).mp hf) h
    exact .of_acked (hd.field (·.recvUnacked) fun _ => rfl)

end Ctx

namespace Stream

variable {env : WireEnv} {c c' : Ctx}

theorem onData_owing (ho : c.self.Owing) {payload : Bytes} {flushed : Bool}
    (h : onData env c payload flushed = .ok c') : c'.self.Owing := by
  unfold onData at h
  split at h
  · cases h
    exact ho
  · cases flushed with
    | true => exact Ctx.flushAck_owing h
    | false =>
      cases h
      exact fun _ _ => by simp [Socket.write]

theorem onEof_owing (ho : c.self.Owing) (h : onEof env c = .ok c') : c'.self.Owing := by
  unfold onEof at h
  split at h
  · cases h
    exact ho
  · obtain ⟨c1, h1, rfl⟩ := map_ok.mp h
    have h2 : Endpoint.Owing { c1.self with socket := { c1.self.socket with ended := true } } :=
      (Ctx.flushAck_owing h1).of_le id rfl rfl
    dsimp only
    split
    · exact Ctx.finish_owing h2
    · exact h2

theorem onDrain_owing (h : onDrain env c = .ok c') : c'.self.Owing := Ctx.flushAck_owing h

end Stream

namespace AgentSession

variable {env : WireEnv} {streamWindow : Int} {s s' : AgentSession} {h h' : Hub Stream} {a : Nat}

theorem setUp_owing {c : Ctx} (hc : c.self.Owing) (preread : Bytes) : (setUp env preread c).self.Owing := by
  let c1 : Ctx := if c.wire.congested then { c with self := c.self.setGlobalPause true } else c
  have h1 : c1.self.Owing := by
    simp only [c1]
    split
    · exact hc.setGlobalPause true
    · exact hc
  have h2 : (if preread.length > 0 then Stream.writePreread env c1 preread else c1).self.Owing := by
    split
    · unfold Stream.writePreread
      split
      · exact h1
      · exact Ctx.onSourceData_owing h1 preread
    · exact h1
  exact h2.of_le id rfl rfl

theorem owing_pause (b : Bool) (s : Stream) (hs : s.Owing) : Endpoint.Owing (setGlobalPause b s) :=
  hs.setGlobalPause b

/-- What happens to a socket between two methods leaves the `drain` it owes alone. -/
theorem onSocket_owing (hE : Each Endpoint.Owing h) {p : Socket → Option Socket}
    (hp : ∀ k k', p k = some k' → k'.needDrain = k.needDrain) (hs : onSocket h a p = some h') :
    Each Endpoint.Owing h' := by
  obtain ⟨s, k, hs0, hk, hself, hothers, -, -⟩ := onSocket_some hs
  intro a' t ht
  by_cases hne : a' = a
  · subst hne
    cases hself.symm.trans ht
    exact (hE a' s hs0).of_le id rfl (hp _ _ hk)
  · exact hE a' t ((hothers a' hne).symm.trans ht)

theorem call_owing (hE : Each Endpoint.Owing h) {m : Ctx → Ctx} (hm : ∀ c : Ctx, c.self.Owing → (m c).self.Owing) :
    Each Endpoint.Owing (h.call a (method m)) :=
  hE.call owing_pause fun s _ hs => hm ⟨s, h.wire, h.listed a⟩ hs

theorem run_owing (hE : Each Endpoint.Owing h) {m : Ctx → Except JsError Ctx}
    (hm : ∀ c c' : Ctx, m c = .ok c' → c.self.Owing → c'.self.Owing) (hr : h.run a (methodE m) = .ok h') :
    Each Endpoint.Owing h' := by
  refine hE.run owing_pause hr fun s r _ hr hs => ?_
  obtain ⟨c', hc', rfl⟩ := map_ok.mp hr
  exact hm _ c' hc' hs

theorem handleStreamFrame_owing (hE : Each Endpoint.Owing h) {type id : Nat} {payload : Bytes} {flushed : Bool}
    (hs : handleStreamFrame env h type id payload flushed = .ok h') : Each Endpoint.Owing h' := by
  unfold handleStreamFrame at hs
  split at hs
  · cases hs
    split
    · exact hE.send owing_pause _
    · exact hE
  · split at hs
    · exact run_owing hE (fun c c' hc ho => Stream.onData_owing ho hc) hs
    · split at hs
      · exact run_owing hE (fun c c' hc ho => Stream.onEof_owing ho hc) hs
      · split at hs
        · cases hs
          split
          · exact hE.call owing_pause fun s _ ho => ho.onAck _
          · exact hE
        · split at hs <;> cases hs
          · exact call_owing hE fun c _ => Ctx.destroy_owing c "peer_reset"
          · exact hE

/-- No step makes a public socket's stream hold back what it could acknowledge. -/
theorem step_owing {e : Event} (hE : Each Endpoint.Owing s.toHub) (hs : step env streamWindow s e = some s') :
    Each Endpoint.Owing s'.toHub := by
  cases e with
  | accept tunnelId remoteAddr chunks =>
    cases hs
    unfold openStream
    dsimp only
    split
    · exact hE
    · refine call_owing (Each.insert (Each.send owing_pause hE _) _ ?_) fun c ho => setUp_owing ho _
      exact .of_acked rfl
  | data a chunk =>
    obtain ⟨h1, hh, rfl⟩ := Option.map_eq_some_iff.mp hs
    have hE1 := onSocket_owing hE (fun k k' hk => by split at hk <;> cases hk; rfl) hh
    exact call_owing hE1 fun c ho => Ctx.onSourceData_owing ho chunk
  | «end» a =>
    obtain ⟨h1, hh, rfl⟩ := Option.map_eq_some_iff.mp hs
    have hE1 := onSocket_owing hE (fun k k' hk => by split at hk <;> cases hk; rfl) hh
    exact call_owing hE1 fun c ho => Ctx.onSourceEnd_owing ho
  | drain a =>
    obtain ⟨h1, hh, hs1⟩ := Option.bind_eq_some_iff.mp hs
    obtain ⟨h2, hx, rfl⟩ := Option.map_eq_some_iff.mp hs1
    have hE1 := onSocket_owing hE (fun k k' hk => by split at hk <;> cases hk; rfl) hh
    exact run_owing hE1 (fun c c' hc _ => Stream.onDrain_owing hc) (toOption_eq_some.mp hx)
  | error a =>
    cases hs
    exact call_owing hE fun c _ => Ctx.destroy_owing c "socket_error"
  | close a =>
    obtain ⟨h1, hh, rfl⟩ := Option.map_eq_some_iff.mp hs
    have hE1 := onSocket_owing hE (fun k k' hk => by cases hk; rfl) hh
    exact call_owing hE1 fun c ho => Ctx.finish_owing ho
  | frame f flushed =>
    have hE1 : Each Endpoint.Owing { s.toHub with wire := { s.wire with received := s.wire.received ++ [f] } } := hE
    cases f with
    | control type body =>
      cases hs
      exact hE1
    | stream type id payload =>
      obtain ⟨h2, hx, rfl⟩ := Option.map_eq_some_iff.mp hs
      exact handleStreamFrame_owing hE1 (toOption_eq_some.mp hx)
  | control type body =>
    cases hs
    exact hE.send owing_pause _
  | poll buffered =>
    simp only [step, Option.ite_none_right_eq_some, Option.some.injEq] at hs
    obtain ⟨-, rfl⟩ := hs
    exact hE.poll owing_pause buffered
  | notOpen =>
    cases hs
    exact hE
  | destroy =>
    cases hs
    show Each Endpoint.Owing (s.destroy env).toHub
    unfold destroy
    split
    · exact hE
    · refine Each.foldl_call owing_pause (fun s w l _ => Ctx.destroy_owing ⟨s, w, l⟩ "agent_gone") _ ?_
      exact Each.clearCongestion owing_pause hE

end AgentSession

/-! ## The agent's streams -/

/-- While it dials, a stream takes nothing; what it was sent is queued. -/
structure ClientStream.Owes (c : ClientStream) : Prop where
  owing : c.toEndpoint.Owing
  dialling : c.finished = false → c.connected = false → c.recvUnacked = 0

namespace ClientStream

variable {env : WireEnv} {c c' : ClientCtx}

theorem Owes.of_finished {s : ClientStream} (hf : s.finished = true) : s.Owes :=
  ⟨.of_finished hf, fun hf' => by simp [hf] at hf'⟩

theorem Owes.of_connected {s : ClientStream} (hk : s.connected = true) (h : s.toEndpoint.Owing) : s.Owes :=
  ⟨h, fun _ hk' => by simp [hk] at hk'⟩

theorem owes_pause (b : Bool) (s : ClientStream) (hs : s.Owes) : Owes (StreamObj.setGlobalPause b s) where
  owing := hs.owing.setGlobalPause b
  dialling hf hk := by
    have h1 : (s.toEndpoint.setGlobalPause b).recvUnacked = s.recvUnacked :=
      congrArg (·.recvUnacked) (Endpoint.core_setGlobalPause b s.toEndpoint)
    exact h1.trans (hs.dialling ((Endpoint.finished_setGlobalPause s.toEndpoint b).symm.trans hf) hk)

theorem Owes.onAck {s : ClientStream} (hs : s.Owes) (n : Nat) : (s.onAck n).Owes where
  owing := hs.owing.onAck n
  dialling hf hk := by
    have h1 : (s.toEndpoint.onAck n).recvUnacked = s.recvUnacked := by
      refine (congrArg (·.recvUnacked) (Endpoint.core_onAck s.toEndpoint n)).trans ?_
      split <;> rfl
    exact h1.trans (hs.dialling ((Endpoint.finished_onAck s.toEndpoint n).symm.trans hf) hk)

theorem flushAck_owing (h : flushAck env c = .ok c') : c'.self.toEndpoint.Owing := by
  obtain ⟨b, hb, rfl⟩ := map_ok.mp h
  exact Ctx.flushAck_owing hb

theorem needDrain_wrote {s : ClientStream} {payload : Bytes} {flushed : Bool}
    (h : (wrote s payload flushed).2 = false) : (wrote s payload flushed).1.socket.needDrain = true := by
  have key : ∀ p : ClientStream × Bytes,
      let q := if p.2.length = 0 then (p.1, true) else ({ p.1 with socket := p.1.socket.write p.2 flushed }, flushed)
      q.2 = false → q.1.socket.needDrain = true := by
    intro p q hq
    simp only [q] at hq ⊢
    split at hq
    · cases hq
    · rename_i hn
      have hfl : flushed = false := hq
      rw [if_neg hn, hfl]
      simp [Socket.write]
  exact key _ h

theorem writeLocal_owing {payload : Bytes} {flushed : Bool} (h : writeLocal env c payload flushed = .ok c') :
    c'.self.toEndpoint.Owing := by
  rw [writeLocal_eq] at h
  split at h
  · exact flushAck_owing h
  · rename_i hn
    cases h
    exact fun _ _ => needDrain_wrote ((Bool.not_eq_true _).mp hn)

theorem writeQueued_owing {payloads : List Bytes} {flushed : Nat → Bool} (ho : c.self.toEndpoint.Owing)
    (h : writeQueued env c payloads flushed = .ok c') : c'.self.toEndpoint.Owing := by
  induction payloads generalizing c flushed with
  | nil => cases h; exact ho
  | cons payload rest ih =>
    obtain ⟨c1, h1, h2⟩ := bind_ok.mp h
    exact ih (writeLocal_owing h1) h2

theorem onData_owes {payload : Bytes} {flushed : Bool} (ho : c.self.Owes)
    (h : onData env c payload flushed = .ok c') : c'.self.Owes := by
  have hk := (onData_quiet h).connected
  unfold onData at h
  split at h
  · cases h
    exact ho
  · split at h
    · cases h
      exact ⟨ho.owing, ho.dialling⟩
    · rename_i hc
      exact .of_connected (hk.trans (by simpa using hc)) (writeLocal_owing h)

theorem onEof_owes {flushed : Bool} (ho : c.self.Owes) (h : onEof env c flushed = .ok c') : c'.self.Owes := by
  have hk := (onEof_quiet h).connected
  unfold onEof at h
  split at h
  · cases h
    exact ho
  · split at h
    · cases h
      exact ⟨ho.owing, ho.dialling⟩
    · rename_i hc
      refine .of_connected (hk.trans (by simpa using hc)) ?_
      obtain ⟨c1, h1, rfl⟩ := map_ok.mp h
      have h2 : Endpoint.Owing { c1.self.toEndpoint with socket := { c1.self.socket with ended := true } } :=
        (flushAck_owing h1).of_le id rfl rfl
      dsimp only
      split
      · exact Ctx.finish_owing (c := ⟨_, c1.wire, c1.listed⟩) h2
      · exact h2

/-- The dial comes through: the queued payloads are written one by one. -/
theorem attach_owes {flushed : Nat → Bool} (ho : c.self.Owes) (hk : c.self.connected = false)
    (h : attach env c flushed = .ok c') : c'.self.Owes := by
  unfold attach at h
  split at h
  · cases h
    exact ho
  · rename_i hf
    obtain ⟨c1, hq, h2⟩ := bind_ok.mp h
    obtain ⟨c2, hx, rfl⟩ := map_ok.mp h2
    have h0 : c.self.recvUnacked = 0 := ho.dialling ((Bool.not_eq_true _).mp hf) hk
    have h1 : c1.self.toEndpoint.Owing :=
      writeQueued_owing (c := { c with self := { c.self with socket := Socket.fresh, connected := true } })
        (Endpoint.Owing.of_acked h0) hq
    have hk1 : c1.self.connected = true := (writeQueued_quiet hq).connected
    have ho1 : Owes { c1.self with queued := [] } := .of_connected hk1 h1
    have ho2 : c2.self.Owes ∧ c2.self.connected = true := by
      dsimp only at hx
      split at hx
      · exact ⟨onEof_owes ho1 hx, (onEof_quiet hx).connected.trans hk1⟩
      · cases hx
        exact ⟨ho1, hk1⟩
    dsimp only
    split
    · exact .of_connected ho2.2 (ho2.1.owing.of_le id rfl rfl)
    · exact ho2.1

theorem dialFailed_owes (ho : c.self.Owes) (message : String) : (dialFailed env c message).self.Owes := by
  unfold dialFailed
  split
  · exact ho
  · refine .of_finished ?_
    exact Ctx.send_field env Endpoint.finished (fun _ => rfl) _ _

theorem destroy_owes (c : ClientCtx) (reason : String) : (destroy env c reason).self.Owes :=
  .of_finished (Ctx.destroy_finished env c.base reason)

end ClientStream

namespace Agent

open ClientStream

variable {env : WireEnv} {specs : List TunnelSpec} {a a' : Agent} {h h' : Hub ClientStream} {x : Nat}

/-- What happens to an attached socket between two methods leaves the `drain` it owes alone. -/
theorem onSocket_owes (hE : Each Owes h) {p : Socket → Option Socket}
    (hp : ∀ k k', p k = some k' → k'.needDrain = k.needDrain) (hs : onSocket h x p = some h') :
    Each Owes h' ∧ ∀ c, h'.objs[x]? = some c → c.connected = true := by
  obtain ⟨c, k, hc, hconn, hk, hself, hothers, -, -⟩ := onSocket_some hs
  refine ⟨fun y t ht => ?_, fun t ht => ?_⟩
  · by_cases hne : y = x
    · subst hne
      cases hself.symm.trans ht
      exact .of_connected hconn ((hE y c hc).owing.of_le id rfl (hp _ _ hk))
    · exact hE y t ((hothers y hne).symm.trans ht)
  · cases hself.symm.trans ht
    exact hconn

/-- A method of `Endpoint`, where the local socket is attached. -/
theorem call_owes (hE : Each Owes h) (hx : ∀ c, h.objs[x]? = some c → c.connected = true) {m : Ctx → Ctx}
    (hm : ∀ c : Ctx, c.self.Owing → (m c).self.Owing) :
    Each Owes (h.call x (method fun c => c.put (m c.base))) :=
  hE.call owes_pause fun s hs ho => .of_connected (hx s hs) (hm (ClientCtx.base ⟨s, h.wire, h.listed x⟩) ho.owing)

theorem run_owes (hE : Each Owes h) {m : ClientCtx → Except JsError ClientCtx}
    (hm : ∀ c c' : ClientCtx, h.objs[x]? = some c.self → m c = .ok c' → c.self.Owes → c'.self.Owes)
    (hr : h.run x (methodE m) = .ok h') : Each Owes h' := by
  refine hE.run owes_pause hr fun s r hs hr ho => ?_
  obtain ⟨c', hc', rfl⟩ := map_ok.mp hr
  exact hm ⟨s, h.wire, h.listed x⟩ c' hs hc' ho

theorem handleStreamFrame_owes (hE : Each Owes h) {type id : Nat} {payload : Bytes} {flushed : Bool}
    (hs : handleStreamFrame env h type id payload flushed = .ok h') : Each Owes h' := by
  unfold handleStreamFrame at hs
  split at hs
  · cases hs
    split
    · exact hE.send owes_pause _
    · exact hE
  · split at hs
    · exact run_owes hE (fun c c' _ hc ho => onData_owes ho hc) hs
    · split at hs
      · exact run_owes hE (fun c c' _ hc ho => onEof_owes ho hc) hs
      · split at hs
        · cases hs
          split
          · exact hE.call owes_pause fun s _ ho => ho.onAck _
          · exact hE
        · split at hs <;> cases hs
          · exact hE.call owes_pause fun s _ _ => destroy_owes _ "peer_reset"
          · exact hE

theorem teardownSession_owes (hE : Each Owes a.toHub) : Each Owes (a.teardownSession env).toHub := by
  have h1 : Each Owes a.toHub.clearCongestion := hE.clearCongestion owes_pause
  have h2 := Each.foldl_call owes_pause
    (m := method fun c => ClientStream.destroy env c "peer_reset")
    (fun s w l _ => destroy_owes ⟨s, w, l⟩ "peer_reset") a.toHub.clearCongestion.streams.values h1
  exact fun x c hc => h2 x c hc

theorem registerTunnels_owes (hE : Each Owes a.toHub) : Each Owes (a.registerTunnels env specs).toHub := by
  unfold registerTunnels
  generalize specs.zipIdx = l
  induction l generalizing a with
  | nil => exact hE
  | cons p l ih => exact ih (a := a.registerTunnel env p.2 p.1) (hE.send owes_pause _)

theorem onStreamOpen_owes (hE : Each Owes a.toHub) (id : Nat) (tunnelId : String) :
    Each Owes (a.onStreamOpen env id tunnelId) := by
  unfold onStreamOpen
  split
  · exact hE.send owes_pause _
  · rename_i spec _
    have hnew : (ClientStream.new id spec a.window a.wire).Owes := ⟨.of_acked rfl, fun _ _ => rfl⟩
    refine hE.insert id ?_
    split
    · exact owes_pause true _ hnew
    · exact hnew

theorem handleFrame_owes {f : Frame} {flushed : Bool} (hE : Each Owes a.toHub)
    (hs : a.handleFrame env flushed f = .ok a') : Each Owes a'.toHub := by
  cases f with
  | control type body =>
    rw [(handleFrame_control hs).1]
    exact hE
  | stream type id payload =>
    simp only [handleFrame] at hs
    split at hs
    · obtain ⟨tunnelId, -, rfl⟩ := map_ok.mp hs
      exact onStreamOpen_owes hE id tunnelId
    · obtain ⟨h, hh, rfl⟩ := map_ok.mp hs
      exact handleStreamFrame_owes hE hh

/-- No step makes a local socket's stream hold back what it could acknowledge. -/
theorem step_owes {e : Event} (hE : Each Owes a.toHub) (hs : step env specs a e = some a') :
    Each Owes a'.toHub := by
  cases e with
  | dialed x flushed =>
    simp only [step, Option.ite_none_right_eq_some] at hs
    obtain ⟨hd, hs⟩ := hs
    obtain ⟨h, hh, rfl⟩ := Option.map_eq_some_iff.mp hs
    refine run_owes hE (fun c c' hc hx ho => attach_owes ho ?_ hx) (toOption_eq_some.mp hh)
    simpa [dialling, hc] using hd
  | dialFailed x message =>
    simp only [step, Option.ite_none_right_eq_some, Option.some.injEq] at hs
    obtain ⟨-, rfl⟩ := hs
    exact hE.call owes_pause fun s _ ho => dialFailed_owes (c := ⟨s, a.wire, a.listed x⟩) ho message
  | data x chunk =>
    obtain ⟨h1, hh, rfl⟩ := Option.map_eq_some_iff.mp hs
    obtain ⟨hE1, hx⟩ := onSocket_owes hE (fun k k' hk => by split at hk <;> cases hk; rfl) hh
    exact call_owes (m := fun b => b.onSourceData env chunk) hE1 hx fun c ho => Ctx.onSourceData_owing ho chunk
  | «end» x =>
    obtain ⟨h1, hh, rfl⟩ := Option.map_eq_some_iff.mp hs
    obtain ⟨hE1, hx⟩ := onSocket_owes hE (fun k k' hk => by split at hk <;> cases hk; rfl) hh
    exact call_owes (m := fun b => b.onSourceEnd env) hE1 hx fun c ho => Ctx.onSourceEnd_owing ho
  | drain x =>
    obtain ⟨h1, hh, hs1⟩ := Option.bind_eq_some_iff.mp hs
    obtain ⟨h2, hh2, rfl⟩ := Option.map_eq_some_iff.mp hs1
    obtain ⟨hE1, hx⟩ := onSocket_owes hE (fun k k' hk => by split at hk <;> cases hk; rfl) hh
    refine run_owes hE1 (fun c c' hc hd _ => ?_) (toOption_eq_some.mp hh2)
    exact .of_connected ((onDrain_quiet hd).connected.trans (hx _ hc)) (flushAck_owing hd)
  | error x =>
    obtain ⟨h1, hh, rfl⟩ := Option.map_eq_some_iff.mp hs
    obtain ⟨hE1, hx⟩ := onSocket_owes hE (fun k k' hk => by cases hk; rfl) hh
    exact call_owes (m := fun b => b.destroy env "local_error") hE1 hx fun c _ => Ctx.destroy_owing c "local_error"
  | close x =>
    obtain ⟨h1, hh, rfl⟩ := Option.map_eq_some_iff.mp hs
    obtain ⟨hE1, hx⟩ := onSocket_owes hE (fun k k' hk => by cases hk; rfl) hh
    exact call_owes (m := Ctx.finish) hE1 hx fun c ho => Ctx.finish_owing ho
  | frame f flushed =>
    have hx := toOption_eq_some.mp hs
    unfold onMessage at hx
    split at hx
    · exact handleFrame_owes (a := { a with toHub := { a.toHub with wire := { a.wire with
        received := a.wire.received ++ [f] } } }) hE hx
    · obtain ⟨r, hr, rfl⟩ := map_ok.mp hx
      cases r with
      | error e => exact teardownSession_owes (a := { a with toHub := { a.toHub with wire := { a.wire with
          received := a.wire.received ++ [f] } } }) hE
      | ok a1 =>
        refine registerTunnels_owes (a := { a1 with handshook := true }) ?_
        show Each Owes a1.toHub
        rw [handleHandshake_toHub hr a1 rfl]
        exact hE
  | poll buffered =>
    simp only [step, Option.ite_none_right_eq_some, Option.some.injEq] at hs
    obtain ⟨-, rfl⟩ := hs
    exact hE.poll owes_pause buffered
  | notOpen =>
    cases hs
    exact hE
  | teardown =>
    cases hs
    exact teardownSession_owes hE

end Agent

namespace Sys

/-! ## Bytes that are somewhere -/

/-- Bytes are under way only in a STREAM_DATA. -/
theorem exists_data {k : Nat} {fs : List Frame} (h : 0 < dataBytes k fs) :
    ∃ payload, payload ≠ [] ∧ Frame.data k payload ∈ fs := by
  induction fs with
  | nil => simp [dataBytes] at h
  | cons f fs ih =>
    have hrest : 0 < dataBytes k fs → ∃ payload, payload ≠ [] ∧ Frame.data k payload ∈ f :: fs := fun h => by
      obtain ⟨payload, hne, hm⟩ := ih h
      exact ⟨payload, hne, List.mem_cons_of_mem _ hm⟩
    cases f with
    | control type body => exact hrest h
    | stream type id payload =>
      rw [dataBytes] at h
      by_cases hf : id = k ∧ type = FrameType.streamData
      · obtain ⟨rfl, rfl⟩ := hf
        rw [if_pos ⟨rfl, rfl⟩] at h
        cases payload with
        | nil => exact hrest (by simpa using h)
        | cons b bs => exact ⟨b :: bs, by simp, List.mem_cons_self⟩
      · rw [if_neg hf] at h
        exact hrest (by omega)

/-- Credit is under way only in a STREAM_ACK. -/
theorem exists_ack {k : Nat} {fs : List Frame} (h : 0 < ackBytes k fs) :
    ∃ payload, payload.length ≥ 4 ∧ 0 < readUInt32BE payload ∧ .stream FrameType.streamAck k payload ∈ fs := by
  induction fs with
  | nil => simp [ackBytes] at h
  | cons f fs ih =>
    have hrest : 0 < ackBytes k fs → ∃ payload : Bytes, payload.length ≥ 4 ∧ 0 < readUInt32BE payload ∧
        .stream FrameType.streamAck k payload ∈ f :: fs := fun h => by
      obtain ⟨payload, hlen, hpos, hm⟩ := ih h
      exact ⟨payload, hlen, hpos, List.mem_cons_of_mem _ hm⟩
    cases f with
    | control type body => exact hrest h
    | stream type id payload =>
      rw [ackBytes] at h
      by_cases hf : id = k ∧ type = FrameType.streamAck ∧ payload.length ≥ 4
      · rw [if_pos hf] at h
        obtain ⟨rfl, rfl, hlen⟩ := hf
        by_cases hpos : 0 < readUInt32BE payload
        · exact ⟨payload, hlen, hpos, List.mem_cons_self⟩
        · exact hrest (by omega)
      · rw [if_neg hf] at h
        exact hrest (by omega)

/-! ## No credit deadlock -/

/-- Something that returns credit is outstanding, for the sender of the stream `k`: `xy` is on the way
to the receiver `y`, where a payload is `queued` while it dials, and `yx` on the way back. -/
def Awaits (k : Nat) (queued : Prop) (y : Endpoint) (xy yx : List Frame) : Prop :=
  (∃ payload, payload ≠ [] ∧ Frame.data k payload ∈ xy) ∨ queued ∨
    (0 < y.recvUnacked ∧ y.socket.needDrain = true) ∨
    ∃ payload, payload.length ≥ 4 ∧ 0 < readUInt32BE payload ∧ .stream FrameType.streamAck k payload ∈ yx

/-- Of every stream that is open at both ends, a sender that is out of credit awaits some, and neither
receiver holds back an acknowledgement without a `drain` to come. -/
def Unstalled (sys : Sys) : Prop :=
  ∀ (a x : Nat) (s : Stream) (c : ClientStream), sys.server.objs[a]? = some s → sys.agent.objs[x]? = some c →
    s.id = c.id → s.finished = false → c.finished = false → sys.server.wire.canSend = true →
    sys.agent.wire.canSend = true →
      (s.sendCredit ≤ 0 →
        Awaits s.id (c.connected = false ∧ ∃ payload ∈ c.queued, payload ≠ []) c.toEndpoint sys.down sys.up) ∧
      (c.sendCredit ≤ 0 → Awaits c.id False s sys.up sys.down) ∧
      (0 < s.recvUnacked → s.socket.needDrain = true) ∧ (0 < c.recvUnacked → c.socket.needDrain = true)

variable {env : SysEnv} {sys : Sys}

/-- The two sides only ever step one at a time, by events of their own or the other's frames. -/
theorem step_sides {e : Event} {sys' : Sys} (hs : step env sys e = some sys') :
    (∃ e, sys.stepServer env e = some sys') ∨ ∃ e, sys.stepAgent env e = some sys' := by
  cases e with
  | server e =>
    cases e with
    | frame => cases hs
    | _ => exact .inl ⟨_, hs⟩
  | agent e =>
    cases e with
    | frame => cases hs
    | _ => exact .inr ⟨_, hs⟩
  | toServer flushed =>
    obtain ⟨f, -, hs⟩ := Option.bind_eq_some_iff.mp hs
    exact .inl ⟨_, hs⟩
  | toAgent flushed =>
    obtain ⟨f, -, hs⟩ := Option.bind_eq_some_iff.mp hs
    exact .inr ⟨_, hs⟩

/-- Whatever id a stream has, its acknowledgements wait for nothing but a `drain`. -/
theorem reach_owing (hr : Lts.Reachable (Lts.ofFn (step env)) (· = start env) sys) :
    Each Endpoint.Owing sys.server.toHub ∧ Each ClientStream.Owes sys.agent.toHub := by
  refine hr.invariant
    (I := fun sys => Each Endpoint.Owing sys.server.toHub ∧ Each ClientStream.Owes sys.agent.toHub) ?_ ?_
  · rintro sys rfl
    refine ⟨Each.send AgentSession.owing_pause ?_ _, fun x c hc => ?_⟩
    · intro a t ht
      simp [AgentSession.new] at ht
    · simp [start, Agent.new] at hc
  · rintro sys e sys' - ⟨h1, h2⟩ - hs
    rcases step_sides hs with ⟨e, hs⟩ | ⟨e, hs⟩
    · obtain ⟨server', hx, rfl⟩ := Option.map_eq_some_iff.mp hs
      exact ⟨AgentSession.step_owing h1 hx, h2⟩
    · obtain ⟨agent', hx, rfl⟩ := Option.map_eq_some_iff.mp hs
      exact ⟨h1, Agent.step_owes h2 hx⟩

/-- A sender that is out of credit is waiting for an event that returns some, where streams are opened
under ids that nothing names any more. -/
theorem reach_unstalled (hw : 0 < env.streamWindow)
    (hr : Lts.Reach (Lts.ofFn (step env)) OpensFresh (· = start env) sys) : Unstalled sys := by
  intro a x s c hs hc hid hsf hcf hso hao
  obtain ⟨h1, h2⟩ := reach_owing hr.reachable
  obtain ⟨⟨hdown, hup⟩, hatt⟩ := reach_window hw hr hs hc hid hsf hcf hso hao
  have hsd : 0 < s.recvUnacked → s.socket.needDrain = true := h1 a s hs hsf
  have hcd : 0 < c.recvUnacked → c.socket.needDrain = true := (h2 x c hc).owing hcf
  refine ⟨fun hle => ?_, fun hle => ?_, hsd, hcd⟩
  · by_cases hd : 0 < dataBytes s.id sys.down
    · exact .inl (exists_data hd)
    by_cases hq : 0 < c.queued.flatten.length
    · refine .inr (.inl ⟨?_, ?_⟩)
      · cases hk : c.connected with
        | false => rfl
        | true => simp [hatt hk] at hq
      · obtain ⟨b, hb⟩ := List.exists_mem_of_length_pos hq
        obtain ⟨payload, hm, hbp⟩ := List.mem_flatten.mp hb
        exact ⟨payload, hm, List.ne_nil_of_mem hbp⟩
    by_cases hu : 0 < c.recvUnacked
    · exact .inr (.inr (.inl ⟨hu, hcd hu⟩))
    · rw [hid] at hd hdown ⊢
      exact .inr (.inr (.inr (exists_ack (by omega))))
  · by_cases hd : 0 < dataBytes c.id sys.up
    · exact .inl (exists_data hd)
    by_cases hu : 0 < s.recvUnacked
    · exact .inr (.inr (.inl ⟨hu, hsd hu⟩))
    · exact .inr (.inr (.inr (exists_ack (by omega))))

/-- Four bytes use up the agent's credit; the public socket has not flushed them. -/
def outpour : List Event :=
  [.toAgent true, .agent (.dialed 0 fun _ => false), .agent (.data 0 [1, 2, 3, 4]), .toServer true, .toServer false]

/-- The agent has no credit left, and the server's stream is the one that holds it back. -/
def spent (sys : Sys) : Bool :=
  sys.server.wire.canSend && sys.agent.wire.canSend &&
    (match sys.server.objs, sys.agent.objs with
      | [s], [c] => decide (s.finished = false ∧ c.finished = false ∧ s.id = 1 ∧ c.id = 1 ∧ c.sendCredit = 0)
      | _, _ => false)

theorem unstalled_spent : ∃ (sys : Sys) (s : Stream) (c : ClientStream),
    Lts.Reach (Lts.ofFn (step calm)) OpensFresh (· = start calm) sys ∧ sys.server.objs[0]? = some s ∧
      sys.agent.objs[0]? = some c ∧ c.sendCredit = 0 ∧ Awaits 1 False s sys.up sys.down := by
  have hq : ((Lts.exec (step calm) (start calm) greeting).map unnamed) = some true := by decide +kernel
  have hq' : ((Lts.exec (step calm) (start calm) (greeting ++ connection :: outpour)).map spent) = some true := by
    decide +kernel
  obtain ⟨sys1, hx1, hfresh⟩ := Option.map_eq_some_iff.mp hq
  obtain ⟨sys, hx, hsp⟩ := Option.map_eq_some_iff.mp hq'
  rw [Lts.exec_append, hx1, Option.bind_some, Lts.exec] at hx
  obtain ⟨sys2, hx2, hx3⟩ := Option.bind_eq_some_iff.mp hx
  have hr1 : Lts.Reach (Lts.ofFn (step calm)) OpensFresh (· = start calm) sys1 :=
    Lts.Reach.exec (.start rfl) (by simp [greeting, OpensFresh]) hx1
  have hr := (hr1.next (opensFresh_of_unnamed hfresh connection) hx2).exec (by simp [outpour, OpensFresh]) hx3
  simp only [spent, Bool.and_eq_true] at hsp
  obtain ⟨⟨hso, hao⟩, hsp⟩ := hsp
  split at hsp
  · rename_i s c hs hc
    obtain ⟨hsf, hcf, hsid, hcid, hcr⟩ := of_decide_eq_true hsp
    have hs : sys.server.objs[0]? = some s := by rw [hs]; rfl
    have hc : sys.agent.objs[0]? = some c := by rw [hc]; rfl
    have h := (reach_unstalled (by decide) hr 0 0 s c hs hc (hsid.trans hcid.symm) hsf hcf hso hao).2.1 hcr.le
    rw [hcid] at h
    exact ⟨sys, s, c, hr, hs, hc, hcr, h⟩
  · cases hsp

/-- All the credit went into a stream that is over at the server. -/
def stranded (sys : Sys) : Bool :=
  vacated sys && decide (sys.agent.wire.received.length = sys.server.wire.sent.length) &&
    decide (sys.agent.wire.sent.length ≤ sys.server.wire.received.length) &&
    (match sys.agent.objs with
      | [c] => decide (c.id = 1 ∧ c.finished = false ∧ c.sendCredit = 0)
      | _ => false)

theorem reach_stranded : ∃ sys, Lts.Reachable (Lts.ofFn (step calm)) (· = start calm) sys ∧ stranded sys = true := by
  have hq : ((Lts.exec (step calm) (start calm) (greeting ++ connection :: outpour ++ [.server (.close 0)])).map
      stranded) = some true := by decide +kernel
  obtain ⟨sys, hx, hleft⟩ := Option.map_eq_some_iff.mp hq
  exact ⟨sys, Lts.Reachable.exec (.start rfl) hx, hleft⟩

/-- The agent's end waits for credit that the server's, of a later connection, never held back. -/
theorem not_unstalled : ¬ ∀ (env : SysEnv) (sys : Sys), 0 < env.streamWindow →
    Lts.Reachable (Lts.ofFn (step env)) (· = start env) sys → Unstalled sys := by
  intro h
  obtain ⟨sys, hr, hleft⟩ := reach_stranded
  simp only [stranded, Bool.and_eq_true, decide_eq_true_eq] at hleft
  obtain ⟨⟨⟨hvac, hdown⟩, hup⟩, hobjs⟩ := hleft
  obtain ⟨hstreams, hnext, hso, hao⟩ := vacated_ends hvac
  obtain ⟨sys', a, t, hR⟩ := exists_round hr hstreams hnext
  split at hobjs
  · rename_i c hc
    obtain ⟨hid, hcf, hcr⟩ := of_decide_eq_true hobjs
    have hagent : sys'.agent.objs[0]? = some c := by rw [hR.agent, hc]; rfl
    obtain ⟨w, hcore, -⟩ := hR.new
    have htid : t.id = 1 := congrArg (·.id) hcore
    have hup' : sys'.up = [] := hR.up.trans (List.drop_eq_nil_of_le hup)
    have hunacked : t.recvUnacked = 0 := congrArg (·.recvUnacked) hcore
    obtain ⟨fs, hsent, hopens⟩ := hR.opens
    have hdown' : sys'.down = fs := by
      show sys'.server.wire.sent.drop sys'.agent.wire.received.length = fs
      rw [hR.agent, hsent, hdown, List.drop_left]
    have haw := (h calm sys' (by decide) hR.reach a 0 t c hR.atServer hagent (htid.trans hid.symm)
      (congrArg (·.finished) hcore) hcf (hR.canSend.trans hso) ((congrArg (·.wire.canSend) hR.agent).trans hao)).2.1
      hcr.le
    rw [hup', hdown'] at haw
    rcases haw with ⟨payload, -, hm⟩ | hfalse | ⟨hu, -⟩ | ⟨payload, -, -, hm⟩
    · simp at hm
    · exact hfalse
    · omega
    · obtain ⟨id, p, hf⟩ := hopens _ hm
      simp [FrameType.streamAck, FrameType.streamOpen] at hf
  · cases hobjs

end Sys

end UpTunnel
