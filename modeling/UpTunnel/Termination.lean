import UpTunnel.Discipline

/-!
# UpTunnel.Termination

How a stream comes to leave its owner's table while the session is up, and whether the peer can
tell.

* `Signs`: the EOF flags, `finished`, and whether the WebSocket is open; what each method does to
  them.
* `Left`: the ways in which an event can leave a stream that was unfinished. All but one of them
  are known to the peer: `close` alone says nothing.
* `agreed_iff`: in a run, every removal is known to the peer exactly if no `close` comes to an
  unfinished stream.
-/

namespace UpTunnel

open Js

/-! ## Signs -/

/-- What the two ends of a stream have told each other, and whether they still can. -/
structure Signs where
  sentEof : Bool
  receivedEof : Bool
  finished : Bool
  canSend : Bool

namespace Ctx

variable {env : WireEnv} {c c' : Ctx}

def signs (c : Ctx) : Signs := ⟨c.self.sentEof, c.self.receivedEof, c.self.finished, c.wire.canSend⟩

theorem Does.signs {s : Endpoint} {fs : List Frame} (h : c.Does c' s fs) :
    c'.signs = ⟨s.sentEof, s.receivedEof, s.finished, c.wire.canSend⟩ := by
  simp only [Ctx.signs, h.field (·.sentEof) fun _ => rfl, h.field (·.receivedEof) fun _ => rfl,
    h.field (·.finished) fun _ => rfl, h.wire.canSend]

theorem signs_onSourceData (chunk : Bytes) : (c.onSourceData env chunk).signs = c.signs := by
  cases hg : c.self.finished || c.self.sentEof with
  | true => rw [onSourceData_skip env hg]
  | false =>
    simp only [Bool.or_eq_false_iff] at hg
    exact (onSourceData_does env hg.1 hg.2).signs

theorem signs_onSourceEnd (hf : c.self.finished = false) (he : c.self.sentEof = false) :
    (c.onSourceEnd env).signs = ⟨true, c.self.receivedEof, c.self.receivedEof, c.wire.canSend⟩ :=
  (onSourceEnd_does env hf he).signs

theorem signs_flushAck (hf : c.self.finished = false) (h : c.flushAck env = .ok c') : c'.signs = c.signs := by
  obtain ⟨fs, _, hd⟩ := flushAck_does env hf h
  exact hd.signs

theorem signs_finish : c.finish.signs = ⟨c.self.sentEof, c.self.receivedEof, true, c.wire.canSend⟩ :=
  (finish_does c).signs

theorem signs_destroy (reason : String) (hf : c.self.finished = false) :
    (c.destroy env reason).signs = ⟨c.self.sentEof, c.self.receivedEof, true, c.wire.canSend⟩ :=
  (destroy_does env reason hf).signs

end Ctx

namespace Stream

variable {env : WireEnv} {c c' : Ctx}

theorem signs_onData {payload : Bytes} {flushed : Bool} (hf : c.self.finished = false)
    (h : onData env c payload flushed = .ok c') : c'.signs = c.signs := by
  cases he : c.self.receivedEof with
  | true =>
    have hc : c = c' := by simpa [onData, hf, he] using h
    rw [hc]
  | false =>
    obtain ⟨_, _, _, _, _, hd⟩ := onData_does hf he h
    exact hd.signs

theorem signs_onEof (hf : c.self.finished = false) (h : onEof env c = .ok c') :
    c'.signs = c.signs ∨ c'.signs = ⟨c.self.sentEof, true, c.self.sentEof, c.wire.canSend⟩ := by
  cases he : c.self.receivedEof with
  | true =>
    have hc : c = c' := by simpa [onEof, hf, he] using h
    exact .inl (by rw [hc])
  | false =>
    obtain ⟨_, _, hd⟩ := onEof_does hf he h
    exact .inr hd.signs

end Stream

theorem ClientCtx.Does.signs {c c' : ClientCtx} {s : ClientStream} {out : Bytes} {fs : List Frame}
    (h : c.Does c' s out fs) :
    c'.base.signs = ⟨s.sentEof, s.receivedEof, s.finished, c.wire.canSend⟩ := by
  simp only [Ctx.signs, ClientCtx.base, h.field (·.sentEof) fun _ => rfl,
    h.field (·.receivedEof) fun _ => rfl, h.field (·.finished) fun _ => rfl, h.wire.canSend]

namespace ClientStream

variable {env : WireEnv} {c c' : ClientCtx}

theorem signs_writeLocal {payload : Bytes} {flushed : Bool} (hf : c.self.finished = false)
    (h : writeLocal env c payload flushed = .ok c') : c'.base.signs = c.base.signs := by
  obtain ⟨_, _, _, _, _, hd⟩ := writeLocal_does hf h
  exact hd.signs

theorem signs_onData {payload : Bytes} {flushed : Bool} (hf : c.self.finished = false)
    (h : onData env c payload flushed = .ok c') : c'.base.signs = c.base.signs := by
  unfold onData at h
  split at h
  · cases h; rfl
  split at h
  · cases h; rfl
  · exact signs_writeLocal hf h

theorem signs_onEof {flushed : Bool} (hf : c.self.finished = false) (h : onEof env c flushed = .ok c') :
    c'.base.signs = c.base.signs ∨
      c'.base.signs = ⟨c.self.sentEof, true, c.self.sentEof, c.wire.canSend⟩ := by
  cases he : c.self.receivedEof with
  | true =>
    have hc : c = c' := by simpa [onEof, hf, he] using h
    exact .inl (by rw [hc])
  | false =>
    cases hc : c.self.connected with
    | true =>
      obtain ⟨_, _, hd⟩ := onEof_does hf he hc h
      exact .inr hd.signs
    | false =>
      rw [onEof_queues hf he hc] at h
      cases h
      exact .inl rfl

theorem signs_attach {flushed : Nat → Bool} (hf : c.self.finished = false)
    (h : attach env c flushed = .ok c') :
    c'.base.signs = c.base.signs ∨
      c'.base.signs = ⟨c.self.sentEof, true, c.self.sentEof, c.wire.canSend⟩ := by
  let c0 : ClientCtx := { c with self := { c.self with socket := Socket.fresh, connected := true } }
  unfold attach at h
  rw [if_neg (by simp [hf])] at h
  obtain ⟨c1, hq, h2⟩ := bind_ok.mp h
  obtain ⟨_, _, _, _, _, hd⟩ := writeQueued_does (c := c0) hf hq
  have h1 : c1.base.signs = c.base.signs := hd.signs
  obtain ⟨c3, hx, rfl⟩ := map_ok.mp h2
  have hpause : ∀ c : ClientCtx, (if c.self.pausedGlobally then
      ({ c with self := { c.self with toEndpoint := c.self.pause } } : ClientCtx) else c).base.signs =
        c.base.signs := by
    intro c
    split <;> rfl
  rw [hpause]
  dsimp only at hx
  split at hx
  · have hf1 : c1.self.finished = false := (congrArg Signs.finished h1).trans hf
    have hs1 : c1.self.sentEof = c.self.sentEof := congrArg Signs.sentEof h1
    have hw1 : c1.wire.canSend = c.wire.canSend := congrArg Signs.canSend h1
    rcases signs_onEof (c := { c1 with self := { c1.self with queued := [] } }) hf1 hx with h | h
    · exact .inl (h.trans h1)
    · rw [hs1, hw1] at h
      exact .inr h
  · cases hx
    exact .inl h1

end ClientStream

/-! ## One event -/

/-- What can happen to a stream while the session is up: `destroy` from outside is the teardown of
the session. -/
def SessionUp : StreamEvent → Prop
  | .destroy _ => False
  | .owner wire _ => wire.canSend = true
  | _ => True

instance (e : StreamEvent) : Decidable (SessionUp e) := by
  cases e <;> unfold SessionUp <;> infer_instance

/-- How an event other than `close` can leave a stream that was unfinished: still running, or
finished in a way that the peer is told of. -/
inductive Left (id : Nat) (after : Signs) (calls : List Call) : StreamEvent → Prop where
  | running {e : StreamEvent} :
      after.finished = false → ¬(after.sentEof = true ∧ after.receivedEof = true) → Left id after calls e
  | bothEofs {e : StreamEvent} :
      after.finished = true → after.sentEof = true → after.receivedEof = true → Left id after calls e
  | reset {e : StreamEvent} {payload : Bytes} :
      after.finished = true → .stream FrameType.streamReset id payload ∈ emitted calls → Left id after calls e
  | peerReset (payload : Bytes) (flushed : Bool) :
      after.finished = true → Left id after calls (.frame FrameType.streamReset payload flushed)

theorem Left.of_eof {id : Nat} {calls : List Call} {s : Signs} {b c : Bool} {e : StreamEvent}
    (h : s = ⟨b, true, b, c⟩) : Left id s calls e := by
  rw [h]
  cases b with
  | false => exact .running rfl (by simp)
  | true => exact .bothEofs rfl rfl rfl

theorem ok_of_toOption {ε ε' α β : Type} {x : Except ε α} {y : Except ε' β} {g : α → β} {a : α}
    (h : x.toOption.map g = y.toOption) (hx : x = .ok a) : y = .ok (g a) := by
  subst hx
  cases y with
  | error e => simp [Except.toOption] at h
  | ok b => simpa [Except.toOption] using h.symm

namespace Traced

variable {env : WireEnv} {id : Nat} {t t' : Traced}

abbrev signs (t : Traced) : Signs := t.toCtx.signs

theorem signs_onAck (bytes : Nat) : (t.onAck bytes).signs = t.signs := by
  simp only [signs, Ctx.signs, onAck,
    t.self.field_onAck (·.sentEof) (fun _ => rfl) (fun _ _ _ => rfl) bytes,
    t.self.field_onAck (·.receivedEof) (fun _ => rfl) (fun _ _ _ => rfl) bytes,
    t.self.field_onAck (·.finished) (fun _ => rfl) (fun _ _ _ => rfl) bytes]

theorem signs_setGlobalPause (b : Bool) : (t.setGlobalPause b).signs = t.signs := by
  simp only [signs, Ctx.signs, setGlobalPause, t.self.field_setGlobalPause (·.sentEof) (fun _ => rfl) b,
    t.self.field_setGlobalPause (·.receivedEof) (fun _ => rfl) b,
    t.self.field_setGlobalPause (·.finished) (fun _ => rfl) b]

theorem reset_mem_destroy {reason : String} (hf : t.self.finished = false) (hr : reason ≠ "peer_reset") :
    .reset t.self.id reason ∈ emitted (destroy env t reason).calls := by
  unfold destroy
  rw [if_neg (by simp [hf])]
  simp [hr, emitted, onStreamFinished, onSocket]

/-- An unfinished stream whose two EOFs have not both passed, on an open WebSocket. -/
structure Going (t : Traced) : Prop where
  unfinished : t.self.finished = false
  notBoth : ¬(t.self.sentEof = true ∧ t.self.receivedEof = true)
  up : t.wire.canSend = true

theorem Going.left_same {u : Traced} (h : t.Going) (hs : u.signs = t.signs) (e : StreamEvent) :
    Left id u.signs u.calls e ∧ u.signs.canSend = true := by
  rw [hs]
  exact ⟨.running h.unfinished h.notBoth, h.up⟩

theorem Going.left_onSourceEnd (h : t.Going) (e : StreamEvent) :
    Left id (onSourceEnd env t).signs (onSourceEnd env t).calls e ∧
      (onSourceEnd env t).signs.canSend = true := by
  cases he : t.self.sentEof with
  | true => exact h.left_same (by simp [signs, Ctx.onSourceEnd_skip, he]) e
  | false =>
    have hs : (onSourceEnd env t).signs = ⟨true, t.self.receivedEof, t.self.receivedEof, t.wire.canSend⟩ := by
      rw [signs, toCtx_onSourceEnd, Ctx.signs_onSourceEnd h.unfinished he]
    rw [hs]
    refine ⟨?_, h.up⟩
    cases hr : t.self.receivedEof with
    | true => exact .bothEofs rfl rfl rfl
    | false => exact .running rfl (by simp)

theorem Going.left_destroy (h : t.Going) {reason : String} (hr : reason ≠ "peer_reset") (e : StreamEvent) :
    Left t.self.id (destroy env t reason).signs (destroy env t reason).calls e ∧
      (destroy env t reason).signs.canSend = true := by
  have hs : (destroy env t reason).signs = ⟨t.self.sentEof, t.self.receivedEof, true, t.wire.canSend⟩ := by
    rw [signs, toCtx_destroy, Ctx.signs_destroy reason h.unfinished]
  rw [hs]
  exact ⟨.reset rfl (reset_mem_destroy h.unfinished hr), h.up⟩

theorem Going.left_onFrame (h : t.Going) {type : Nat} {payload : Bytes} {flushed : Bool}
    (hx : onFrame env t type payload flushed = .ok t') :
    Left t.self.id t'.signs t'.calls (.frame type payload flushed) ∧ t'.signs.canSend = true := by
  unfold onFrame at hx
  split at hx
  · exact h.left_same (Stream.signs_onData h.unfinished (ok_of_toOption (toCtx_onData _ _) hx)) _
  split at hx
  · rcases Stream.signs_onEof h.unfinished (ok_of_toOption toCtx_onEof hx) with hs | hs
    · exact h.left_same hs _
    · exact ⟨.of_eof hs, (congrArg Signs.canSend hs).trans h.up⟩
  split at hx
  · cases hx
    split
    · exact h.left_same (signs_onAck _) _
    · exact h.left_same rfl _
  split at hx
  · rename_i hr
    cases hx
    subst hr
    rw [signs, toCtx_onReset, Ctx.onReset, Ctx.signs_destroy _ h.unfinished]
    exact ⟨.peerReset payload flushed rfl, h.up⟩
  · cases hx
    exact h.left_same rfl _

/-- Every event but `close`. -/
theorem Going.step_left (h : t.Going) {e : StreamEvent} (hup : SessionUp e) (hne : e ≠ .close)
    (hx : step env t e = .ok t') : Left t.self.id t'.signs t'.calls e ∧ t'.signs.canSend = true := by
  have hs : ∀ f : Socket → Socket, (t.onSocket f).Going := fun _ => ⟨h.unfinished, h.notBoth, h.up⟩
  cases e with
  | data chunk =>
    cases hx
    exact (hs _).left_same (by rw [signs, toCtx_onSourceData, Ctx.signs_onSourceData]) _
  | «end» =>
    cases hx
    exact (hs _).left_onSourceEnd _
  | drain =>
    have hc : (t.onSocket _).toCtx.flushAck env = .ok t'.toCtx := ok_of_toOption toCtx_flushAck hx
    exact (hs _).left_same (Ctx.signs_flushAck (hs _).unfinished hc) _
  | error =>
    cases hx
    exact h.left_destroy (by decide) _
  | close => exact absurd rfl hne
  | preread head =>
    cases hx
    unfold writePreread
    split
    · exact h.left_same rfl _
    · exact h.left_same (by rw [signs, toCtx_onSourceData, Ctx.signs_onSourceData]) _
  | attach flushed | dialFailed message =>
    cases hx
    exact h.left_same rfl _
  | frame type payload flushed => exact h.left_onFrame hx
  | setGlobalPause paused =>
    cases hx
    exact h.left_same (signs_setGlobalPause _) _
  | destroy reason => exact hup.elim
  | owner wire listed =>
    cases hx
    exact ⟨.running h.unfinished h.notBoth, hup⟩

/-- The removal that the peer is not told of. -/
theorem step_close (env : WireEnv) (hf : t.self.finished = false) (hx : step env t .close = .ok t') :
    t'.signs = { t.signs with finished := true } ∧ emitted t'.calls = emitted t.calls := by
  cases hx
  refine ⟨by rw [signs, toCtx_finish, Ctx.signs_finish]; rfl, ?_⟩
  have hf' : (t.onSocket fun k => { k with destroyed := true }).self.finished = false := hf
  rw [finish, if_neg (by simp [hf'])]
  simp [onStreamFinished, onSocket]

end Traced

namespace ClientTraced

variable {env : WireEnv} {t t' : ClientTraced}

abbrev signs (t : ClientTraced) : Signs := t.base.signs

abbrev Going (t : ClientTraced) : Prop := t.base.Going

theorem Going.left_eof (h : t.Going) {id : Nat} {e : StreamEvent}
    (hs : t'.signs = t.signs ∨ t'.signs = ⟨t.self.sentEof, true, t.self.sentEof, t.wire.canSend⟩) :
    Left id t'.signs t'.calls e ∧ t'.signs.canSend = true := by
  rcases hs with hs | hs
  · exact Traced.Going.left_same (u := t'.base) h hs e
  · exact ⟨.of_eof hs, (congrArg Signs.canSend hs).trans h.up⟩

theorem Going.left_onFrame (h : t.Going) {type : Nat} {payload : Bytes} {flushed : Bool}
    (hx : onFrame env t type payload flushed = .ok t') :
    Left t.self.id t'.signs t'.calls (.frame type payload flushed) ∧ t'.signs.canSend = true := by
  have hf : t.self.finished = false := h.unfinished
  unfold onFrame at hx
  split at hx
  · exact Traced.Going.left_same (u := t'.base) h
      (ClientStream.signs_onData hf (ok_of_toOption (toClientCtx_onData _ _) hx)) _
  split at hx
  · exact Going.left_eof h (ClientStream.signs_onEof hf (ok_of_toOption (toClientCtx_onEof _) hx))
  split at hx
  · cases hx
    split
    · exact Traced.Going.left_same (u := t.base.onAck _) h (Traced.signs_onAck _) _
    · exact Traced.Going.left_same h rfl _
  split at hx
  · rename_i hr
    cases hx
    subst hr
    have hs : (onReset env t).signs = ⟨t.self.sentEof, t.self.receivedEof, true, t.wire.canSend⟩ := by
      show (t.base.destroy env "peer_reset").toCtx.signs = _
      rw [Traced.toCtx_destroy, Ctx.signs_destroy _ h.unfinished]
      rfl
    rw [hs]
    exact ⟨.peerReset payload flushed rfl, h.up⟩
  · cases hx
    exact Traced.Going.left_same h rfl _

theorem reset_mem_dialFailed (hf : t.self.finished = false) (message : String) :
    .streamJson FrameType.streamReset t.self.id [("code", .str "dial_failed"), ("message", .str message)] ∈
      emitted (dialFailed env t message).calls := by
  simp [dialFailed, hf, put, emitted, Traced.onStreamFinished]

theorem Going.step_left (h : t.Going) {e : StreamEvent} (hup : SessionUp e)
    (hne : ¬(e = .close ∧ t.self.connected = true)) (hx : step env t e = .ok t') :
    Left t.self.id t'.signs t'.calls e ∧ t'.signs.canSend = true := by
  have hf : t.self.finished = false := h.unfinished
  have hs : ∀ f : Socket → Socket, (t.onSocket f).Going := fun _ => ⟨h.unfinished, h.notBoth, h.up⟩
  have hskip : Left t.self.id t.signs t.calls e ∧ t.signs.canSend = true := Traced.Going.left_same h rfl e
  unfold step at hx
  cases e with
  | data chunk =>
    cases hx
    split
    · exact Traced.Going.left_same (u := (t.onSocket _).base.onSourceData env chunk) (hs _)
        (by rw [Traced.signs, Traced.toCtx_onSourceData, Ctx.signs_onSourceData]) _
    · exact hskip
  | «end» =>
    cases hx
    split
    · exact Traced.Going.left_onSourceEnd (hs _) _
    · exact hskip
  | drain =>
    dsimp only at hx
    split at hx
    · obtain ⟨_, _, hd⟩ := ClientStream.onDrain_does hf (ok_of_toOption toClientCtx_onDrain hx)
      exact Traced.Going.left_same (u := t'.base) h hd.signs _
    · cases hx
      exact hskip
  | error =>
    cases hx
    split
    · exact Traced.Going.left_destroy h (by decide) _
    · exact hskip
  | close =>
    cases hx
    split
    · exact absurd ⟨rfl, ‹_›⟩ hne
    · exact hskip
  | preread head =>
    cases hx
    exact hskip
  | attach flushed =>
    dsimp only at hx
    split at hx
    · cases hx
      exact hskip
    · exact Going.left_eof h (ClientStream.signs_attach hf (ok_of_toOption (toClientCtx_attach _) hx))
  | dialFailed message =>
    cases hx
    split
    · exact hskip
    · have hd : (ClientStream.dialFailed env t.toClientCtx message).base.signs =
          ⟨t.self.sentEof, t.self.receivedEof, true, t.wire.canSend⟩ :=
        (ClientStream.dialFailed_does message hf).signs
      rw [← toClientCtx_dialFailed] at hd
      refine ⟨.reset (congrArg Signs.finished hd) (reset_mem_dialFailed hf message), ?_⟩
      exact (congrArg Signs.canSend hd).trans h.up
  | frame type payload flushed => exact Going.left_onFrame h hx
  | setGlobalPause paused =>
    cases hx
    exact Traced.Going.left_same (u := t.base.setGlobalPause paused) h (Traced.signs_setGlobalPause _) _
  | destroy reason => exact hup.elim
  | owner wire listed =>
    cases hx
    exact ⟨.running h.unfinished h.notBoth, hup⟩

theorem step_close (env : WireEnv) (hf : t.self.finished = false) (hc : t.self.connected = true)
    (hx : step env t .close = .ok t') :
    t'.signs = { t.signs with finished := true } ∧ emitted t'.calls = emitted t.calls := by
  cases hx
  rw [if_pos hc]
  exact Traced.step_close env (t := t.base) hf rfl

end ClientTraced

/-! ## Runs -/

/-- The peer knows that the stream is over: both EOFs have passed, or a STREAM_RESET has been sent
over the open WebSocket, or the event `e` that ended the stream was one that came in. -/
def Known (id : Nat) (s : Signs) (calls : List Call) (e : StreamEvent) : Prop :=
  (s.sentEof = true ∧ s.receivedEof = true) ∨
    (s.canSend = true ∧ ∃ payload, .stream FrameType.streamReset id payload ∈ emitted calls) ∨
    ∃ payload flushed, e = .frame FrameType.streamReset payload flushed

section
variable {σ : Type} (signs : σ → Signs) (calls : σ → List Call) (step : σ → StreamEvent → Except σ σ)

/-- Whichever of the events `es` removes the stream, the peer knows of it. -/
def Agreed (id : Nat) (s0 : σ) (es : List StreamEvent) : Prop :=
  ∀ pre e, pre ++ [e] <+: es → ∀ s s', pre.foldlM step s0 = .ok s → step s e = .ok s' →
    (signs s).finished = false → (signs s').finished = true → Known id (signs s') (calls s') e

/-- No `close` among the events `es` comes to an unfinished stream that listens to it. -/
def NoBareClose (listens : σ → Bool) (s0 : σ) (es : List StreamEvent) : Prop :=
  ∀ pre, pre ++ [.close] <+: es → ∀ s, pre.foldlM step s0 = .ok s →
    listens s = true → (signs s).finished = true

variable {signs calls step}

/-- An invariant of the allowed events holds wherever no event has thrown. -/
theorem reached_invariant {P : σ → Prop} {es : List StreamEvent}
    (hs : ∀ s e s', SessionUp e → P s → step s e = .ok s' → P s') (hup : ∀ e ∈ es, SessionUp e) :
    ∀ {s0 s : σ}, P s0 → es.foldlM step s0 = .ok s → P s := by
  induction es with
  | nil =>
    intro s0 s h0 hx
    cases hx
    exact h0
  | cons e es ih =>
    intro s0 s h0 hx
    rw [List.foldlM_cons] at hx
    obtain ⟨s1, h1, h2⟩ := bind_ok.mp hx
    have hP := hs s0 e s1 (hup e List.mem_cons_self) h0 h1
    exact ih (fun e he => hup e (List.mem_cons_of_mem _ he)) hP h2

/-- `Agreed` and `NoBareClose` come to the same where a removal is known to the peer exactly if it
is not by `close`. -/
theorem agreed_iff_of {id : Nat} {s0 : σ} {es : List StreamEvent} {listens : σ → Bool} {P : σ → Prop}
    (hup : ∀ e ∈ es, SessionUp e) (h0 : P s0)
    (hs : ∀ s e s', SessionUp e → P s → step s e = .ok s' → P s')
    (hknown : ∀ s e s', SessionUp e → P s → (signs s).finished = false →
      ¬(e = .close ∧ listens s = true) → step s e = .ok s' → (signs s').finished = true →
      Known id (signs s') (calls s') e)
    (hclose : ∀ s, P s → (signs s).finished = false → listens s = true →
      ∃ s', step s .close = .ok s' ∧ (signs s').finished = true ∧ ¬Known id (signs s') (calls s') .close) :
    Agreed signs calls step id s0 es ↔ NoBareClose signs step listens s0 es := by
  have hreach : ∀ pre e, pre ++ [e] <+: es → ∀ s, pre.foldlM step s0 = .ok s → P s := by
    intro pre e hpre s hx
    refine reached_invariant hs (fun e' he' => hup e' ?_) h0 hx
    exact hpre.subset (List.mem_append_left _ he')
  constructor
  · intro h pre hpre s hx hl
    by_contra hf
    rw [Bool.not_eq_true] at hf
    obtain ⟨s', hs', hf', hk⟩ := hclose s (hreach pre _ hpre s hx) hf hl
    exact hk (h pre .close hpre s s' hx hs' hf hf')
  · intro h pre e hpre s s' hx hs' hf hf'
    have he : SessionUp e := hup e (hpre.subset (List.mem_append_right _ List.mem_cons_self))
    refine hknown s e s' he (hreach pre e hpre s hx) hf ?_ hs' hf'
    rintro ⟨rfl, hl⟩
    rw [h pre hpre s hx hl] at hf
    cases hf

end

/-- A stream that has been left by an event other than `close` has gone in a way the peer knows. -/
theorem Left.known {id : Nat} {s : Signs} {calls : List Call} {e : StreamEvent} (h : Left id s calls e)
    (hf : s.finished = true) (hc : s.canSend = true) : Known id s calls e := by
  cases h with
  | running hr _ =>
    rw [hf] at hr
    cases hr
  | bothEofs _ h1 h2 => exact .inl ⟨h1, h2⟩
  | reset _ hm => exact .inr (.inl ⟨hc, _, hm⟩)
  | peerReset payload flushed _ => exact .inr (.inr ⟨payload, flushed, rfl⟩)

theorem Left.notBoth {id : Nat} {s : Signs} {calls : List Call} {e : StreamEvent} (h : Left id s calls e)
    (hf : s.finished = false) : ¬(s.sentEof = true ∧ s.receivedEof = true) := by
  cases h with
  | running _ hn => exact hn
  | bothEofs h1 | reset h1 | peerReset _ _ h1 =>
    rw [hf] at h1
    cases h1

/-- A stream that has sent neither both EOFs' worth nor a RESET and goes without a word. -/
theorem not_known {id : Nat} {s s' : Signs} {calls calls' : List Call} {b : Bool}
    (hn : ¬(s.sentEof = true ∧ s.receivedEof = true)) (ht : Trail id b false calls)
    (hs : s' = { s with finished := true }) (hc : emitted calls' = emitted calls) :
    ¬Known id s' calls' .close := by
  rintro (⟨h1, h2⟩ | ⟨-, payload, hm⟩ | ⟨_, _, h⟩)
  · rw [hs] at h1 h2
    exact hn ⟨h1, h2⟩
  · have h0 : (letters calls).count FrameType.streamReset = 0 := Nat.le_zero.mp ht.count_reset
    rw [hc] at hm
    exact List.count_eq_zero.mp h0 (List.mem_map_of_mem hm)
  · cases h

namespace Traced

/-- The calls so far, and what holds while the stream is unfinished. -/
structure Sound (id : Nat) (t : Traced) : Prop where
  disciplined : t.Disciplined id
  going : t.self.finished = false → t.Going

theorem Sound.step {env : WireEnv} {id : Nat} {t t' : Traced} {e : StreamEvent} (h : t.Sound id)
    (hup : SessionUp e) (hx : step env t e = .ok t') : t'.Sound id := by
  have hd : (outcome (Traced.step env t e)).Disciplined id := step_disciplined h.disciplined e
  rw [hx, outcome_ok] at hd
  refine ⟨hd, fun hf' => ?_⟩
  have hf : t.self.finished = false := by
    by_contra hf
    rw [Bool.not_eq_false] at hf
    have hc : (outcome (Traced.step env t e)).calls = t.calls := step_finished hf e
    have h1 := h.disciplined.trail.finishes_eq
    have h2 := hd.trail.finishes_eq
    rw [hx, outcome_ok] at hc
    rw [hc, h1, hf, hf'] at h2
    simp at h2
  by_cases hne : e = .close
  · subst hne
    have hs := (step_close env hf hx).1
    have hf2 : t'.self.finished = true := congrArg Signs.finished hs
    rw [hf'] at hf2
    cases hf2
  · obtain ⟨hl, hc⟩ := (h.going hf).step_left hup hne hx
    exact ⟨hf', hl.notBoth hf', hc⟩

end Traced

namespace ClientTraced

/-- As `Traced.Sound`. -/
structure Sound (id : Nat) (t : ClientTraced) : Prop where
  disciplined : t.Disciplined id
  going : t.self.finished = false → t.Going

theorem Sound.step {env : WireEnv} {id : Nat} {t t' : ClientTraced} {e : StreamEvent} (h : t.Sound id)
    (hup : SessionUp e) (hx : step env t e = .ok t') : t'.Sound id := by
  have hd : (outcome (ClientTraced.step env t e)).Disciplined id := step_disciplined h.disciplined e
  rw [hx, outcome_ok] at hd
  refine ⟨hd, fun hf' => ?_⟩
  have hf : t.self.finished = false := by
    by_contra hf
    rw [Bool.not_eq_false] at hf
    have hc : (outcome (ClientTraced.step env t e)).calls = t.calls := step_finished hf e
    have h1 : finishes t.calls = if t.self.finished then [id] else [] := h.disciplined.trail.finishes_eq
    have h2 : finishes t'.calls = if t'.self.finished then [id] else [] := hd.trail.finishes_eq
    rw [hx, outcome_ok] at hc
    rw [hc, h1, hf, hf'] at h2
    simp at h2
  by_cases hne : e = .close ∧ t.self.connected = true
  · obtain ⟨rfl, hc⟩ := hne
    have hs := (step_close env hf hc hx).1
    have hf2 : t'.self.finished = true := congrArg Signs.finished hs
    rw [hf'] at hf2
    cases hf2
  · obtain ⟨hl, hc⟩ := Going.step_left (h.going hf) hup hne hx
    exact ⟨hf', hl.notBoth hf', hc⟩

end ClientTraced

theorem agreed_iff (env : WireEnv) (id : Nat) (window : Int) (wire : Wire) (listed : Bool)
    (es : List StreamEvent) (hwire : wire.canSend = true) (hup : ∀ e ∈ es, SessionUp e) :
    (∀ socket,
      Agreed Traced.signs Traced.calls (Traced.step env) id (.new id socket window wire listed) es ↔
        NoBareClose Traced.signs (Traced.step env) (fun _ => true) (.new id socket window wire listed) es) ∧
    ∀ spec,
      Agreed ClientTraced.signs ClientTraced.calls (ClientTraced.step env) id
          (.new id spec window wire listed) es ↔
        NoBareClose ClientTraced.signs (ClientTraced.step env) (fun t => t.self.connected)
          (.new id spec window wire listed) es := by
  constructor
  · intro socket
    have h0 : (Traced.new id socket window wire listed).Sound id :=
      ⟨⟨rfl, .start⟩, fun _ => ⟨rfl, by simp [Traced.new, Endpoint.new], hwire⟩⟩
    refine agreed_iff_of hup h0 (fun s e s' he h hx => h.step he hx) ?_ ?_
    · intro s e s' he h hf hne hx hf'
      obtain ⟨hl, hc⟩ := (h.going hf).step_left he (fun h => hne ⟨h, rfl⟩) hx
      rw [h.disciplined.name] at hl
      exact hl.known hf' hc
    · intro s h hf _
      obtain ⟨hs, hc⟩ := Traced.step_close env (t := s) hf rfl
      have ht := h.disciplined.trail
      have hf0 : s.self.finished = false := hf
      rw [hf0] at ht
      exact ⟨_, rfl, congrArg Signs.finished hs, not_known (h.going hf).notBoth ht hs hc⟩
  · intro spec
    have h0 : (ClientTraced.new id spec window wire listed).Sound id :=
      ⟨⟨rfl, .start⟩, fun _ => ⟨rfl, by simp [ClientTraced.new, ClientTraced.base, ClientCtx.base,
        ClientStream.new, Endpoint.new], hwire⟩⟩
    refine agreed_iff_of hup h0 (fun s e s' he h hx => h.step he hx) ?_ ?_
    · intro s e s' he h hf hne hx hf'
      obtain ⟨hl, hc⟩ := ClientTraced.Going.step_left (h.going hf) he hne hx
      rw [show s.self.id = id from h.disciplined.name] at hl
      exact hl.known hf' hc
    · intro s h hf hl
      obtain ⟨hs, hc⟩ := ClientTraced.step_close env (t := s) hf hl rfl
      have ht := h.disciplined.trail
      have hf0 : s.base.self.finished = false := hf
      rw [hf0] at ht
      exact ⟨_, rfl, congrArg Signs.finished hs, not_known (h.going hf).notBoth ht hs hc⟩

/-- A WebSocket that is open and never congested. -/
def idleEnv : WireEnv := { wsMaxBuffered := 1000, bufferedAmount := fun _ => 0 }

def openWire : Wire :=
  { closed := false, readyOpen := true, congested := false, congestionTimer := false, sent := [], received := [] }

/-- The public socket ends, and the agent's EOF comes before the socket's `close`. -/
theorem agreed_endThenEof :
    Agreed Traced.signs Traced.calls (Traced.step idleEnv) 1 (.new 1 Socket.fresh 16 openWire true)
      [.end, .frame FrameType.streamEof [] true] := by
  refine ((agreed_iff idleEnv 1 16 openWire true _ rfl (by decide)).1 Socket.fresh).mpr ?_
  intro pre hpre
  have hmem : StreamEvent.close ∈ [StreamEvent.end, .frame FrameType.streamEof [] true] :=
    hpre.subset (List.mem_append_right _ List.mem_cons_self)
  simp at hmem

/-- A stream that has sent its EOF and is then finished without a word. -/
theorem not_known_ended {id : Nat} :
    ¬Known id ⟨true, false, true, true⟩ [.send (.eof id), .onStreamFinished id] .close :=
  not_known (s := ⟨true, false, false, true⟩) (by simp) Trail.start.eof rfl rfl

/-- Node closes a socket that has ended, here before the other end's EOF is in. -/
theorem not_agreed :
    (¬∀ (env : WireEnv) (id : Nat) (window : Int) (wire : Wire) (listed : Bool) (es : List StreamEvent),
      wire.canSend = true → (∀ e ∈ es, SessionUp e) → ∀ socket,
        Agreed Traced.signs Traced.calls (Traced.step env) id (.new id socket window wire listed) es) ∧
    ¬∀ (env : WireEnv) (id : Nat) (window : Int) (wire : Wire) (listed : Bool) (es : List StreamEvent),
      wire.canSend = true → (∀ e ∈ es, SessionUp e) → ∀ spec,
        Agreed ClientTraced.signs ClientTraced.calls (ClientTraced.step env) id
          (.new id spec window wire listed) es := by
  constructor
  · intro h
    have hk := h idleEnv 1 16 openWire true [.end, .close] rfl (by decide) Socket.fresh [.end] .close
      (List.prefix_refl _) _ _ rfl rfl rfl rfl
    exact not_known_ended hk
  · intro h
    let spec : TunnelSpec :=
      { name := "ssh", kind := .tcp, targetHost := "localhost", targetPort := 22, subdomain := none
        remotePort := none, rewriteHost := false }
    have hk := h idleEnv 1 16 openWire true [.attach fun _ => true, .end, .close] rfl (by decide) spec
      [.attach fun _ => true, .end] .close (List.prefix_refl _) _ _ rfl rfl rfl rfl
    exact not_known_ended hk

end UpTunnel
