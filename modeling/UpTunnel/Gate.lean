import UpTunnel.Server.Stream
import UpTunnel.Client.Stream

/-!
# UpTunnel.Gate

The part of an endpoint that decides whether its socket is read: the pause flags, the credit, and
what has been sent and acknowledged.

* `Gate` and its four operations: global pause, acknowledgement, source data, and the resumption
  that the first two end in. The methods of `Endpoint` do to its gate exactly these.
* `Ctx.Quiet`: the methods that neither send data nor grant credit. All they can do to the gate is
  start congestion.
-/

namespace UpTunnel

open Js

structure Gate where
  paused : Bool
  pausedForCredit : Bool
  pausedGlobally : Bool
  sendCredit : Int
  chunks : List Bytes
  acked : Nat

namespace Gate

def maybeResume (g : Gate) : Gate :=
  if g.pausedGlobally || g.sendCredit ≤ 0 then g
  else if !g.pausedForCredit then g
  else { g with pausedForCredit := false, paused := false }

def setGlobalPause (b : Bool) (g : Gate) : Gate :=
  if g.pausedGlobally = b then g
  else if b then { g with pausedGlobally := b, paused := true }
  else { g with pausedGlobally := b }.maybeResume

def onAck (g : Gate) (bytes : Nat) : Gate :=
  { g with sendCredit := g.sendCredit + bytes, acked := g.acked + bytes }.maybeResume

def onSourceData (g : Gate) (chunk : Bytes) : Gate :=
  let g := { g with sendCredit := g.sendCredit - chunk.length, chunks := g.chunks ++ [chunk] }
  if g.sendCredit ≤ 0 && !g.pausedForCredit then { g with pausedForCredit := true, paused := true } else g

/-- Bytes sent and not acknowledged. -/
def outstanding (g : Gate) : Int := (g.chunks.flatten.length : Int) - g.acked

end Gate

namespace Endpoint

def gate (s : Endpoint) : Gate where
  paused := s.socket.paused
  pausedForCredit := s.pausedForCredit
  pausedGlobally := s.pausedGlobally
  sendCredit := s.sendCredit
  chunks := s.chunks
  acked := s.acked

theorem gate_maybeResume {s : Endpoint} (hf : s.finished = false) : s.maybeResume.gate = s.gate.maybeResume := by
  simp only [maybeResume, Gate.maybeResume, hf, Bool.false_or]
  show _ = if (s.pausedGlobally || decide (s.sendCredit ≤ 0)) = true then _ else
    if (!s.pausedForCredit) = true then _ else _
  split
  · rfl
  · split <;> rfl

theorem gate_setGlobalPause {s : Endpoint} (hf : s.finished = false) (b : Bool) :
    (s.setGlobalPause b).gate = s.gate.setGlobalPause b := by
  unfold setGlobalPause Gate.setGlobalPause
  show _ = if s.pausedGlobally = b then _ else _
  by_cases hb : s.pausedGlobally = b
  · simp [hb]
  · rw [if_neg (by simp [hb, hf]), if_neg hb]
    cases b with
    | true => rfl
    | false => exact gate_maybeResume (s := { s with pausedGlobally := false }) hf

theorem gate_onAck {s : Endpoint} (hf : s.finished = false) (n : Nat) :
    (s.onAck n).gate = s.gate.onAck n := by
  rw [onAck, if_neg (by simp [hf])]
  exact gate_maybeResume (s := { s with sendCredit := s.sendCredit + n, acked := s.acked + n }) hf

@[simp] theorem finished_maybeResume (s : Endpoint) : s.maybeResume.finished = s.finished := by
  have h := congrArg Endpoint.finished (core_maybeResume s)
  exact h

@[simp] theorem finished_setGlobalPause (s : Endpoint) (b : Bool) :
    (s.setGlobalPause b).finished = s.finished := by
  have h := congrArg Endpoint.finished (core_setGlobalPause b s)
  exact h

@[simp] theorem finished_onAck (s : Endpoint) (n : Nat) : (s.onAck n).finished = s.finished := by
  have h := congrArg (fun s : Endpoint => s.finished) (core_onAck s n)
  split at h <;> exact h

end Endpoint

namespace Ctx

/-- Between `c` and `c'` congestion has started, and paused the endpoint. -/
def started (c c' : Ctx) : Bool := c.listed && c'.wire.congested && !c.wire.congested

/-- All that has happened to the gate is that congestion may have started. -/
structure Quiet (c c' : Ctx) : Prop where
  listed : c'.listed = c.listed
  congested : c.wire.congested = true → c'.wire.congested = true
  finished : c'.self.finished = false → c.self.finished = false
  gate : c'.self.finished = false →
    c'.self.gate = if c.started c' then c.self.gate.setGlobalPause true else c.self.gate

variable {c c' c'' : Ctx}

theorem Quiet.refl (c : Ctx) : c.Quiet c :=
  ⟨rfl, id, id, fun _ => by simp [started]⟩

theorem Quiet.of_gate (hw : c'.wire = c.wire) (hl : c'.listed = c.listed)
    (hf : c'.self.finished = false → c.self.finished = false) (hg : c'.self.gate = c.self.gate) :
    c.Quiet c' :=
  ⟨hl, by simp [hw], hf, fun _ => by simp [started, hw, hg]⟩

theorem Quiet.trans (h : c.Quiet c') (h' : c'.Quiet c'') : c.Quiet c'' := by
  refine ⟨h'.listed.trans h.listed, fun hc => h'.congested (h.congested hc),
    fun hf => h.finished (h'.finished hf), fun hf => ?_⟩
  have hf' := h'.finished hf
  have hg := h'.gate hf
  rw [h.gate hf'] at hg
  have h1 := h.congested
  have h2 := h'.congested
  have hl := h.listed
  -- congestion starts in at most one of the two
  cases hl' : c.listed <;> cases hc : c.wire.congested <;> cases hc' : c'.wire.congested <;>
    cases hc'' : c''.wire.congested <;> simp_all [started]

theorem Quiet.send (env : WireEnv) (c : Ctx) (f : Frame) : c.Quiet (c.send env f) := by
  have hfin : (c.send env f).self.finished = c.self.finished :=
    send_field env Endpoint.finished (fun _ => rfl) c f
  refine ⟨rfl, Wire.send_congested_of env c.wire f, fun hf => hfin ▸ hf, fun hf => ?_⟩
  rw [hfin] at hf
  show (ite _ _ _ : Endpoint).gate = ite ((c.listed && (c.wire.send env f).congested && !c.wire.congested) = true) _ _
  split
  · exact Endpoint.gate_setGlobalPause hf true
  · rfl

variable (env : WireEnv)

theorem finish_quiet (c : Ctx) : c.Quiet c.finish := by
  unfold finish
  split
  · exact .refl c
  · exact .of_gate rfl rfl (by simp) rfl

theorem onSourceEnd_quiet (c : Ctx) : c.Quiet (c.onSourceEnd env) := by
  unfold onSourceEnd
  split
  · exact .refl c
  · dsimp only
    have h1 : c.Quiet { c with self := { c.self with sentEof := true } } := .of_gate rfl rfl id rfl
    have h2 := h1.trans (.send env _ (.eof c.self.id))
    split
    · exact h2.trans (finish_quiet _)
    · exact h2

theorem flushAck_quiet (h : c.flushAck env = .ok c') : c.Quiet c' := by
  unfold flushAck at h
  split at h
  · cases h
    exact .refl c
  · obtain ⟨f, -, rfl⟩ := map_ok.mp h
    have h1 : c.Quiet { c with self := { c.self with recvUnacked := 0 } } := .of_gate rfl rfl id rfl
    exact h1.trans (.send env _ f)

theorem destroy_quiet (reason : String) (c : Ctx) : c.Quiet (c.destroy env reason) := by
  unfold destroy
  split
  · exact .refl c
  · dsimp only
    have h1 : c.Quiet { c with self := { c.self with finished := true } } := .of_gate rfl rfl (by simp) rfl
    have h2 : ∀ c1 : Ctx, c1.Quiet { c1 with self := { c1.self with
        socket := { c1.self.socket with destroyed := true } } } := fun c1 => .of_gate rfl rfl id rfl
    split
    · exact (h1.trans (.send env _ _)).trans (h2 _)
    · exact h1.trans (h2 _)

/-- What source data does to the gate, after the `send` that may start congestion. -/
theorem onSourceData_gate (chunk : Bytes) (hf : c.self.finished = false) (he : c.self.sentEof = false) :
    ∃ c1, c.Quiet c1 ∧ c1.wire = (c.onSourceData env chunk).wire ∧
      c1.self.finished = false ∧ (c.onSourceData env chunk).self.gate = c1.self.gate.onSourceData chunk := by
  refine ⟨c.send env (.data c.self.id chunk), .send env c _, ?_, ?_, ?_⟩
  · rw [onSourceData, if_neg (by simp [hf, he])]
    dsimp only
    split <;> rfl
  · rw [← hf]
    exact send_field env Endpoint.finished (fun _ => rfl) c _
  · rw [onSourceData, if_neg (by simp [hf, he])]
    generalize c.send env (.data c.self.id chunk) = c1
    simp only [Gate.onSourceData]
    show _ = if (decide (c1.self.sendCredit - chunk.length ≤ 0) && !c1.self.pausedForCredit) = true then _ else _
    split <;> rfl

end Ctx

namespace Stream

variable {env : WireEnv} {c c' : Ctx}

theorem onData_quiet {payload : Bytes} {flushed : Bool} (h : onData env c payload flushed = .ok c') :
    c.Quiet c' := by
  unfold onData at h
  split at h
  · cases h
    exact .refl c
  · dsimp only at h
    split at h
    · have hq := Ctx.flushAck_quiet env h
      refine .trans ?_ hq
      exact .of_gate rfl rfl id rfl
    · cases h
      exact .of_gate rfl rfl id rfl

theorem onEof_quiet (h : onEof env c = .ok c') : c.Quiet c' := by
  unfold onEof at h
  split at h
  · cases h
    exact .refl c
  · obtain ⟨c1, h1, h2⟩ := map_ok.mp h
    have hq1 := Ctx.flushAck_quiet env h1
    have hq : c.Quiet c1 := by
      refine .trans ?_ hq1
      exact .of_gate rfl rfl id rfl
    have he : c1.Quiet { c1 with self := { c1.self with socket := { c1.self.socket with ended := true } } } :=
      .of_gate rfl rfl id rfl
    subst h2
    dsimp only
    split
    · exact (hq.trans he).trans (Ctx.finish_quiet _)
    · exact hq.trans he

theorem onDrain_quiet (h : onDrain env c = .ok c') : c.Quiet c' := by
  have hq := Ctx.flushAck_quiet env h
  refine .trans ?_ hq
  exact .of_gate rfl rfl id rfl

end Stream

/-- `Ctx.Quiet`, and the local socket is attached before and after or neither. -/
structure ClientCtx.Quiet (c c' : ClientCtx) : Prop where
  base : c.base.Quiet c'.base
  connected : c'.self.connected = c.self.connected

namespace ClientCtx

variable {c c' c'' : ClientCtx}

theorem Quiet.refl (c : ClientCtx) : c.Quiet c := ⟨.refl _, rfl⟩

theorem Quiet.trans (h : c.Quiet c') (h' : c'.Quiet c'') : c.Quiet c'' :=
  ⟨h.base.trans h'.base, h'.connected.trans h.connected⟩

theorem Quiet.put {b : Ctx} (h : c.base.Quiet b) : c.Quiet (c.put b) := ⟨h, rfl⟩

theorem Quiet.of_gate (hw : c'.wire = c.wire) (hl : c'.listed = c.listed)
    (hf : c'.self.finished = false → c.self.finished = false)
    (hg : c'.self.toEndpoint.gate = c.self.toEndpoint.gate) (hc : c'.self.connected = c.self.connected) :
    c.Quiet c' :=
  ⟨.of_gate hw hl hf hg, hc⟩

end ClientCtx

namespace ClientStream

variable {env : WireEnv} {c c' : ClientCtx}

theorem flushAck_quiet (h : flushAck env c = .ok c') : c.Quiet c' := by
  obtain ⟨b, hb, rfl⟩ := map_ok.mp h
  exact .put (Ctx.flushAck_quiet env hb)

theorem finish_quiet (c : ClientCtx) : c.Quiet (finish c) := .put (Ctx.finish_quiet _)

theorem onLocalEnd_quiet (c : ClientCtx) : c.Quiet (onLocalEnd env c) := .put (Ctx.onSourceEnd_quiet env _)

theorem destroy_quiet (reason : String) (c : ClientCtx) : c.Quiet (destroy env c reason) :=
  .put (Ctx.destroy_quiet env reason _)

theorem writeLocal_quiet {payload : Bytes} {flushed : Bool} (h : writeLocal env c payload flushed = .ok c') :
    c.Quiet c' := by
  rw [writeLocal_eq] at h
  have hg : (wrote c.self payload flushed).1.toEndpoint.gate = c.self.toEndpoint.gate := by
    have hh : ∀ s : ClientStream, (s.consumeHead payload).1.toEndpoint.gate = s.toEndpoint.gate := by
      intro s
      unfold consumeHead
      dsimp only
      split <;> rfl
    unfold wrote
    dsimp only
    split <;> split <;> first | rfl | exact hh _
  have hcore := core_wrote c.self payload flushed
  have hf : (wrote c.self payload flushed).1.finished = c.self.finished := congrArg (·.finished) hcore
  have hc : (wrote c.self payload flushed).1.connected = c.self.connected := congrArg (·.connected) hcore
  have h1 : c.Quiet { c with self := (wrote c.self payload flushed).1 } :=
    .of_gate rfl rfl (fun h => hf ▸ h) hg hc
  split at h
  · exact h1.trans (flushAck_quiet h)
  · cases h
    exact h1

theorem onEof_quiet {flushed : Bool} (h : onEof env c flushed = .ok c') : c.Quiet c' := by
  unfold onEof at h
  split at h
  · cases h
    exact .refl _
  · split at h
    · cases h
      exact .of_gate rfl rfl (fun h => h) rfl rfl
    · obtain ⟨c1, h1, h2⟩ := map_ok.mp h
      have hq1 := flushAck_quiet h1
      have hq : c.Quiet c1 := by
        refine .trans ?_ hq1
        dsimp only
        split <;> exact .of_gate rfl rfl (fun h => h) rfl rfl
      have he : c1.Quiet { c1 with self := { c1.self with socket := { c1.self.socket with ended := true } } } :=
        .of_gate rfl rfl (fun h => h) rfl rfl
      subst h2
      dsimp only
      split
      · exact (hq.trans he).trans (finish_quiet _)
      · exact hq.trans he

theorem onData_quiet {payload : Bytes} {flushed : Bool} (h : onData env c payload flushed = .ok c') :
    c.Quiet c' := by
  unfold onData at h
  split at h
  · cases h
    exact .refl _
  · split at h
    · cases h
      exact .of_gate rfl rfl (fun h => h) rfl rfl
    · exact writeLocal_quiet h

theorem onDrain_quiet (h : onDrain env c = .ok c') : c.Quiet c' := by
  have hq := flushAck_quiet h
  refine .trans ?_ hq
  exact .of_gate rfl rfl (fun h => h) rfl rfl

theorem dialFailed_quiet (message : String) (c : ClientCtx) : c.Quiet (dialFailed env c message) := by
  unfold dialFailed
  split
  · exact .refl _
  · refine .put (.trans ?_ (Ctx.Quiet.send env _ _))
    exact .of_gate rfl rfl (by simp) rfl

theorem writeQueued_quiet {payloads : List Bytes} {flushed : Nat → Bool}
    (h : writeQueued env c payloads flushed = .ok c') : c.Quiet c' := by
  induction payloads generalizing c flushed with
  | nil => cases h; exact .refl _
  | cons payload rest ih =>
    obtain ⟨c1, h1, h2⟩ := bind_ok.mp h
    exact (writeLocal_quiet h1).trans (ih h2)

/-- Attaching is quiet from the moment the new socket is in place, but for the pause at its end. -/
theorem attach_quiet {flushed : Nat → Bool} (hf : c.self.finished = false)
    (h : attach env c flushed = .ok c') :
    ∃ c1 : ClientCtx,
      ClientCtx.Quiet { c with self := { c.self with socket := Socket.fresh, connected := true } } c1 ∧
      c' = if c1.self.pausedGlobally then { c1 with self := { c1.self with toEndpoint := c1.self.pause } } else c1 := by
  unfold attach at h
  rw [if_neg (by simp [hf])] at h
  obtain ⟨c1, hq, h2⟩ := bind_ok.mp h
  obtain ⟨c2, hx, h3⟩ := map_ok.mp h2
  refine ⟨c2, (writeQueued_quiet hq).trans ?_, h3.symm⟩
  have h4 : c1.Quiet { c1 with self := { c1.self with queued := [] } } := .of_gate rfl rfl (fun h => h) rfl rfl
  refine h4.trans ?_
  split at hx
  · exact onEof_quiet hx
  · cases hx
    exact .refl _

end ClientStream

end UpTunnel
