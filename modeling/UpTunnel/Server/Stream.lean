import UpTunnel.Endpoint

/-!
# UpTunnel.Server.Stream

`Stream` of `server/src/stream.ts`: a public socket bridged to a stream id. The credit, pause and
teardown methods are those of `Endpoint`; here are the ones that are the server's own, and what
each of them does.
-/

namespace UpTunnel

open Js

abbrev Stream := Endpoint

namespace Stream

variable (env : WireEnv)

def onSocketData (c : Ctx) (chunk : Bytes) : Ctx := c.onSourceData env chunk

def onSocketEnd (c : Ctx) : Ctx := c.onSourceEnd env

def writePreread (c : Ctx) (head : Bytes) : Ctx :=
  if head.length = 0 then c else onSocketData env c head

/-- `flushed` is what `socket.write` returns. -/
def onData (c : Ctx) (payload : Bytes) (flushed : Bool) : Except JsError Ctx :=
  if c.self.finished || c.self.receivedEof then .ok c
  else
    let c := { c with self := { c.self with
      socket := c.self.socket.write payload flushed
      recvUnacked := c.self.recvUnacked + payload.length } }
    if flushed then c.flushAck env else .ok c

def onEof (c : Ctx) : Except JsError Ctx :=
  if c.self.finished || c.self.receivedEof then .ok c
  else
    let c := { c with self := { c.self with receivedEof := true } }
    (c.flushAck env).map fun c =>
      let c := { c with self := { c.self with socket := { c.self.socket with ended := true } } }
      if c.self.sentEof then c.finish else c

/-- The `drain` listener. -/
def onDrain (c : Ctx) : Except JsError Ctx :=
  { c with self := { c.self with socket := { c.self.socket with needDrain := false } } }.flushAck env

/-! ## What they do -/

variable {env} {c c' : Ctx}

theorem onData_does {payload : Bytes} {flushed : Bool} (hf : c.self.finished = false)
    (he : c.self.receivedEof = false) (h : onData env c payload flushed = .ok c') :
    ∃ n fs, Acks c.self.id fs n ∧ ∃ r, r + n = c.self.recvUnacked + payload.length ∧
      c.Does c'
        { c.self with
          recvUnacked := r
          socket := { c.self.socket with written := c.self.socket.written ++ [payload] } } fs := by
  let c1 : Ctx := { c with self := { c.self with
    socket := c.self.socket.write payload flushed
    recvUnacked := c.self.recvUnacked + payload.length } }
  have h1 : (if flushed then c1.flushAck env else .ok c1) = .ok c' := by
    simpa [onData, hf, he, c1] using h
  cases flushed with
  | false =>
    have h2 : c1 = c' := by simpa using h1
    subst h2
    exact ⟨0, [], Acks.nil _, _, rfl, rfl, .refl _⟩
  | true =>
    obtain ⟨fs, ha, hd⟩ := Ctx.flushAck_does env (c := c1) hf h1
    exact ⟨_, fs, ha, 0, by simp [c1], hd.core, hd.wire⟩

theorem onEof_does (hf : c.self.finished = false) (he : c.self.receivedEof = false)
    (h : onEof env c = .ok c') :
    ∃ fs, Acks c.self.id fs c.self.recvUnacked ∧ c.Does c'
      { c.self with
        receivedEof := true
        recvUnacked := 0
        socket := { c.self.socket with ended := true }
        finished := c.self.sentEof } fs := by
  let c1 : Ctx := { c with self := { c.self with receivedEof := true } }
  have h1 : (c1.flushAck env).map (fun c =>
      let c := { c with self := { c.self with socket := { c.self.socket with ended := true } } }
      if c.self.sentEof then c.finish else c) = .ok c' := by
    simpa [onEof, hf, he, c1] using h
  cases hx : c1.flushAck env with
  | error e => simp [hx, Except.map] at h1
  | ok c2 =>
    obtain ⟨fs, ha, hd⟩ := Ctx.flushAck_does env (c := c1) hf hx
    let c3 : Ctx := { c2 with self := { c2.self with socket := { c2.self.socket with ended := true } } }
    have hcore := hd.core
    have hd3 : c.Does c3
        { c.self with
          receivedEof := true, recvUnacked := 0, socket := { c.self.socket with ended := true } } fs := by
      refine ⟨?_, hd.wire⟩
      rw [Endpoint.ext_iff] at hcore ⊢
      simp_all [Endpoint.core, c1, c3]
    have hs : c3.self.sentEof = c.self.sentEof := hd3.field Endpoint.sentEof (fun _ => rfl)
    have h2 : (if c3.self.sentEof then c3.finish else c3) = c' := by
      simpa [hx, Except.map] using h1
    rw [← h2, hs]
    exact ⟨fs, ha, hd3.finish_if hf c.self.sentEof⟩

theorem onDrain_does (hf : c.self.finished = false) (h : onDrain env c = .ok c') :
    ∃ fs, Acks c.self.id fs c.self.recvUnacked ∧ c.Does c' { c.self with recvUnacked := 0 } fs := by
  obtain ⟨fs, ha, hd⟩ := Ctx.flushAck_does env (c := { c with self := { c.self with
    socket := { c.self.socket with needDrain := false } } }) hf h
  exact ⟨fs, ha, hd.core, hd.wire⟩

end Stream

end UpTunnel
