import UpTunnel.Discipline

/-!
# UpTunnel.HalfClose

A stream on a socket that Node has created without `allowHalfOpen`, as every socket here is: right
after its `end` event the socket's writable side is ended, and nothing written afterwards is taken.

* `Face`, `ClientFace`: the parts of a stream that decide what it writes, and `next`, what each
  event makes of them.
* `Watched`: a stream together with what its socket has taken and what has arrived for it.
* `halfClose_iff`: the other direction survives the local end exactly in the runs that put it to
  no test.
-/

namespace UpTunnel

open Js

/-! ## The face of a stream -/

/-- The flags of a stream, and what it has done to the writable side of its socket. -/
structure Face where
  sentEof : Bool
  receivedEof : Bool
  finished : Bool
  written : List Bytes
  ended : Bool

def Endpoint.face (s : Endpoint) : Face where
  sentEof := s.sentEof
  receivedEof := s.receivedEof
  finished := s.finished
  written := s.socket.written
  ended := s.socket.ended

namespace Face

def sourceEnd (f : Face) : Face :=
  if f.finished || f.sentEof then f else { f with sentEof := true, finished := f.receivedEof }

def finish (f : Face) : Face := { f with finished := true }

/-- `fits` says that the acknowledgement to be sent with it is a u32. -/
def eof (f : Face) (fits : Bool) : Face :=
  if f.finished || f.receivedEof then f
  else if fits then { f with receivedEof := true, ended := true, finished := f.sentEof }
  else { f with receivedEof := true }

def data (f : Face) (payload : Bytes) : Face :=
  if f.finished || f.receivedEof then f else { f with written := f.written ++ [payload] }

def frame (f : Face) (fits : Bool) (type : Nat) (payload : Bytes) : Face :=
  if type = FrameType.streamData then f.data payload
  else if type = FrameType.streamEof then f.eof fits
  else if type = FrameType.streamReset then f.finish
  else f

/-- The server's stream at an event. -/
def next (f : Face) (fits : Bool) : StreamEvent → Face
  | .end => f.sourceEnd
  | .error => f.finish
  | .close => f.finish
  | .destroy _ => f.finish
  | .frame type payload _ => f.frame fits type payload
  | _ => f

end Face

namespace StreamEvent

/-- The payload of a STREAM_DATA that comes in. -/
def payload? : StreamEvent → Option Bytes
  | .frame type payload _ => if type = FrameType.streamData then some payload else none
  | _ => none

def isFrame (type : Nat) : StreamEvent → Bool
  | .frame type' _ _ => type' = type
  | _ => false

def isEnd : StreamEvent → Bool
  | .end => true
  | _ => false

end StreamEvent

namespace Face

variable {f : Face} {fits : Bool} {e : StreamEvent}

theorem written_sourceEnd : f.sourceEnd.written = f.written := by
  unfold sourceEnd
  split <;> rfl

theorem sentEof_frame (type : Nat) (payload : Bytes) : (f.frame fits type payload).sentEof = f.sentEof := by
  unfold frame data eof finish
  split
  · split <;> rfl
  split
  · split
    · rfl
    · split <;> rfl
  split <;> rfl

theorem sentEof_next (h : e.isEnd = false) : (f.next fits e).sentEof = f.sentEof := by
  cases e with
  | «end» => simp [StreamEvent.isEnd] at h
  | frame type payload flushed => exact sentEof_frame type payload
  | data | drain | error | close | preread | attach | dialFailed | setGlobalPause | destroy | owner => rfl

theorem sentEof_next_of (h : f.sentEof = true) : (f.next fits e).sentEof = true := by
  cases he : e.isEnd with
  | false => rw [sentEof_next he, h]
  | true =>
    cases e with
    | «end» => simp [next, sourceEnd, h]
    | _ => simp [StreamEvent.isEnd] at he

/-- Only the other end's EOF has the stream close the writable side of its socket. -/
theorem closing_next (f : Face) (fits : Bool) (h : e.isFrame FrameType.streamEof = false) :
    (f.next fits e).receivedEof = f.receivedEof ∧ (f.next fits e).ended = f.ended := by
  cases e with
  | «end» =>
    show f.sourceEnd.receivedEof = _ ∧ f.sourceEnd.ended = _
    unfold sourceEnd
    split <;> exact ⟨rfl, rfl⟩
  | frame type payload flushed =>
    have ht : ¬type = FrameType.streamEof := by simpa [StreamEvent.isFrame] using h
    show (f.frame fits type payload).receivedEof = _ ∧ (f.frame fits type payload).ended = _
    unfold frame data finish
    rw [if_neg ht]
    split
    · split <;> exact ⟨rfl, rfl⟩
    · split <;> exact ⟨rfl, rfl⟩
  | data | drain | error | close | preread | attach | dialFailed | setGlobalPause | destroy | owner =>
    exact ⟨rfl, rfl⟩

theorem quiet_frame {type : Nat} (payload : Bytes) (hr : f.receivedEof = false)
    (hf : (f.frame fits type payload).finished = false) (he : ¬type = FrameType.streamEof) :
    f.finished = false ∧ (f.frame fits type payload).written =
      f.written ++ (if type = FrameType.streamData then some payload else none).toList := by
  unfold frame at hf ⊢
  rw [if_neg he] at hf ⊢
  by_cases hd : type = FrameType.streamData
  · rw [if_pos hd] at hf ⊢
    rw [if_pos hd]
    unfold data at hf ⊢
    cases hff : f.finished with
    | true => simp [hff] at hf
    | false => simp [hr]
  · rw [if_neg hd] at hf ⊢
    rw [if_neg hd]
    by_cases hz : type = FrameType.streamReset
    · rw [if_pos hz] at hf
      cases hf
    · rw [if_neg hz] at hf ⊢
      exact ⟨hf, (List.append_nil _).symm⟩

/-- A stream that is neither finished nor at its end after an event has written the payload that the
event brought, if any. -/
theorem quiet_next (hr : f.receivedEof = false) (hf : (f.next fits e).finished = false)
    (hs : (f.next fits e).sentEof = false) (he : e.isFrame FrameType.streamEof = false) :
    f.finished = false ∧ f.sentEof = false ∧ e.isEnd = false ∧
      (f.next fits e).written = f.written ++ e.payload?.toList := by
  cases e with
  | «end» =>
    have hf' : f.sourceEnd.finished = false := hf
    have hs' : f.sourceEnd.sentEof = false := hs
    unfold sourceEnd at hf' hs'
    split at hs'
    · rename_i hg
      rw [if_pos hg] at hf'
      simp [hf', hs'] at hg
    · cases hs'
  | frame type payload flushed =>
    have ht : ¬type = FrameType.streamEof := by simpa [StreamEvent.isFrame] using he
    obtain ⟨h1, h2⟩ := quiet_frame payload hr hf ht
    exact ⟨h1, (sentEof_frame type payload).symm.trans hs, rfl, h2⟩
  | error | close | destroy => cases hf
  | data | drain | preread | attach | dialFailed | setGlobalPause | owner =>
    exact ⟨hf, hs, rfl, (List.append_nil _).symm⟩

theorem ended_next (h : e.isFrame FrameType.streamEof = true) (hr : f.receivedEof = false)
    (he : f.ended = false) : (f.next fits e).ended = true ↔ f.finished = false ∧ fits = true := by
  cases e with
  | frame type payload flushed =>
    have ht : type = FrameType.streamEof := by simpa [StreamEvent.isFrame] using h
    subst ht
    have hn : f.next fits (.frame FrameType.streamEof payload flushed) = f.eof fits := rfl
    rw [hn]
    cases hf : f.finished <;> cases fits <;> simp [eof, hf, hr, he]
  | _ => simp [StreamEvent.isFrame] at h

end Face

/-- What a stream has yet to acknowledge fits a u32. -/
def Endpoint.ackFits (s : Endpoint) : Bool := decide (s.recvUnacked ≤ 0xffffffff)

namespace Traced

variable {env : WireEnv} {t : Traced}

theorem face_send (f : Frame) : (t.send env f).self.face = t.self.face :=
  send_field Endpoint.face (fun _ => rfl) f

theorem face_onSourceData (chunk : Bytes) : (onSourceData env t chunk).self.face = t.self.face := by
  unfold onSourceData
  split
  · rfl
  · dsimp only
    split
    · exact face_send _
    · exact face_send _

theorem face_finish : t.finish.self.face = t.self.face.finish := by
  unfold finish
  split
  · rename_i hf
    simp [Face.finish, Endpoint.face, hf]
  · rfl

/-- The `if (…) this.finish()` that ends a method. -/
theorem face_finish_if (b : Bool) :
    (if b then t.finish else t).self.face = if b then t.self.face.finish else t.self.face := by
  cases b with
  | true => exact face_finish
  | false => rfl

theorem face_onSourceEnd : (onSourceEnd env t).self.face = t.self.face.sourceEnd := by
  unfold onSourceEnd Face.sourceEnd
  have hg : (t.self.face.finished || t.self.face.sentEof) = (t.self.finished || t.self.sentEof) := rfl
  rw [hg]
  split
  · rfl
  · rename_i hf
    simp only [Bool.or_eq_true, not_or, Bool.not_eq_true] at hf
    let t1 : Traced := { t with self := { t.self with sentEof := true } }
    have hs : (t1.send env (.eof t1.self.id)).self.face = t1.self.face := face_send _
    have hr : (t1.send env (.eof t1.self.id)).self.receivedEof = t.self.receivedEof :=
      congrArg Face.receivedEof hs
    show (if (t1.send env (.eof t1.self.id)).self.receivedEof then (t1.send env (.eof t1.self.id)).finish
      else t1.send env (.eof t1.self.id)).self.face = _
    rw [face_finish_if, hs, hr]
    cases he : t.self.receivedEof with
    | true => simp [t1, Face.finish, Endpoint.face, he]
    | false => simp [t1, Endpoint.face, hf.1, he]

theorem face_flushAck : (outcome (t.flushAck env)).self.face = t.self.face := by
  unfold flushAck
  split
  · rfl
  · dsimp only
    cases Frame.ack t.self.id t.self.recvUnacked with
    | ok f => exact face_send (t := { t with self := { t.self with recvUnacked := 0 } }) f
    | error _ => rfl

theorem flushAck_ok (env : WireEnv) (h : t.self.ackFits = true) : ∃ t', t.flushAck env = .ok t' := by
  unfold flushAck
  split
  · exact ⟨_, rfl⟩
  · dsimp only
    cases ha : Frame.ack t.self.id t.self.recvUnacked with
    | ok f => exact ⟨_, rfl⟩
    | error e =>
      have hn := Frame.ack_error_iff.mp ⟨e, ha⟩
      simp only [Endpoint.ackFits, decide_eq_true_eq] at h
      omega

theorem flushAck_error (env : WireEnv) (hf : t.self.finished = false) (h : t.self.ackFits = false) :
    ∃ t', t.flushAck env = .error t' := by
  simp only [Endpoint.ackFits, decide_eq_false_iff_not, Nat.not_le] at h
  obtain ⟨e, he⟩ : ∃ e, Frame.ack t.self.id t.self.recvUnacked = .error e := Frame.ack_error_iff.mpr h
  unfold flushAck
  rw [if_neg (by simp only [hf, Bool.or_false, decide_eq_true_eq]; omega)]
  dsimp only
  rw [he]
  exact ⟨_, rfl⟩

theorem face_destroy (reason : String) : (destroy env t reason).self.face = t.self.face.finish := by
  unfold destroy
  split
  · rename_i hf
    simp [Face.finish, Endpoint.face, hf]
  · let t1 : Traced := { t with self := { t.self with finished := true } }
    dsimp only
    split
    · exact face_send (t := t1) _
    · rfl

theorem face_onData (payload : Bytes) (flushed : Bool) :
    (outcome (onData env t payload flushed)).self.face = t.self.face.data payload := by
  unfold onData Face.data
  have hg : (t.self.face.finished || t.self.face.receivedEof) = (t.self.finished || t.self.receivedEof) := rfl
  rw [hg]
  split
  · rfl
  · cases flushed with
    | false => rfl
    | true => exact face_flushAck

theorem face_onEof : (outcome (onEof env t)).self.face = t.self.face.eof t.self.ackFits := by
  unfold onEof Face.eof
  have hg : (t.self.face.finished || t.self.face.receivedEof) = (t.self.finished || t.self.receivedEof) := rfl
  rw [hg]
  split
  · rfl
  · rename_i hf
    simp only [Bool.or_eq_true, not_or, Bool.not_eq_true] at hf
    let t1 : Traced := { t with self := { t.self with receivedEof := true } }
    have hs : (outcome (t1.flushAck env)).self.face = t1.self.face := face_flushAck
    have ha : t1.self.ackFits = t.self.ackFits := rfl
    dsimp only
    cases hfit : t.self.ackFits with
    | false =>
      obtain ⟨t2, hx⟩ : ∃ t2, t1.flushAck env = .error t2 := flushAck_error env hf.1 (ha.trans hfit)
      rw [show ({ t with self := { t.self with receivedEof := true } } : Traced) = t1 from rfl, hx]
      rw [hx] at hs
      exact hs
    | true =>
      obtain ⟨t2, hx⟩ : ∃ t2, t1.flushAck env = .ok t2 := flushAck_ok env (ha.trans hfit)
      rw [show ({ t with self := { t.self with receivedEof := true } } : Traced) = t1 from rfl, hx]
      rw [hx, outcome_ok] at hs
      have hse : t2.self.sentEof = t.self.sentEof := congrArg Face.sentEof hs
      have h3 : (t2.onSocket fun k => { k with ended := true }).self.face = { t2.self.face with ended := true } := rfl
      show (if t2.self.sentEof then (t2.onSocket fun k => { k with ended := true }).finish
        else t2.onSocket fun k => { k with ended := true }).self.face = _
      rw [face_finish_if, h3, hs, hse]
      cases he : t.self.sentEof with
      | true => simp [t1, Face.finish, Endpoint.face, he]
      | false => simp [t1, Endpoint.face, he, hf.1]

theorem face_onFrame (type : Nat) (payload : Bytes) (flushed : Bool) :
    (outcome (onFrame env t type payload flushed)).self.face =
      t.self.face.next t.self.ackFits (.frame type payload flushed) := by
  show _ = t.self.face.frame t.self.ackFits type payload
  unfold onFrame Face.frame
  split
  · exact face_onData payload flushed
  split
  · exact face_onEof
  split
  · rename_i ha
    have hr : ¬type = FrameType.streamReset := by
      rw [ha]
      decide
    rw [if_neg hr, outcome_ok]
    split
    · exact t.self.field_onAck Endpoint.face (fun _ => rfl) (fun _ _ _ => rfl) _
    · rfl
  split
  · exact face_destroy "peer_reset"
  · rfl

theorem face_step (e : StreamEvent) :
    (outcome (step env t e)).self.face = t.self.face.next t.self.ackFits e := by
  cases e with
  | data chunk => exact face_onSourceData chunk
  | «end» => exact face_onSourceEnd
  | drain => exact face_flushAck
  | error => exact face_destroy _
  | close => exact face_finish
  | preread head =>
    show (writePreread env t head).self.face = _
    unfold writePreread
    split
    · rfl
    · exact face_onSourceData head
  | attach flushed | dialFailed message | owner wire listed => rfl
  | frame type payload flushed => exact face_onFrame type payload flushed
  | setGlobalPause paused => exact t.self.field_setGlobalPause Endpoint.face (fun _ => rfl) paused
  | destroy reason => exact face_destroy reason

end Traced

/-! ## Watching a stream -/

/-- A stream, and what can be seen of it from outside. -/
structure Watched (τ : Type) where
  stream : τ
  /-- What the socket has taken of what was written to it. -/
  accepted : List Bytes
  /-- The payloads of STREAM_DATA that have come in. -/
  arrived : List Bytes
  eofArrived : Bool
  /-- A STREAM_RESET has been sent or has come in. -/
  reset : Bool
  /-- The socket has emitted `end`, so Node has ended its writable side. -/
  autoEnded : Bool

namespace Watched

section
variable {τ : Type} (face : τ → Face) (calls : τ → List Call) (listens : τ → Bool)
  (step : τ → StreamEvent → Except τ τ)

/-- `w` after the event `e`, which has made the stream `s`. -/
def observe (w : Watched τ) (e : StreamEvent) (s : τ) : Watched τ where
  stream := s
  accepted :=
    if w.autoEnded then w.accepted
    else w.accepted ++ (face s).written.drop (face w.stream).written.length
  arrived := w.arrived ++ e.payload?.toList
  eofArrived := w.eofArrived || e.isFrame FrameType.streamEof
  reset := w.reset || e.isFrame FrameType.streamReset || (letters (calls s)).contains FrameType.streamReset
  autoEnded := w.autoEnded || (e.isEnd && listens w.stream)

def next (w : Watched τ) (e : StreamEvent) : Except (Watched τ) (Watched τ) :=
  match step w.stream e with
  | .ok s => .ok (w.observe face calls listens e s)
  | .error s => .error (w.observe face calls listens e s)

/-- The stream has sent its EOF; the other end has not, and neither has reset. -/
structure HalfClosed (w : Watched τ) : Prop where
  sentEof : (face w.stream).sentEof = true
  eofArrived : w.eofArrived = false
  reset : w.reset = false

/-- What the socket is to be given for the payloads that have come in, and what of them is still held
back. -/
structure Demand where
  expected : List Bytes → List Bytes
  heldBack : List Bytes → List Bytes

/-- While the stream is half closed, all that comes in is taken by the socket, in order; the other
end's EOF then has the rest taken and ends the socket. -/
structure Kept (d : Demand) (w0 : Watched τ) (es : List StreamEvent) : Prop where
  taken : ∀ pre, pre <+: es → (after (next face calls listens step) w0 pre).HalfClosed face →
    (after (next face calls listens step) w0 pre).accepted =
      d.expected (after (next face calls listens step) w0 pre).arrived
  ended : ∀ pre e, pre ++ [e] <+: es → e.isFrame FrameType.streamEof = true →
    ∀ w, pre.foldlM (next face calls listens step) w0 = .ok w → w.HalfClosed face →
      (face (outcome (next face calls listens step w e)).stream).ended = true ∧
      (outcome (next face calls listens step w e)).accepted = d.expected w.arrived ++ d.heldBack w.arrived

/-- While the stream is half closed, nothing comes in that has to be written; at the other end's EOF
the stream is there, holds nothing back and can acknowledge. -/
structure Untested (fits : τ → Bool) (d : Demand) (w0 : Watched τ) (es : List StreamEvent) : Prop where
  data : ∀ pre e payload, pre ++ [e] <+: es → e.payload? = some payload →
    ∀ w, pre.foldlM (next face calls listens step) w0 = .ok w → w.HalfClosed face →
      d.expected (w.arrived ++ [payload]) = d.expected w.arrived
  eof : ∀ pre e, pre ++ [e] <+: es → e.isFrame FrameType.streamEof = true →
    ∀ w, pre.foldlM (next face calls listens step) w0 = .ok w → w.HalfClosed face →
      (face w.stream).finished = false ∧ fits w.stream = true ∧ d.heldBack w.arrived = []

variable {face calls listens step}

theorem after_concat {σ ε : Type} {step : σ → ε → Except σ σ} {s s' : σ} {es : List ε} (e : ε)
    (h : es.foldlM step s = .ok s') : after step s (es ++ [e]) = outcome (step s' e) := by
  unfold after
  rw [List.foldlM_append, h]
  show outcome (step s' e >>= fun s => .ok s) = _
  cases step s' e <;> rfl

theorem after_concat_error {σ ε : Type} {step : σ → ε → Except σ σ} {s s' : σ} {es : List ε} (e : ε)
    (h : es.foldlM step s = .error s') : after step s (es ++ [e]) = after step s es := by
  unfold after
  rw [List.foldlM_append, h]
  rfl

theorem outcome_next (w : Watched τ) (e : StreamEvent) :
    outcome (next face calls listens step w e) = w.observe face calls listens e (outcome (step w.stream e)) := by
  unfold next
  cases step w.stream e <;> rfl

/-- What a kind of stream has to grant for `Kept` and `Untested` to be the same: `P` holds wherever no
event has thrown. -/
structure Grants (face : τ → Face) (calls : τ → List Call) (listens : τ → Bool)
    (step : τ → StreamEvent → Except τ τ) (fits : τ → Bool) (d : Demand) (P : Watched τ → Prop) : Prop where
  keep : ∀ w e w', P w → next face calls listens step w e = .ok w' → P w'
  autoEnded : ∀ w, P w → (face w.stream).sentEof = true → w.autoEnded = true
  sentEof : ∀ w e, P w → (face w.stream).sentEof = true → (face (outcome (step w.stream e))).sentEof = true
  enter : ∀ w e, P w → (face w.stream).sentEof = false →
    (outcome (next face calls listens step w e)).HalfClosed face →
    (outcome (next face calls listens step w e)).accepted =
      d.expected (outcome (next face calls listens step w e)).arrived
  data : ∀ w e payload, P w → e.payload? = some payload → w.HalfClosed face →
    (outcome (next face calls listens step w e)).HalfClosed face
  eof : ∀ w e, P w → e.isFrame FrameType.streamEof = true → w.HalfClosed face →
    ((face (outcome (step w.stream e))).ended = true ↔
      (face w.stream).finished = false ∧ fits w.stream = true)

section
variable {fits : τ → Bool} {d : Demand} {P : Watched τ → Prop} {w w0 : Watched τ}

theorem foldlM_invariant {es : List StreamEvent}
    (hs : ∀ w e w', P w → next face calls listens step w e = .ok w' → P w') :
    ∀ {w0 w : Watched τ}, P w0 → es.foldlM (next face calls listens step) w0 = .ok w → P w := by
  induction es with
  | nil =>
    intro w0 w h0 hx
    cases hx
    exact h0
  | cons e es ih =>
    intro w0 w h0 hx
    rw [List.foldlM_cons] at hx
    obtain ⟨w1, h1, h2⟩ := bind_ok.mp hx
    exact ih (hs w0 e w1 h0 h1) h2

theorem accepted_next (e : StreamEvent) (h : w.autoEnded = true) :
    (outcome (next face calls listens step w e)).accepted = w.accepted := by
  rw [outcome_next]
  exact if_pos h

theorem arrived_next (e : StreamEvent) :
    (outcome (next face calls listens step w e)).arrived = w.arrived ++ e.payload?.toList := by
  rw [outcome_next]
  rfl

/-- A stream that is half closed after an event was so before it, if it had sent its EOF. -/
theorem HalfClosed.before {e : StreamEvent} (hs : (face w.stream).sentEof = true)
    (h : (outcome (next face calls listens step w e)).HalfClosed face) : w.HalfClosed face := by
  rw [outcome_next] at h
  have h1 := h.eofArrived
  have h2 := h.reset
  simp only [observe, Bool.or_eq_false_iff] at h1 h2
  exact ⟨hs, h1.1, h2.1.1⟩

/-- Once half closed, a socket takes nothing more. -/
theorem Untested.of_kept (g : Grants face calls listens step fits d P) {es : List StreamEvent} (h0 : P w0)
    (h : Kept face calls listens step d w0 es) : Untested face calls listens step fits d w0 es := by
  have htaken : ∀ pre, pre <+: es → ∀ w, pre.foldlM (next face calls listens step) w0 = .ok w →
      w.HalfClosed face → w.accepted = d.expected w.arrived := by
    intro pre hpre w hx hc
    have ha : after (next face calls listens step) w0 pre = w := by
      rw [after, hx, outcome_ok]
    have ht := h.taken pre hpre
    rw [ha] at ht
    exact ht hc
  constructor
  · intro pre e payload hpre he w hx hc
    have hP := foldlM_invariant g.keep h0 hx
    have ht := h.taken (pre ++ [e]) hpre
    rw [after_concat e hx, accepted_next e (g.autoEnded w hP hc.sentEof), arrived_next, he] at ht
    have hpre' : pre <+: es := (List.prefix_append pre [e]).trans hpre
    rw [← htaken pre hpre' w hx hc]
    exact (ht (g.data w e payload hP he hc)).symm
  · intro pre e hpre he w hx hc
    have hP := foldlM_invariant g.keep h0 hx
    obtain ⟨hend, hacc⟩ := h.ended pre e hpre he w hx hc
    have hpre' : pre <+: es := (List.prefix_append pre [e]).trans hpre
    rw [accepted_next e (g.autoEnded w hP hc.sentEof), htaken pre hpre' w hx hc] at hacc
    rw [outcome_next] at hend
    obtain ⟨hf, hfit⟩ := (g.eof w e hP he hc).mp hend
    exact ⟨hf, hfit, List.self_eq_append_right.mp hacc⟩

theorem Kept.of_untested (g : Grants face calls listens step fits d P) {es : List StreamEvent} (h0 : P w0)
    (hw : ¬w0.HalfClosed face) (h : Untested face calls listens step fits d w0 es) :
    Kept face calls listens step d w0 es := by
  have htaken : ∀ pre, pre <+: es → (after (next face calls listens step) w0 pre).HalfClosed face →
      (after (next face calls listens step) w0 pre).accepted =
        d.expected (after (next face calls listens step) w0 pre).arrived := by
    intro pre
    induction pre using List.reverseRecOn with
    | nil => exact fun _ hc => absurd hc hw
    | append_singleton pre e ih =>
      intro hpre hc
      have hpre' : pre <+: es := (List.prefix_append pre [e]).trans hpre
      cases hx : pre.foldlM (next face calls listens step) w0 with
      | error w =>
        rw [after_concat_error e hx] at hc ⊢
        exact ih hpre' hc
      | ok w =>
        have hP := foldlM_invariant g.keep h0 hx
        rw [after_concat e hx] at hc ⊢
        cases hs : (face w.stream).sentEof with
        | false => exact g.enter w e hP hs hc
        | true =>
          have hcw := hc.before hs
          have ha : after (next face calls listens step) w0 pre = w := by
            rw [after, hx, outcome_ok]
          have hw := ih hpre'
          rw [ha] at hw
          rw [accepted_next e (g.autoEnded w hP hs), arrived_next, hw hcw]
          cases he : e.payload? with
          | none => simp
          | some payload => exact (h.data pre e payload hpre he w hx hcw).symm
  refine ⟨htaken, fun pre e hpre he w hx hc => ?_⟩
  have hP := foldlM_invariant g.keep h0 hx
  have hpre' : pre <+: es := (List.prefix_append pre [e]).trans hpre
  obtain ⟨hf, hfit, hr⟩ := h.eof pre e hpre he w hx hc
  have ha : after (next face calls listens step) w0 pre = w := by
    rw [after, hx, outcome_ok]
  have ht := htaken pre hpre'
  rw [ha] at ht
  rw [accepted_next e (g.autoEnded w hP hc.sentEof), outcome_next, hr, List.append_nil]
  exact ⟨(g.eof w e hP he hc).mpr ⟨hf, hfit⟩, ht hc⟩

theorem kept_iff (g : Grants face calls listens step fits d P) {es : List StreamEvent} (h0 : P w0)
    (hw : ¬w0.HalfClosed face) :
    Kept face calls listens step d w0 es ↔ Untested face calls listens step fits d w0 es :=
  ⟨.of_kept g h0, .of_untested g h0 hw⟩

end

end

end Watched

/-! ## The server's stream -/

namespace Traced

variable {env : WireEnv}

/-- A server stream hands on every payload as it comes. -/
def demand : Watched.Demand := ⟨id, fun _ => []⟩

def face (t : Traced) : Face := t.self.face

/-- A stream in its table, on a connection from which a frontend has read `chunks`. -/
def watched (id : Nat) (chunks : List Bytes) (window : Int) (wire : Wire) (listed : Bool) :
    Watched Traced where
  stream := .new id (AgentSession.accepted chunks) window wire listed
  accepted := []
  arrived := []
  eofArrived := false
  reset := false
  autoEnded := false

abbrev watch (env : WireEnv) : Watched Traced → StreamEvent → Except (Watched Traced) (Watched Traced) :=
  Watched.next face Traced.calls (fun _ => true) (Traced.step env)

/-- What ties a watched stream to what has been seen of it. -/
structure Seen (w : Watched Traced) : Prop where
  closing : w.eofArrived = false → w.stream.face.receivedEof = false ∧ w.stream.face.ended = false
  autoEnded : w.stream.face.sentEof = true → w.autoEnded = true
  quiet : w.stream.face.finished = false → w.stream.face.sentEof = false → w.eofArrived = false →
    w.autoEnded = false ∧ w.accepted = w.arrived
  reset : w.reset = false → (letters w.stream.calls).contains FrameType.streamReset = false

theorem letters_flushAck (t : Traced) :
    (letters (outcome (t.flushAck env)).calls).contains FrameType.streamReset =
      (letters t.calls).contains FrameType.streamReset := by
  unfold flushAck
  split
  · rfl
  · dsimp only
    cases ha : Frame.ack t.self.id t.self.recvUnacked with
    | error _ => rfl
    | ok f =>
      obtain ⟨_, rfl⟩ := Frame.ack_ok ha
      rw [outcome_ok, send_calls, letters_append]
      simp [letters, Frame.type, FrameType.streamAck, FrameType.streamReset]

theorem letters_onData (t : Traced) (payload : Bytes) (flushed : Bool) :
    (letters (outcome (onData env t payload flushed)).calls).contains FrameType.streamReset =
      (letters t.calls).contains FrameType.streamReset := by
  unfold onData
  split
  · rfl
  · cases flushed with
    | false => rfl
    | true => exact letters_flushAck _

theorem Seen.observe {w : Watched Traced} (h : Seen w) (env : WireEnv) (e : StreamEvent) :
    Seen (w.observe face Traced.calls (fun _ => true) e (outcome (step env w.stream e))) := by
  have hface : (outcome (step env w.stream e)).face = w.stream.face.next w.stream.self.ackFits e := face_step e
  constructor
  · intro hc
    simp only [Watched.observe, Bool.or_eq_false_iff] at hc
    obtain ⟨h1, h2⟩ := h.closing hc.1
    obtain ⟨h3, h4⟩ := w.stream.face.closing_next w.stream.self.ackFits hc.2
    show (outcome (step env w.stream e)).face.receivedEof = false ∧ (outcome (step env w.stream e)).face.ended = false
    rw [hface]
    exact ⟨h3.trans h1, h4.trans h2⟩
  · intro hs
    have hs' : (w.stream.face.next w.stream.self.ackFits e).sentEof = true := by
      rw [← hface]
      exact hs
    show (w.autoEnded || (e.isEnd && true)) = true
    cases he : e.isEnd with
    | true => simp
    | false =>
      rw [Face.sentEof_next he] at hs'
      simp [h.autoEnded hs']
  · intro hf hs hc
    simp only [Watched.observe, Bool.or_eq_false_iff] at hf hs hc
    rw [hface] at hf hs
    obtain ⟨hf0, hs0, he, hw⟩ := Face.quiet_next (h.closing hc.1).1 hf hs hc.2
    obtain ⟨ha, hacc⟩ := h.quiet hf0 hs0 hc.1
    have hwr : (outcome (step env w.stream e)).face.written = w.stream.face.written ++ e.payload?.toList := by
      rw [hface, hw]
    refine ⟨by simp [Watched.observe, ha, he], ?_⟩
    simp [Watched.observe, ha, hwr, hacc]
  · intro hr
    simp only [Watched.observe, Bool.or_eq_false_iff] at hr ⊢
    exact hr.2

theorem watch_grants :
    Watched.Grants face Traced.calls (fun _ => true) (Traced.step env) (fun t => t.self.ackFits) demand Seen where
  keep w e w' h hx := by
    have ho := h.observe env e
    rw [← Watched.outcome_next, hx] at ho
    exact ho
  autoEnded w h := h.autoEnded
  sentEof w e _ hs := by
    have hface : (outcome (step env w.stream e)).face = w.stream.face.next w.stream.self.ackFits e := face_step e
    rw [hface]
    exact Face.sentEof_next_of hs
  enter w e h hs hc := by
    rw [Watched.outcome_next] at hc ⊢
    have hface : (outcome (step env w.stream e)).face = w.stream.face.next w.stream.self.ackFits e := face_step e
    have hs' := hc.sentEof
    have hc' := hc.eofArrived
    simp only [Watched.observe, Bool.or_eq_false_iff] at hs' hc'
    rw [hface] at hs'
    cases e with
    | «end» =>
      have hf : w.stream.face.finished = false := by
        by_contra hf
        rw [Bool.not_eq_false] at hf
        simp [Face.next, Face.sourceEnd, hf, hs] at hs'
      obtain ⟨ha, hacc⟩ := h.quiet hf hs hc'.1
      have hwr : (outcome (step env w.stream .end)).face.written = w.stream.face.written := by
        rw [hface]
        exact Face.written_sourceEnd
      simp [Watched.observe, ha, hwr, hacc, demand, StreamEvent.payload?]
    | _ =>
      rw [Face.sentEof_next rfl, hs] at hs'
      cases hs'
  data w e payload h he hc := by
    rw [Watched.outcome_next]
    have hface : (outcome (step env w.stream e)).face = w.stream.face.next w.stream.self.ackFits e := face_step e
    cases e with
    | frame type p flushed =>
      have ht : type = FrameType.streamData := by
        by_contra ht
        simp [StreamEvent.payload?, ht] at he
      subst ht
      refine ⟨?_, ?_, ?_⟩
      · show (outcome (step env w.stream _)).face.sentEof = true
        rw [hface]
        exact Face.sentEof_next_of hc.sentEof
      · simp [Watched.observe, hc.eofArrived, StreamEvent.isFrame, FrameType.streamData, FrameType.streamEof]
      · have hl' : (letters (outcome (step env w.stream (.frame FrameType.streamData p flushed))).calls).contains
            FrameType.streamReset = false := (letters_onData w.stream p flushed).trans (h.reset hc.reset)
        simp only [Watched.observe, hc.reset, hl', StreamEvent.isFrame]
        decide
    | _ => simp [StreamEvent.payload?] at he
  eof w e h he hc := by
    have hface : (outcome (step env w.stream e)).face = w.stream.face.next w.stream.self.ackFits e := face_step e
    obtain ⟨h1, h2⟩ := h.closing hc.eofArrived
    rw [hface]
    exact Face.ended_next he h1 h2

end Traced

/-! ## The client's stream -/

/-- What a client stream holds back for a Host rewrite. -/
structure Head where
  spec : TunnelSpec
  headBuf : List Bytes
  headLen : Nat
  headDone : Bool

namespace Head

def start (spec : TunnelSpec) : Head := ⟨spec, [], 0, !(spec.kind = .http && spec.rewriteHost)⟩

/-- Nothing is written for no bytes. -/
def chunk (out : Bytes) : List Bytes := if out.length = 0 then [] else [out]

/-- What is to be written for one more payload. -/
def take (h : Head) (payload : Bytes) : Head × List Bytes :=
  if h.headDone then (h, chunk payload)
  else
    let h := { h with headBuf := h.headBuf ++ [payload], headLen := h.headLen + payload.length }
    let head := h.headBuf.flatten
    if !ClientStream.hasTerminator head && h.headLen < MAX_HEAD_BUFFER then (h, [])
    else
      ({ h with headBuf := [], headLen := 0, headDone := true },
        chunk (rewriteHostHeader head (targetLabel h.spec)))

def takes (h : Head) : List Bytes → Head × List Bytes
  | [] => (h, [])
  | payload :: rest => (((h.take payload).1.takes rest).1, (h.take payload).2 ++ ((h.take payload).1.takes rest).2)

/-- What is to be written when nothing more will come. -/
def heldBack (h : Head) : List Bytes :=
  if h.headBuf.length > 0 then [rewriteHostHeader h.headBuf.flatten (targetLabel h.spec)] else []

theorem takes_concat (payloads : List Bytes) (payload : Bytes) : ∀ h : Head,
    h.takes (payloads ++ [payload]) =
      (((h.takes payloads).1.take payload).1, (h.takes payloads).2 ++ ((h.takes payloads).1.take payload).2) := by
  induction payloads with
  | nil => simp [takes]
  | cons p rest ih => simp [takes, ih]

end Head

/-- The parts of a client stream that decide what it writes. -/
structure ClientView where
  face : Face
  connected : Bool
  queued : List Bytes
  queuedEof : Bool
  head : Head

def ClientStream.view (s : ClientStream) : ClientView where
  face := s.toEndpoint.face
  connected := s.connected
  queued := s.queued
  queuedEof := s.queuedEof
  head := ⟨s.spec, s.headBuf, s.headLen, s.headDone⟩

/-- Written to, as one more payload demands. -/
def ClientView.write (v : ClientView) (payload : Bytes) : ClientView :=
  { v with
    face := { v.face with written := v.face.written ++ (v.head.take payload).2 }
    head := (v.head.take payload).1 }

namespace ClientView

def sourceEnd (v : ClientView) : ClientView := { v with face := v.face.sourceEnd }

def finish (v : ClientView) : ClientView := { v with face := v.face.finish }

def data (v : ClientView) (payload : Bytes) : ClientView :=
  if v.face.finished || v.face.receivedEof then v
  else if !v.connected then { v with queued := v.queued ++ [payload] }
  else v.write payload

/-- The client's stream at an event other than `attach` and the other end's EOF. -/
def next (v : ClientView) : StreamEvent → ClientView
  | .end => if v.connected then v.sourceEnd else v
  | .error => if v.connected then v.finish else v
  | .close => if v.connected then v.finish else v
  | .dialFailed _ => if v.connected then v else v.finish
  | .destroy _ => v.finish
  | .frame type payload _ =>
    if type = FrameType.streamData then v.data payload
    else if type = FrameType.streamReset then v.finish
    else v
  | _ => v

variable {v : ClientView} {e : StreamEvent}

/-- What no event but the other end's EOF and `attach` touches. -/
theorem next_same (v : ClientView) (e : StreamEvent) :
    (v.next e).connected = v.connected ∧ (v.next e).queuedEof = v.queuedEof ∧
      (v.next e).face.receivedEof = v.face.receivedEof ∧ (v.next e).face.ended = v.face.ended := by
  cases e with
  | «end» =>
    show (if v.connected then v.sourceEnd else v).connected = _ ∧ (if v.connected then v.sourceEnd else v).queuedEof = _ ∧
      (if v.connected then v.sourceEnd else v).face.receivedEof = _ ∧ (if v.connected then v.sourceEnd else v).face.ended = _
    split
    · unfold sourceEnd Face.sourceEnd
      dsimp only
      split <;> exact ⟨rfl, rfl, rfl, rfl⟩
    · exact ⟨rfl, rfl, rfl, rfl⟩
  | frame type payload flushed =>
    unfold next
    dsimp only
    split
    · unfold data
      split
      · exact ⟨rfl, rfl, rfl, rfl⟩
      · split <;> exact ⟨rfl, rfl, rfl, rfl⟩
    · split <;> exact ⟨rfl, rfl, rfl, rfl⟩
  | error | close | dialFailed =>
    unfold next
    dsimp only
    split <;> exact ⟨rfl, rfl, rfl, rfl⟩
  | data | drain | preread | attach | setGlobalPause | destroy | owner => exact ⟨rfl, rfl, rfl, rfl⟩

theorem sentEof_next (h : e.isEnd = false ∨ v.connected = false) :
    (v.next e).face.sentEof = v.face.sentEof := by
  cases e with
  | «end» =>
    have hc : v.connected = false := by simpa [StreamEvent.isEnd] using h
    show (if v.connected then v.sourceEnd else v).face.sentEof = _
    rw [hc]
    rfl
  | frame type payload flushed =>
    unfold next
    dsimp only
    split
    · unfold data
      split
      · rfl
      · split <;> rfl
    · split <;> rfl
  | error | close | dialFailed =>
    unfold next
    dsimp only
    split <;> rfl
  | data | drain | preread | attach | setGlobalPause | destroy | owner => rfl

theorem sentEof_next_of (h : v.face.sentEof = true) : (v.next e).face.sentEof = true := by
  cases e with
  | «end» =>
    show (if v.connected then v.sourceEnd else v).face.sentEof = true
    split
    · simp [sourceEnd, Face.sourceEnd, h]
    · exact h
  | _ => rw [sentEof_next (.inl rfl), h]

/-- An unfinished stream before its own EOF and the other end's has dealt with the payload that an
event brought, if any. -/
theorem quiet_next (hr : v.face.receivedEof = false) (hf : (v.next e).face.finished = false)
    (hs : (v.next e).face.sentEof = false) :
    v.face.finished = false ∧ v.face.sentEof = false ∧ (e.isEnd = true → v.connected = false) ∧
      v.next e = match e.payload? with
        | none => v
        | some payload =>
          if v.connected then v.write payload else { v with queued := v.queued ++ [payload] } := by
  cases e with
  | «end» =>
    have hn : v.next .end = if v.connected then v.sourceEnd else v := rfl
    rw [hn] at hf hs ⊢
    cases hc : v.connected with
    | false =>
      rw [hc] at hf hs
      exact ⟨hf, hs, fun _ => rfl, rfl⟩
    | true =>
      rw [hc, if_pos rfl] at hf hs
      unfold sourceEnd Face.sourceEnd at hf hs
      dsimp only at hf hs
      split at hs
      · rename_i hg
        rw [if_pos hg] at hf
        simp [hf, hs] at hg
      · cases hs
  | frame type payload flushed =>
    have hn : v.next (.frame type payload flushed) =
      if type = FrameType.streamData then v.data payload
      else if type = FrameType.streamReset then v.finish else v := rfl
    rw [sentEof_next (.inl rfl)] at hs
    rw [hn] at hf ⊢
    unfold StreamEvent.payload?
    by_cases hd : type = FrameType.streamData
    · rw [if_pos hd] at hf ⊢
      simp only [if_pos hd]
      unfold data at hf ⊢
      cases hff : v.face.finished with
      | true => simp [hff] at hf
      | false => cases hc : v.connected <;> simp [hr, hs, StreamEvent.isEnd]
    · rw [if_neg hd] at hf ⊢
      simp only [if_neg hd]
      by_cases hz : type = FrameType.streamReset
      · rw [if_pos hz] at hf
        cases hf
      · rw [if_neg hz] at hf ⊢
        exact ⟨hf, hs, fun h => (by cases h), rfl⟩
  | error | close =>
    rw [sentEof_next (.inl rfl)] at hs
    unfold next at hf ⊢
    dsimp only at hf ⊢
    split at hf
    · cases hf
    · rename_i hc
      rw [if_neg hc]
      exact ⟨hf, hs, fun h => (by cases h), rfl⟩
  | dialFailed message =>
    have hn : v.next (.dialFailed message) = if v.connected then v else v.finish := rfl
    rw [sentEof_next (.inl rfl)] at hs
    rw [hn] at hf ⊢
    split at hf
    · rename_i hc
      rw [if_pos hc]
      exact ⟨hf, hs, fun h => (by cases h), rfl⟩
    · cases hf
  | destroy => cases hf
  | data | drain | preread | attach | setGlobalPause | owner => exact ⟨hf, hs, fun h => (by cases h), rfl⟩

end ClientView

namespace ClientTraced

variable {env : WireEnv} {t t' : ClientTraced}

abbrev view (t : ClientTraced) : ClientView := t.self.view

theorem view_via {m : Traced → Except Traced Traced} {f : Face} (h : (outcome (m t.base)).self.face = f) :
    (outcome (t.via m)).view = { t.view with face := f } := by
  unfold via
  cases hm : m t.base with
  | ok b =>
    rw [hm] at h
    simp [view, ClientStream.view, put, ClientCtx.put, ← h]
  | error b =>
    rw [hm] at h
    simp [view, ClientStream.view, put, ClientCtx.put, ← h]

theorem view_flushAck : (outcome (flushAck env t)).view = t.view := view_via Traced.face_flushAck

/-- The head handling of `writeLocal`. -/
theorem taken_eq (s : ClientStream) (payload : Bytes) :
    (if s.headDone then (s, payload) else s.consumeHead payload).1.view =
        { s.view with head := (s.view.head.take payload).1 } ∧
      Head.chunk (if s.headDone then (s, payload) else s.consumeHead payload).2 =
        (s.view.head.take payload).2 := by
  have hd : s.view.head.headDone = s.headDone := rfl
  unfold Head.take
  rw [hd]
  split
  · exact ⟨rfl, rfl⟩
  · unfold ClientStream.consumeHead
    dsimp only [ClientStream.view]
    split
    · exact ⟨rfl, rfl⟩
    · exact ⟨rfl, rfl⟩

theorem view_writeLocal (payload : Bytes) (flushed : Bool) :
    (outcome (writeLocal env t payload flushed)).view = t.view.write payload := by
  have key : ∀ p : ClientStream × Bytes,
      (outcome (if p.2.length = 0 then flushAck env { t with self := p.1 }
        else if flushed then flushAck env { t with self := { p.1 with socket := p.1.socket.write p.2 flushed } }
        else .ok { t with self := { p.1 with socket := p.1.socket.write p.2 flushed } })).view =
      { p.1.view with face := { p.1.view.face with written := p.1.view.face.written ++ Head.chunk p.2 } } := by
    intro p
    unfold Head.chunk
    split
    · rw [view_flushAck]
      simp [view]
    · cases flushed with
      | false => rfl
      | true =>
        rw [if_pos rfl, view_flushAck]
        rfl
  let s : ClientStream := { t.self with recvUnacked := t.self.recvUnacked + payload.length }
  obtain ⟨h1, h2⟩ := taken_eq s payload
  refine (key (if s.headDone then (s, payload) else s.consumeHead payload)).trans ?_
  rw [h1, h2]
  rfl

theorem view_onData (payload : Bytes) (flushed : Bool) :
    (outcome (onData env t payload flushed)).view = t.view.data payload := by
  unfold onData ClientView.data
  have hg : (t.view.face.finished || t.view.face.receivedEof) = (t.self.finished || t.self.receivedEof) := rfl
  have hc : t.view.connected = t.self.connected := rfl
  rw [hg, hc]
  split
  · rfl
  split
  · rfl
  · exact view_writeLocal payload flushed

theorem view_writeQueued (payloads : List Bytes) (flushed : Nat → Bool)
    (h : writeQueued env t payloads flushed = .ok t') :
    t'.view = { t.view with
      face := { t.view.face with written := t.view.face.written ++ (t.view.head.takes payloads).2 }
      head := (t.view.head.takes payloads).1 } := by
  induction payloads generalizing t flushed with
  | nil =>
    cases h
    simp [Head.takes]
  | cons payload rest ih =>
    obtain ⟨t1, h1, h2⟩ := bind_ok.mp h
    have hw : t1.view = t.view.write payload := by
      have hw : (outcome (writeLocal env t payload (flushed 0))).view = t.view.write payload :=
        view_writeLocal payload _
      rwa [h1] at hw
    rw [ih _ h2, hw]
    simp [ClientView.write, Head.takes]

theorem view_destroy (reason : String) : (destroy env t reason).view = t.view.finish := by
  show ({ t.view with face := (t.base.destroy env reason).self.face } : ClientView) = _
  rw [Traced.face_destroy]
  rfl

theorem view_finish : (finish t).view = t.view.finish := by
  show ({ t.view with face := t.base.finish.self.face } : ClientView) = _
  rw [Traced.face_finish]
  rfl

theorem view_dialFailed (message : String) : (dialFailed env t message).view = t.view.finish := by
  unfold dialFailed
  split
  · rename_i hf
    simp [ClientView.finish, Face.finish, view, ClientStream.view, Endpoint.face, hf]
  · let b : Traced := { t.base with self := { t.base.self with finished := true } }
    have hs : ∀ f, (b.send env f).onStreamFinished.self.face = t.view.face.finish := fun f =>
      (Traced.face_send f : (b.send env f).self.face = b.self.face)
    show ({ t.view with face := (b.send env _).onStreamFinished.self.face } : ClientView) = _
    rw [hs]
    rfl

theorem view_onFrame {type : Nat} (payload : Bytes) (flushed : Bool) (he : ¬type = FrameType.streamEof) :
    (outcome (onFrame env t type payload flushed)).view = t.view.next (.frame type payload flushed) := by
  unfold onFrame
  show _ = if type = FrameType.streamData then t.view.data payload
    else if type = FrameType.streamReset then t.view.finish else t.view
  split
  · exact view_onData payload flushed
  split
  · rename_i ha
    have hr : ¬type = FrameType.streamReset := by
      rw [ha]
      decide
    rw [if_neg hr, outcome_ok]
    split
    · have hf := t.self.toEndpoint.field_onAck Endpoint.face (fun _ => rfl) (fun _ _ _ => rfl) (readUInt32BE payload)
      show ({ t.view with face := (t.self.toEndpoint.onAck (readUInt32BE payload)).face } : ClientView) = _
      rw [hf]
      rfl
    · rfl
  split
  · exact view_destroy "peer_reset"
  · rfl

theorem view_step {e : StreamEvent} (he : e.isFrame FrameType.streamEof = false)
    (ha : ∀ flushed, e ≠ .attach flushed) : (outcome (step env t e)).view = t.view.next e := by
  have hc : t.view.connected = t.self.connected := rfl
  cases e with
  | data chunk =>
    show ((if t.self.connected then onLocalData env (t.onSocket _) chunk else t) : ClientTraced).view = t.view
    split
    · show ({ t.view with face := (Traced.onSourceData env (t.onSocket _).base chunk).self.face } : ClientView) = _
      rw [Traced.face_onSourceData]
      rfl
    · rfl
  | «end» =>
    show ((if t.self.connected then onLocalEnd env (t.onSocket _) else t) : ClientTraced).view =
      if t.view.connected then t.view.sourceEnd else t.view
    rw [hc]
    split
    · show ({ t.view with face := (Traced.onSourceEnd env (t.onSocket _).base).self.face } : ClientView) = _
      rw [Traced.face_onSourceEnd]
      rfl
    · rfl
  | drain =>
    show (outcome (if t.self.connected then onDrain env t else .ok t)).view = t.view
    split
    · exact view_flushAck
    · rfl
  | error =>
    show ((if t.self.connected then destroy env t "local_error" else t) : ClientTraced).view =
      if t.view.connected then t.view.finish else t.view
    rw [hc]
    split
    · exact view_destroy _
    · rfl
  | close =>
    show ((if t.self.connected then finish (t.onSocket _) else t) : ClientTraced).view =
      if t.view.connected then t.view.finish else t.view
    rw [hc]
    split
    · exact view_finish
    · rfl
  | preread head => rfl
  | attach flushed => exact absurd rfl (ha flushed)
  | dialFailed message =>
    show ((if t.self.connected then t else dialFailed env t message) : ClientTraced).view =
      if t.view.connected then t.view else t.view.finish
    rw [hc]
    split
    · rfl
    · exact view_dialFailed message
  | frame type payload flushed =>
    exact view_onFrame payload flushed (by simpa [StreamEvent.isFrame] using he)
  | setGlobalPause paused =>
    have hf := t.self.toEndpoint.field_setGlobalPause Endpoint.face (fun _ => rfl) paused
    show ({ t.view with face := (t.self.toEndpoint.setGlobalPause paused).face } : ClientView) = _
    rw [hf]
    rfl
  | destroy reason => exact view_destroy reason
  | owner wire listed => rfl

theorem flushAck_ok (env : WireEnv) (h : t.self.ackFits = true) : ∃ t', flushAck env t = .ok t' := by
  obtain ⟨b, hb⟩ : ∃ b, t.base.flushAck env = .ok b := Traced.flushAck_ok env h
  exact ⟨t.put b, by simp [flushAck, via, hb]⟩

theorem flushAck_error (env : WireEnv) (hf : t.self.finished = false) (h : t.self.ackFits = false) :
    ∃ t', flushAck env t = .error t' := by
  obtain ⟨b, hb⟩ : ∃ b, t.base.flushAck env = .error b := Traced.flushAck_error env hf h
  exact ⟨t.put b, by simp [flushAck, via, hb]⟩

/-- The end of `onEof`: the acknowledgement, `socket.end()` and perhaps `finish()`. -/
theorem view_closing (env : WireEnv) (t : ClientTraced) (hf : t.self.finished = false) (he : t.view.face.ended = false) :
    let r := outcome ((flushAck env t).map fun t =>
      let t := t.onSocket fun k => { k with ended := true }
      if t.self.sentEof then finish t else t)
    r.view.face.sentEof = t.view.face.sentEof ∧ r.view.connected = t.view.connected ∧
      (r.view.face.ended = true ↔ t.self.ackFits = true) := by
  have hv : (outcome (flushAck env t)).view = t.view := view_flushAck
  cases hfit : t.self.ackFits with
  | false =>
    obtain ⟨t2, hx⟩ := flushAck_error env hf hfit
    rw [hx] at hv ⊢
    have hv2 : t2.view = t.view := hv
    show t2.view.face.sentEof = _ ∧ t2.view.connected = _ ∧ (t2.view.face.ended = true ↔ _)
    rw [hv2, he]
    exact ⟨rfl, rfl, by simp⟩
  | true =>
    obtain ⟨t2, hx⟩ := flushAck_ok env hfit
    rw [hx] at hv ⊢
    have hv2 : t2.view = t.view := hv
    let t3 : ClientTraced := t2.onSocket fun k => { k with ended := true }
    have hv3 : t3.view = { t.view with face := { t.view.face with ended := true } } := by
      rw [← hv2]
      rfl
    have hfin : ∀ b : Bool, (if b then finish t3 else t3).view.face.sentEof = t.view.face.sentEof ∧
        (if b then finish t3 else t3).view.connected = t.view.connected ∧
        ((if b then finish t3 else t3).view.face.ended = true ↔ true = true) := by
      intro b
      cases b with
      | false =>
        rw [if_neg (by simp), hv3]
        exact ⟨rfl, rfl, by simp⟩
      | true =>
        rw [if_pos rfl, view_finish, hv3]
        exact ⟨rfl, rfl, by simp [ClientView.finish, Face.finish]⟩
    exact hfin t3.self.sentEof

/-- The other end's EOF. -/
theorem view_onEof (flushed : Bool) (hr : t.view.connected = true → t.view.face.receivedEof = false)
    (he : t.view.face.ended = false) :
    (outcome (onEof env t flushed)).view.face.sentEof = t.view.face.sentEof ∧
      (outcome (onEof env t flushed)).view.connected = t.view.connected ∧
      (t.view.connected = true → ((outcome (onEof env t flushed)).view.face.ended = true ↔
        t.view.face.finished = false ∧ t.self.ackFits = true)) := by
  unfold onEof
  split
  · rename_i hg
    refine ⟨rfl, rfl, fun hc => ?_⟩
    have hr' : t.self.receivedEof = false := hr hc
    have hf' : t.self.finished = true := by simpa [hr'] using hg
    have hf : t.view.face.finished = true := hf'
    rw [outcome_ok, he, hf]
    simp
  · rename_i hg
    simp only [Bool.or_eq_true, not_or, Bool.not_eq_true] at hg
    have hf : t.view.face.finished = false := hg.1
    split
    · rename_i hc
      refine ⟨rfl, rfl, fun hc' => ?_⟩
      have hc2 : t.self.connected = true := hc'
      simp [hc2] at hc
    · have key : ∀ s : ClientStream, s.finished = t.self.finished → s.view.face.ended = t.view.face.ended →
          s.view.face.sentEof = t.view.face.sentEof → s.view.connected = t.view.connected →
          s.ackFits = t.self.ackFits →
          let r := outcome ((flushAck env { t with self := s }).map fun t =>
            let t := t.onSocket fun k => { k with ended := true }
            if t.self.sentEof then finish t else t)
          r.view.face.sentEof = t.view.face.sentEof ∧ r.view.connected = t.view.connected ∧
            (t.view.connected = true → (r.view.face.ended = true ↔
              t.view.face.finished = false ∧ t.self.ackFits = true)) := by
        intro s h1 h2 h3 h4 h5
        obtain ⟨h6, h7, h8⟩ := view_closing env { t with self := s } (h1.trans hf) (h2.trans he)
        exact ⟨h6.trans h3, h7.trans h4, fun _ => by rw [h8, h5, hf]; simp⟩
      dsimp only
      split
      · exact key _ rfl rfl rfl rfl rfl
      · exact key _ rfl rfl rfl rfl rfl

section
variable {b : Bool}

theorem sentEof_writeQueued (payloads : List Bytes) (flushed : Nat → Bool) (h : t.view.face.sentEof = b) :
    (outcome (writeQueued env t payloads flushed)).view.face.sentEof = b := by
  induction payloads generalizing t flushed with
  | nil => exact h
  | cons payload rest ih =>
    refine outcome_bind (P := fun t : ClientTraced => t.view.face.sentEof = b) ?_ fun _ h => ih _ h
    rw [view_writeLocal]
    exact h

theorem sentEof_onEof (flushed : Bool) (h : t.view.face.sentEof = b) :
    (outcome (onEof env t flushed)).view.face.sentEof = b := by
  have hfin : ∀ t : ClientTraced, t.view.face.sentEof = b →
      (let t := t.onSocket fun k => { k with ended := true }
        if t.self.sentEof then finish t else t).view.face.sentEof = b := by
    intro t h
    dsimp only
    split
    · rw [view_finish]
      exact h
    · exact h
  unfold onEof
  split
  · exact h
  split
  · exact h
  · refine outcome_map (P := fun t : ClientTraced => t.view.face.sentEof = b) ?_ hfin
    rw [view_flushAck]
    dsimp only
    split
    · exact h
    · exact h

theorem connected_onEof (flushed : Bool) :
    (outcome (onEof env t flushed)).view.connected = t.view.connected := by
  have hfin : ∀ u : ClientTraced, u.view.connected = t.view.connected →
      (let u := u.onSocket fun k => { k with ended := true }
        if u.self.sentEof then finish u else u).view.connected = t.view.connected := by
    intro u h
    dsimp only
    split
    · rw [view_finish]
      exact h
    · exact h
  unfold onEof
  split
  · rfl
  split
  · rfl
  · refine outcome_map (P := fun u : ClientTraced => u.view.connected = t.view.connected) ?_ hfin
    rw [view_flushAck]
    dsimp only
    split <;> rfl

theorem sentEof_attach (flushed : Nat → Bool) (h : t.view.face.sentEof = b) :
    (outcome (attach env t flushed)).view.face.sentEof = b := by
  unfold attach
  split
  · exact h
  · refine outcome_bind (P := fun t : ClientTraced => t.view.face.sentEof = b) (sentEof_writeQueued _ _ h) fun t h => ?_
    refine outcome_map (P := fun t : ClientTraced => t.view.face.sentEof = b) ?_ fun t h => ?_
    · dsimp only
      split
      · exact sentEof_onEof _ h
      · exact h
    · dsimp only
      split
      · exact h
      · exact h

end

/-- The dial has come through before the other end's EOF. -/
theorem view_attach {flushed : Nat → Bool} (hf : t.view.face.finished = false) (hq : t.view.queuedEof = false)
    (h : attach env t flushed = .ok t') :
    t'.view = { t.view with
      face := { t.view.face with written := (t.view.head.takes t.view.queued).2, ended := false }
      connected := true
      queued := []
      head := (t.view.head.takes t.view.queued).1 } := by
  have hf' : t.self.finished = false := hf
  unfold attach at h
  rw [if_neg (by simp [hf'])] at h
  obtain ⟨t1, h1, h2⟩ := bind_ok.mp h
  have hv := view_writeQueued _ _ h1
  obtain ⟨t2, h3, rfl⟩ := map_ok.mp h2
  have hpause : ∀ t : ClientTraced, (if t.self.pausedGlobally then
      ({ t with self := { t.self with toEndpoint := t.self.pause } } : ClientTraced) else t).view = t.view := by
    intro t
    split <;> rfl
  have hq1 : t1.self.queuedEof = false := (congrArg ClientView.queuedEof hv).trans hq
  dsimp only at h3
  rw [if_neg (by simp [hq1])] at h3
  cases h3
  rw [hpause]
  show ({ t1.view with queued := [] } : ClientView) = _
  rw [hv]
  simp [view, ClientStream.view, Endpoint.face, Socket.fresh]

/-! ### Watching it -/

/-- With a Host rewrite, the request head waits until it is complete or too long. -/
def demand (spec : TunnelSpec) : Watched.Demand where
  expected arrived := ((Head.start spec).takes arrived).2
  heldBack arrived := ((Head.start spec).takes arrived).1.heldBack

def face (t : ClientTraced) : Face := t.view.face

/-- A local socket has listeners once it is connected. -/
def listens (t : ClientTraced) : Bool := t.self.connected

def watched (id : Nat) (spec : TunnelSpec) (window : Int) (wire : Wire) (listed : Bool) :
    Watched ClientTraced where
  stream := .new id spec window wire listed
  accepted := []
  arrived := []
  eofArrived := false
  reset := false
  autoEnded := false

abbrev watch (env : WireEnv) :
    Watched ClientTraced → StreamEvent → Except (Watched ClientTraced) (Watched ClientTraced) :=
  Watched.next face ClientTraced.calls listens (ClientTraced.step env)

/-- What ties a watched stream to what has been seen of it. -/
structure Seen (spec : TunnelSpec) (w : Watched ClientTraced) : Prop where
  closing : w.eofArrived = false → w.stream.view.face.receivedEof = false ∧
    w.stream.view.face.ended = false ∧ w.stream.view.queuedEof = false
  autoEnded : w.stream.view.face.sentEof = true → w.autoEnded = true
  connected : w.stream.view.face.sentEof = true → w.stream.view.connected = true
  dialling : w.eofArrived = false → w.stream.view.face.finished = false → w.stream.view.connected = false →
    w.autoEnded = false ∧ w.accepted = [] ∧ w.stream.view.face.written = [] ∧
      w.stream.view.queued = w.arrived ∧ w.stream.view.head = .start spec
  quiet : w.eofArrived = false → w.stream.view.face.finished = false → w.stream.view.face.sentEof = false →
    w.stream.view.connected = true →
      w.autoEnded = false ∧ w.accepted = ((Head.start spec).takes w.arrived).2 ∧
        w.stream.view.head = ((Head.start spec).takes w.arrived).1
  reset : w.reset = false → (letters w.stream.calls).contains FrameType.streamReset = false

variable {spec : TunnelSpec} {w : Watched ClientTraced}

theorem letters_flushAck (t : ClientTraced) :
    (letters (outcome (flushAck env t)).calls).contains FrameType.streamReset =
      (letters t.calls).contains FrameType.streamReset := by
  have h : (letters (outcome (t.base.flushAck env)).calls).contains FrameType.streamReset =
      (letters t.base.calls).contains FrameType.streamReset := Traced.letters_flushAck t.base
  unfold flushAck via
  cases hx : t.base.flushAck env with
  | ok b =>
    rw [hx] at h
    exact h
  | error b =>
    rw [hx] at h
    exact h

theorem letters_onData (t : ClientTraced) (payload : Bytes) (flushed : Bool) :
    (letters (outcome (onData env t payload flushed)).calls).contains FrameType.streamReset =
      (letters t.calls).contains FrameType.streamReset := by
  have key : ∀ p : ClientStream × Bytes,
      (letters (outcome (if p.2.length = 0 then flushAck env { t with self := p.1 }
        else if flushed then flushAck env { t with self := { p.1 with socket := p.1.socket.write p.2 flushed } }
        else .ok { t with self := { p.1 with socket := p.1.socket.write p.2 flushed } })).calls).contains
          FrameType.streamReset = (letters t.calls).contains FrameType.streamReset := by
    intro p
    split
    · exact letters_flushAck _
    · cases flushed with
      | false => rfl
      | true => exact letters_flushAck _
  unfold onData
  split
  · rfl
  split
  · rfl
  · exact key _

/-- An event that neither brings the other end's EOF nor ends the dial. -/
theorem Seen.observe_next (h : Seen spec w) {e : StreamEvent} {s : ClientTraced}
    (hv : s.view = w.stream.view.next e) :
    Seen spec (w.observe face ClientTraced.calls listens e s) := by
  obtain ⟨hsc, hsq, hsr, hse⟩ := w.stream.view.next_same e
  rw [← hv] at hsc hsq hsr hse
  have hpast : (w.observe face ClientTraced.calls listens e s).eofArrived = false → w.eofArrived = false := by
    intro hc
    simp only [Watched.observe, Bool.or_eq_false_iff] at hc
    exact hc.1
  constructor
  · intro hc
    obtain ⟨h1, h2, h3⟩ := h.closing (hpast hc)
    exact ⟨hsr.trans h1, hse.trans h2, hsq.trans h3⟩
  · intro hs
    have hs' : s.view.face.sentEof = true := hs
    show (w.autoEnded || (e.isEnd && w.stream.self.connected)) = true
    by_cases hend : e.isEnd = false ∨ w.stream.view.connected = false
    · rw [hv, ClientView.sentEof_next hend] at hs'
      rw [h.autoEnded hs', Bool.true_or]
    · simp only [not_or, Bool.not_eq_false] at hend
      have hc : w.stream.self.connected = true := hend.2
      simp [hend.1, hc]
  · intro hs
    have hs' : s.view.face.sentEof = true := hs
    show s.view.connected = true
    rw [hsc]
    by_cases hend : e.isEnd = false ∨ w.stream.view.connected = false
    · rw [hv, ClientView.sentEof_next hend] at hs'
      exact h.connected hs'
    · simp only [not_or, Bool.not_eq_false] at hend
      exact hend.2
  · intro hc hf hcon
    have hf' : s.view.face.finished = false := hf
    have hcon' : w.stream.view.connected = false := hsc.symm.trans hcon
    have hse' : (w.stream.view.next e).face.sentEof = false := by
      rw [ClientView.sentEof_next (.inr hcon')]
      by_contra hs
      rw [Bool.not_eq_false] at hs
      rw [h.connected hs] at hcon'
      cases hcon'
    rw [hv] at hf'
    obtain ⟨hf0, hs0, hend, hn⟩ := ClientView.quiet_next (h.closing (hpast hc)).1 hf' hse'
    obtain ⟨h1, h2, h3, h4, h5⟩ := h.dialling (hpast hc) hf0 hcon'
    have hl : listens w.stream = false := hcon'
    have hface : face s = s.view.face := rfl
    have hface' : face w.stream = w.stream.view.face := rfl
    rw [hn] at hv
    cases hp : e.payload? with
    | none =>
      rw [hp] at hv
      have hv' : s.view = w.stream.view := hv
      simp only [Watched.observe, hp, hface, hface', hv', h1, h2, h3, hl]
      exact ⟨by simp, by simp, trivial, by simp [h4], h5⟩
    | some payload =>
      rw [hp] at hv
      have hv' : s.view = { w.stream.view with queued := w.stream.view.queued ++ [payload] } := by
        rw [hv]
        simp [hcon']
      simp only [Watched.observe, hp, hface, hface', hv', h1, h2, h3, hl]
      exact ⟨by simp, by simp, trivial, by simp [h4], h5⟩
  · intro hc hf hs hcon
    have hf' : s.view.face.finished = false := hf
    have hs' : s.view.face.sentEof = false := hs
    have hcon' : w.stream.view.connected = true := hsc.symm.trans hcon
    rw [hv] at hf' hs'
    obtain ⟨hf0, hs0, hend, hn⟩ := ClientView.quiet_next (h.closing (hpast hc)).1 hf' hs'
    obtain ⟨h1, h2, h3⟩ := h.quiet (hpast hc) hf0 hs0 hcon'
    have hnot : e.isEnd = false := by
      by_contra hh
      rw [Bool.not_eq_false] at hh
      rw [hend hh] at hcon'
      cases hcon'
    have hface : face s = s.view.face := rfl
    have hface' : face w.stream = w.stream.view.face := rfl
    rw [hn] at hv
    cases hp : e.payload? with
    | none =>
      rw [hp] at hv
      have hv' : s.view = w.stream.view := hv
      simp only [Watched.observe, hp, hface, hface', hv', h1, h2, hnot]
      exact ⟨by simp, by simp, by simpa using h3⟩
    | some payload =>
      rw [hp] at hv
      have hv' : s.view = w.stream.view.write payload := by
        rw [hv]
        simp [hcon']
      simp only [Watched.observe, hp, hface, hface', hv', h1, h2, hnot, ClientView.write, h3,
        Option.toList_some, Head.takes_concat]
      exact ⟨by simp, by simp, trivial⟩
  · intro hr
    simp only [Watched.observe, Bool.or_eq_false_iff] at hr ⊢
    exact hr.2

theorem Seen.observe_attach (h : Seen spec w) {flushed : Nat → Bool} {s : ClientTraced}
    (hx : step env w.stream (.attach flushed) = .ok s) :
    Seen spec (w.observe face ClientTraced.calls listens (.attach flushed) s) := by
  have hstep : (if w.stream.self.connected then .ok w.stream else attach env w.stream flushed) = .ok s := hx
  cases hcon : w.stream.self.connected with
  | true =>
    rw [hcon, if_pos rfl] at hstep
    cases hstep
    exact h.observe_next rfl
  | false =>
    rw [hcon, if_neg (by simp)] at hstep
    cases hf : w.stream.self.finished with
    | true =>
      rw [attach, if_pos hf] at hstep
      cases hstep
      exact h.observe_next rfl
    | false =>
      have hsent : w.stream.view.face.sentEof = false := by
        by_contra hs
        rw [Bool.not_eq_false] at hs
        have hc : w.stream.self.connected = true := h.connected hs
        rw [hcon] at hc
        cases hc
      have hs' : s.view.face.sentEof = false := by
        have hs : (outcome (attach env w.stream flushed)).view.face.sentEof = false :=
          sentEof_attach flushed hsent
        rwa [hstep, outcome_ok] at hs
      have heof : (w.observe face ClientTraced.calls listens (.attach flushed) s).eofArrived = w.eofArrived := by
        simp [Watched.observe, StreamEvent.isFrame]
      have hview : w.eofArrived = false → s.view = { w.stream.view with
          face := { w.stream.view.face with written := ((Head.start spec).takes w.arrived).2, ended := false }
          connected := true
          queued := []
          head := ((Head.start spec).takes w.arrived).1 } := by
        intro hc
        obtain ⟨_, _, _, h4, h5⟩ := h.dialling hc hf hcon
        rw [view_attach hf (h.closing hc).2.2 hstep, h4, h5]
      constructor
      · intro hc
        rw [heof] at hc
        obtain ⟨h1, _, h3⟩ := h.closing hc
        show s.view.face.receivedEof = false ∧ s.view.face.ended = false ∧ s.view.queuedEof = false
        rw [hview hc]
        exact ⟨h1, rfl, h3⟩
      · intro hs
        rw [show (w.observe face ClientTraced.calls listens (.attach flushed) s).stream = s from rfl, hs'] at hs
        cases hs
      · intro hs
        rw [show (w.observe face ClientTraced.calls listens (.attach flushed) s).stream = s from rfl, hs'] at hs
        cases hs
      · intro hc _ hcon'
        rw [heof] at hc
        have hcon2 : s.view.connected = false := hcon'
        rw [hview hc] at hcon2
        cases hcon2
      · intro hc _ _ _
        rw [heof] at hc
        obtain ⟨h1, h2, h3, h4, h5⟩ := h.dialling hc hf hcon
        have hface : face s = s.view.face := rfl
        have hface' : face w.stream = w.stream.view.face := rfl
        simp only [Watched.observe, hface, hface', hview hc, h1, h2, h3]
        exact ⟨by simp [StreamEvent.isEnd], by simp [StreamEvent.payload?], by simp [StreamEvent.payload?]⟩
      · intro hr
        simp only [Watched.observe, Bool.or_eq_false_iff] at hr ⊢
        exact hr.2

/-- The other end's EOF. -/
theorem Seen.observe_eof (h : Seen spec w) {payload : Bytes} {flushed : Bool} :
    Seen spec (w.observe face ClientTraced.calls listens (.frame FrameType.streamEof payload flushed)
      (outcome (onEof env w.stream flushed))) := by
  have hs : (outcome (onEof env w.stream flushed)).view.face.sentEof = w.stream.view.face.sentEof :=
    sentEof_onEof flushed rfl
  have hc : (outcome (onEof env w.stream flushed)).view.connected = w.stream.view.connected := connected_onEof flushed
  have heof : (w.observe face ClientTraced.calls listens (.frame FrameType.streamEof payload flushed)
      (outcome (onEof env w.stream flushed))).eofArrived = true := by
    simp [Watched.observe, StreamEvent.isFrame]
  constructor
  · intro hn
    rw [heof] at hn
    cases hn
  · intro hs'
    have hs0 : w.stream.view.face.sentEof = true := hs.symm.trans hs'
    show (w.autoEnded || _) = true
    rw [h.autoEnded hs0, Bool.true_or]
  · intro hs'
    exact hc.trans (h.connected (hs.symm.trans hs'))
  · intro hn
    rw [heof] at hn
    cases hn
  · intro hn
    rw [heof] at hn
    cases hn
  · intro hr
    simp only [Watched.observe, Bool.or_eq_false_iff] at hr ⊢
    exact hr.2

theorem Seen.keep (h : Seen spec w) {e : StreamEvent} {s : ClientTraced} (hx : step env w.stream e = .ok s) :
    Seen spec (w.observe face ClientTraced.calls listens e s) := by
  by_cases ha : ∃ flushed, e = .attach flushed
  · obtain ⟨flushed, rfl⟩ := ha
    exact h.observe_attach hx
  · have ha' : ∀ flushed, e ≠ .attach flushed := fun flushed he => ha ⟨flushed, he⟩
    have hs : s = outcome (step env w.stream e) := by rw [hx, outcome_ok]
    cases he : e.isFrame FrameType.streamEof with
    | false => exact h.observe_next (by rw [hs]; exact view_step he ha')
    | true =>
      cases e with
      | frame type payload flushed =>
        have ht : type = FrameType.streamEof := by simpa [StreamEvent.isFrame] using he
        subst ht
        rw [hs]
        exact h.observe_eof
      | _ => simp [StreamEvent.isFrame] at he

theorem sentEof_step {t : ClientTraced} {e : StreamEvent} {b : Bool} (hs : t.view.face.sentEof = b)
    (hend : e.isEnd = false ∨ t.view.connected = false) :
    (outcome (step env t e)).view.face.sentEof = b := by
  by_cases ha : ∃ flushed, e = .attach flushed
  · obtain ⟨flushed, rfl⟩ := ha
    show (outcome (if t.self.connected then .ok t else attach env t flushed)).view.face.sentEof = b
    split
    · exact hs
    · exact sentEof_attach flushed hs
  · have ha' : ∀ flushed, e ≠ .attach flushed := fun flushed he => ha ⟨flushed, he⟩
    cases he : e.isFrame FrameType.streamEof with
    | false => rw [view_step he ha', ClientView.sentEof_next hend, hs]
    | true =>
      cases e with
      | frame type payload flushed =>
        have ht : type = FrameType.streamEof := by simpa [StreamEvent.isFrame] using he
        subst ht
        exact sentEof_onEof flushed hs
      | _ => simp [StreamEvent.isFrame] at he

theorem watch_grants (spec : TunnelSpec) :
    Watched.Grants face ClientTraced.calls listens (ClientTraced.step env) (fun t => t.self.ackFits)
      (demand spec) (Seen spec) where
  keep w e w' h hx := by
    unfold Watched.next at hx
    cases hs : step env w.stream e with
    | error s => simp [hs] at hx
    | ok s =>
      rw [hs] at hx
      cases hx
      exact h.keep hs
  autoEnded w h := h.autoEnded
  sentEof w e h hs := by
    cases he : e.isEnd with
    | false => exact sentEof_step hs (.inl he)
    | true =>
      cases e with
      | «end» =>
        have hv : (outcome (step env w.stream .end)).view = w.stream.view.next .end :=
          view_step rfl fun _ h => by cases h
        show (outcome (step env w.stream .end)).view.face.sentEof = true
        rw [hv]
        exact ClientView.sentEof_next_of hs
      | _ => simp [StreamEvent.isEnd] at he
  enter w e h hs hc := by
    rw [Watched.outcome_next] at hc ⊢
    have hs' : (outcome (step env w.stream e)).view.face.sentEof = true := hc.sentEof
    have hc' := hc.eofArrived
    simp only [Watched.observe, Bool.or_eq_false_iff] at hc'
    have hend : ¬(e.isEnd = false ∨ w.stream.view.connected = false) := by
      intro hend
      rw [sentEof_step hs hend] at hs'
      cases hs'
    simp only [not_or, Bool.not_eq_false] at hend
    cases e with
    | «end» =>
      have hv : (outcome (step env w.stream .end)).view = w.stream.view.sourceEnd := by
        rw [view_step rfl fun _ h => by cases h]
        exact if_pos hend.2
      have hf : w.stream.view.face.finished = false := by
        by_contra hf
        rw [Bool.not_eq_false] at hf
        have hs2 : w.stream.view.face.sentEof = false := hs
        rw [hv] at hs'
        simp [ClientView.sourceEnd, Face.sourceEnd, hf, hs2] at hs'
      obtain ⟨ha, hacc, _⟩ := h.quiet hc'.1 hf hs hend.2
      have hwr : (face (outcome (step env w.stream .end))).written = (face w.stream).written := by
        show (outcome (step env w.stream .end)).view.face.written = _
        rw [hv]
        exact Face.written_sourceEnd
      simp [Watched.observe, ha, hwr, hacc, demand, StreamEvent.payload?]
    | _ => simp [StreamEvent.isEnd] at hend
  data w e payload h he hc := by
    rw [Watched.outcome_next]
    cases e with
    | frame type p flushed =>
      have ht : type = FrameType.streamData := by
        by_contra ht
        simp [StreamEvent.payload?, ht] at he
      subst ht
      refine ⟨sentEof_step hc.sentEof (.inl rfl), ?_, ?_⟩
      · simp [Watched.observe, hc.eofArrived, StreamEvent.isFrame, FrameType.streamData, FrameType.streamEof]
      · have hl : (letters (outcome (step env w.stream (.frame FrameType.streamData p flushed))).calls).contains
            FrameType.streamReset = false := (letters_onData w.stream p flushed).trans (h.reset hc.reset)
        simp only [Watched.observe, hc.reset, hl, StreamEvent.isFrame]
        decide
    | _ => simp [StreamEvent.payload?] at he
  eof w e h he hc := by
    cases e with
    | frame type payload flushed =>
      have ht : type = FrameType.streamEof := by simpa [StreamEvent.isFrame] using he
      subst ht
      obtain ⟨h1, h2, _⟩ := h.closing hc.eofArrived
      exact (view_onEof flushed (fun _ => h1) h2).2.2 (h.connected hc.sentEof)
    | _ => simp [StreamEvent.isFrame] at he

end ClientTraced

/-! ## Both kinds of stream -/

/-- The server's stream hands on every payload: while it is half closed none may come in. -/
theorem halfClose_iff (env : WireEnv) (id : Nat) (window : Int) (wire : Wire) (listed : Bool)
    (es : List StreamEvent) :
    (∀ chunks,
      Watched.Kept Traced.face Traced.calls (fun _ => true) (Traced.step env) Traced.demand
          (Traced.watched id chunks window wire listed) es ↔
        Watched.Untested Traced.face Traced.calls (fun _ => true) (Traced.step env)
          (fun t => t.self.ackFits) Traced.demand (Traced.watched id chunks window wire listed) es) ∧
    ∀ spec,
      Watched.Kept ClientTraced.face ClientTraced.calls ClientTraced.listens (ClientTraced.step env)
          (ClientTraced.demand spec) (ClientTraced.watched id spec window wire listed) es ↔
        Watched.Untested ClientTraced.face ClientTraced.calls ClientTraced.listens (ClientTraced.step env)
          (fun t => t.self.ackFits) (ClientTraced.demand spec)
          (ClientTraced.watched id spec window wire listed) es := by
  refine ⟨fun chunks => Watched.kept_iff Traced.watch_grants ?_ ?_,
    fun spec => Watched.kept_iff (ClientTraced.watch_grants spec) ?_ ?_⟩
  · exact ⟨fun _ => ⟨rfl, rfl⟩, fun h => (by cases h), fun _ _ _ => ⟨rfl, rfl⟩, fun _ => rfl⟩
  · intro h
    cases h.sentEof
  · exact ⟨fun _ => ⟨rfl, rfl, rfl⟩, fun h => (by cases h), fun h => (by cases h),
      fun _ _ _ => ⟨rfl, rfl, rfl, rfl, rfl⟩, fun _ _ _ h => (by cases h), fun _ => rfl⟩
  · intro h
    cases h.sentEof

/-- A byte that comes in after the local end. -/
theorem not_kept :
    (¬∀ (env : WireEnv) (id : Nat) (window : Int) (wire : Wire) (listed : Bool) (es : List StreamEvent),
      ∀ chunks, Watched.Kept Traced.face Traced.calls (fun _ => true) (Traced.step env) Traced.demand
        (Traced.watched id chunks window wire listed) es) ∧
    ¬∀ (env : WireEnv) (id : Nat) (window : Int) (wire : Wire) (listed : Bool) (es : List StreamEvent),
      ∀ spec, Watched.Kept ClientTraced.face ClientTraced.calls ClientTraced.listens (ClientTraced.step env)
        (ClientTraced.demand spec) (ClientTraced.watched id spec window wire listed) es := by
  let env : WireEnv := { wsMaxBuffered := 1000, bufferedAmount := fun _ => 0 }
  let wire : Wire :=
    { closed := false, readyOpen := true, congested := false, congestionTimer := false, sent := [], received := [] }
  constructor
  · intro h
    have hk := (h env 1 16 wire true [.end, .frame FrameType.streamData [7] true] []).taken _
      (List.prefix_refl _) ⟨rfl, rfl, by decide⟩
    have hk' : ([] : List Bytes) = [[7]] := hk
    cases hk'
  · intro h
    let spec : TunnelSpec :=
      { name := "ssh", kind := .tcp, targetHost := "localhost", targetPort := 22, subdomain := none
        remotePort := none, rewriteHost := false }
    have hk := (h env 1 16 wire true [.attach fun _ => true, .end, .frame FrameType.streamData [7] true] spec).taken _
      (List.prefix_refl _) ⟨rfl, rfl, by decide⟩
    have hk' : ([] : List Bytes) = [[7]] := hk
    cases hk'

end UpTunnel
