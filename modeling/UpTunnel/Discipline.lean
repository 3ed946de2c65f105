import Mathlib.Computability.RegularExpressions
import UpTunnel.Calls
import UpTunnel.Server.Session
import UpTunnel.Client.Agent

/-!
# UpTunnel.Discipline

What a stream may call on its owner, and when.

* `Trail`: the calls of a stream by whether it has sent its EOF and whether it is finished. Its
  constructors are the calls that the methods make; every event extends the trail
  (`Traced.step_disciplined`, `ClientTraced.step_disciplined`).
* `Trail.word`: the frames of a trail form a word of `(DATA|ACK)*(EOF ACK*)?RESET?`.
* `output_discipline`: every run of either kind of stream, thrown out of or not.
-/

namespace UpTunnel

open Js

/-! ## Words -/

def Frame.type : Frame → Nat
  | .control type _ => type
  | .stream type _ _ => type

/-- The types of the frames among the calls. -/
def letters (calls : List Call) : List Nat := (emitted calls).map Frame.type

theorem letters_append (cs ds : List Call) : letters (cs ++ ds) = letters cs ++ letters ds := by
  simp [letters]

open RegularExpression in
/-- What a stream has sent before it is finished, by whether that includes its EOF. -/
def openWord : Bool → RegularExpression Nat
  | false => star (char FrameType.streamData + char FrameType.streamAck)
  | true =>
    star (char FrameType.streamData + char FrameType.streamAck) *
      (char FrameType.streamEof * star (char FrameType.streamAck))

open RegularExpression in
/-- `(DATA|ACK)*(EOF ACK*)?RESET?` -/
def outputWord : RegularExpression Nat :=
  star (char FrameType.streamData + char FrameType.streamAck) *
    (1 + char FrameType.streamEof * star (char FrameType.streamAck)) *
    (1 + char FrameType.streamReset)

/-- The calls of the stream `id`. -/
inductive Trail (id : Nat) : (sentEof finished : Bool) → List Call → Prop where
  | start : Trail id false false []
  | data {cs : List Call} (payload : Bytes) :
      Trail id false false cs → Trail id false false (cs ++ [.send (.data id payload)])
  | ack {e : Bool} {cs : List Call} (payload : Bytes) :
      Trail id e false cs → Trail id e false (cs ++ [.send (.stream FrameType.streamAck id payload)])
  | eof {cs : List Call} : Trail id false false cs → Trail id true false (cs ++ [.send (.eof id)])
  | finish {e : Bool} {cs : List Call} :
      Trail id e false cs → Trail id e true (cs ++ [.onStreamFinished id])
  | abort {e : Bool} {cs : List Call} (payload : Bytes) :
      Trail id e false cs →
        Trail id e true (cs ++ [.send (.stream FrameType.streamReset id payload), .onStreamFinished id])

namespace Trail

variable {id : Nat} {e f : Bool} {cs : List Call}

theorem own (h : Trail id e f cs) : ∀ g ∈ emitted cs, g.streamId? = some id := by
  induction h with
  | start => simp [emitted]
  | data payload _ ih | ack payload _ ih => simpa [or_imp, forall_and] using ih
  | eof _ ih => simpa [or_imp, forall_and] using ih
  | finish _ ih => simpa using ih
  | abort payload _ ih => simpa [emitted, or_imp, forall_and] using ih

theorem finishes_eq (h : Trail id e f cs) : finishes cs = if f then [id] else [] := by
  induction h with
  | start => rfl
  | data _ _ ih | ack _ _ ih => simpa using ih
  | eof _ ih => simpa using ih
  | finish _ ih => simpa using ih
  | abort payload _ ih =>
    rw [finishes_append, ih]
    rfl

theorem count_eof (h : Trail id e f cs) : (letters cs).count FrameType.streamEof = e.toNat := by
  induction h with
  | start => rfl
  | data _ _ ih | ack _ _ ih | eof _ ih | finish _ ih | abort _ _ ih =>
    rw [letters_append, List.count_append, ih]
    rfl

theorem count_reset (h : Trail id e f cs) : (letters cs).count FrameType.streamReset ≤ f.toNat := by
  induction h with
  | start => exact Nat.le_refl _
  | data _ _ ih | ack _ _ ih | eof _ ih | abort _ _ ih =>
    rw [letters_append, List.count_append]
    exact Nat.add_le_add_right ih _
  | finish _ ih =>
    rw [letters_append, List.count_append]
    exact Nat.le_succ_of_le ih

open Language Computability RegularExpression

theorem concat_mem_kstar {l : Language Nat} {x y : List Nat} (hx : x ∈ l∗) (hy : y ∈ l) : x ++ y ∈ l∗ := by
  have h : l∗ * l ≤ l∗ := kstar_mul_le_kstar
  exact h (append_mem_mul hx hy)

/-- A stream that is not finished: each call adds one letter at the end. -/
theorem mem_openWord (h : Trail id e f cs) (hf : f = false) : letters cs ∈ (openWord e).matches' := by
  induction h with
  | start => exact nil_mem_kstar _
  | data _ _ ih =>
    rw [letters_append]
    exact concat_mem_kstar (ih hf) (.inl rfl)
  | @ack e _ _ _ ih =>
    rw [letters_append]
    cases e with
    | false => exact concat_mem_kstar (ih hf) (.inr rfl)
    | true =>
      obtain ⟨a, ha, b, ⟨c, hc, d, hd, rfl⟩, hab⟩ := ih hf
      refine ⟨a, ha, c ++ (d ++ [FrameType.streamAck]), ?_, ?_⟩
      · exact append_mem_mul hc (concat_mem_kstar hd rfl)
      · rw [← hab]
        simp [letters, Frame.type]
  | eof _ ih =>
    rw [letters_append]
    refine append_mem_mul (ih hf) ?_
    exact ⟨[FrameType.streamEof], rfl, [], nil_mem_kstar _, rfl⟩
  | finish => cases hf
  | abort => cases hf

/-- A word that may still grow, with or without the RESET that ends it. -/
theorem append_mem_outputWord {w r : List Nat} (hw : w ∈ (openWord e).matches')
    (hr : r = [] ∨ r = [FrameType.streamReset]) : w ++ r ∈ outputWord.matches' := by
  refine append_mem_mul ?_ hr
  cases e with
  | false => exact ⟨w, hw, [], .inl rfl, List.append_nil w⟩
  | true =>
    obtain ⟨a, ha, b, hb, hab⟩ := hw
    exact ⟨a, ha, b, .inr hb, hab⟩

theorem mem_outputWord (h : Trail id e f cs) : letters cs ∈ outputWord.matches' := by
  cases h with
  | start => simpa using append_mem_outputWord (mem_openWord (start : Trail id false false []) rfl) (.inl rfl)
  | data p h => simpa using append_mem_outputWord (mem_openWord (h.data p) rfl) (.inl rfl)
  | ack p h => simpa using append_mem_outputWord (mem_openWord (h.ack p) rfl) (.inl rfl)
  | eof h => simpa using append_mem_outputWord (mem_openWord h.eof rfl) (.inl rfl)
  | finish h =>
    rw [letters_append]
    exact append_mem_outputWord (mem_openWord h rfl) (.inl rfl)
  | abort p h =>
    rw [letters_append]
    exact append_mem_outputWord (mem_openWord h rfl) (.inr rfl)

end Trail

namespace Endpoint

variable {α : Type}

/-- A field that is neither a pause flag nor credit. -/
theorem field_onAck (s : Endpoint) (g : Endpoint → α) (hg : ∀ s, g s.core = g s)
    (hca : ∀ s c a, g { s with sendCredit := c, acked := a } = g s) (bytes : Nat) :
    g (s.onAck bytes) = g s := by
  rw [← hg, core_onAck]
  split
  · exact hg s
  · rw [hca, hg]

theorem field_setGlobalPause (s : Endpoint) (g : Endpoint → α) (hg : ∀ s, g s.core = g s) (b : Bool) :
    g (s.setGlobalPause b) = g s := by
  rw [← hg, core_setGlobalPause, hg]

end Endpoint

/-! ## The server's stream -/

namespace Traced

/-- The calls of the stream so far are those of a stream in its state. -/
structure Disciplined (id : Nat) (t : Traced) : Prop where
  name : t.self.id = id
  trail : Trail id t.self.sentEof t.self.finished t.calls

variable {env : WireEnv} {id : Nat} {t t' : Traced}

/-- Only the id, the two flags and the calls matter. -/
theorem Disciplined.congr (h : t.Disciplined id) (hid : t'.self.id = t.self.id)
    (he : t'.self.sentEof = t.self.sentEof) (hf : t'.self.finished = t.self.finished)
    (hc : t'.calls = t.calls) : t'.Disciplined id :=
  ⟨hid.trans h.name, by rw [he, hf, hc]; exact h.trail⟩

theorem send_field {α : Type} (g : Endpoint → α) (hg : ∀ s, g s.core = g s) (f : Frame) :
    g (t.send env f).self = g t.self :=
  Ctx.send_field env g hg t.toCtx f

@[simp] theorem send_id (f : Frame) : (t.send env f).self.id = t.self.id := send_field (·.id) (fun _ => rfl) f
@[simp] theorem send_sentEof (f : Frame) : (t.send env f).self.sentEof = t.self.sentEof :=
  send_field (·.sentEof) (fun _ => rfl) f
@[simp] theorem send_receivedEof (f : Frame) : (t.send env f).self.receivedEof = t.self.receivedEof :=
  send_field (·.receivedEof) (fun _ => rfl) f
@[simp] theorem send_finished (f : Frame) : (t.send env f).self.finished = t.self.finished :=
  send_field (·.finished) (fun _ => rfl) f
@[simp] theorem send_calls (f : Frame) : (t.send env f).calls = t.calls ++ [.send f] := rfl

theorem finish_disciplined (h : t.Disciplined id) : t.finish.Disciplined id := by
  unfold finish
  split
  · exact h
  · rename_i hf
    have ht := h.trail
    rw [Bool.not_eq_true] at hf
    rw [hf] at ht
    refine ⟨h.name, ?_⟩
    show Trail id t.self.sentEof true (t.calls ++ [.onStreamFinished t.self.id])
    rw [h.name]
    exact ht.finish

theorem onSourceData_disciplined (h : t.Disciplined id) (chunk : Bytes) :
    (onSourceData env t chunk).Disciplined id := by
  unfold onSourceData
  split
  · exact h
  · rename_i hg
    simp only [Bool.or_eq_true, not_or, Bool.not_eq_true] at hg
    have ht := h.trail
    rw [hg.1, hg.2] at ht
    have hs : (t.send env (.data t.self.id chunk)).Disciplined id := by
      refine ⟨by simpa using h.name, ?_⟩
      rw [send_sentEof, send_finished, send_calls, hg.1, hg.2, h.name]
      exact ht.data chunk
    dsimp only
    split
    · exact hs.congr rfl rfl rfl rfl
    · exact hs.congr rfl rfl rfl rfl

theorem onSourceEnd_disciplined (h : t.Disciplined id) : (onSourceEnd env t).Disciplined id := by
  unfold onSourceEnd
  split
  · exact h
  · rename_i hg
    simp only [Bool.or_eq_true, not_or, Bool.not_eq_true] at hg
    have ht := h.trail
    rw [hg.1, hg.2] at ht
    let t1 : Traced := { t with self := { t.self with sentEof := true } }
    have hs : (t1.send env (.eof t1.self.id)).Disciplined id := by
      refine ⟨by simpa [t1] using h.name, ?_⟩
      rw [send_sentEof, send_finished, send_calls]
      show Trail id true t.self.finished (t.calls ++ [.send (.eof t.self.id)])
      rw [hg.1, h.name]
      exact ht.eof
    dsimp only
    split
    · exact finish_disciplined hs
    · exact hs

theorem flushAck_disciplined (h : t.Disciplined id) : (outcome (t.flushAck env)).Disciplined id := by
  unfold flushAck
  split
  · exact h
  · rename_i hg
    simp only [Bool.or_eq_true, not_or, Bool.not_eq_true] at hg
    have ht := h.trail
    rw [hg.2] at ht
    dsimp only
    cases ha : Frame.ack t.self.id t.self.recvUnacked with
    | error _ => exact h.congr rfl rfl rfl rfl
    | ok f =>
      obtain ⟨_, rfl⟩ := Frame.ack_ok ha
      refine ⟨by simpa using h.name, ?_⟩
      rw [outcome_ok, send_sentEof, send_finished, send_calls]
      show Trail id t.self.sentEof t.self.finished (t.calls ++ [_])
      rw [hg.2, h.name]
      exact ht.ack _

theorem destroy_disciplined (h : t.Disciplined id) (reason : String) :
    (destroy env t reason).Disciplined id := by
  unfold destroy
  split
  · exact h
  · rename_i hf
    rw [Bool.not_eq_true] at hf
    have ht := h.trail
    rw [hf] at ht
    dsimp only
    split
    · refine ⟨by simpa [onStreamFinished, onSocket] using h.name, ?_⟩
      simp only [onStreamFinished, onSocket, send_id, send_sentEof, send_finished, send_calls,
        List.append_assoc, List.singleton_append, h.name]
      exact ht.abort _
    · refine ⟨h.name, ?_⟩
      simp only [onStreamFinished, onSocket, h.name]
      exact ht.finish

theorem onData_disciplined (h : t.Disciplined id) (payload : Bytes) (flushed : Bool) :
    (outcome (onData env t payload flushed)).Disciplined id := by
  unfold onData
  split
  · exact h
  · cases flushed with
    | false => exact h.congr rfl rfl rfl rfl
    | true => exact flushAck_disciplined (h.congr rfl rfl rfl rfl)

theorem onEof_disciplined (h : t.Disciplined id) : (outcome (onEof env t)).Disciplined id := by
  unfold onEof
  split
  · exact h
  · refine outcome_map (flushAck_disciplined (h.congr rfl rfl rfl rfl)) fun t ht => ?_
    have h1 : (t.onSocket fun k => { k with ended := true }).Disciplined id := ht.congr rfl rfl rfl rfl
    dsimp only
    split
    · exact finish_disciplined h1
    · exact h1

theorem onAck_disciplined (h : t.Disciplined id) (bytes : Nat) : (t.onAck bytes).Disciplined id :=
  h.congr (t.self.field_onAck (·.id) (fun _ => rfl) (fun _ _ _ => rfl) bytes)
    (t.self.field_onAck (·.sentEof) (fun _ => rfl) (fun _ _ _ => rfl) bytes)
    (t.self.field_onAck (·.finished) (fun _ => rfl) (fun _ _ _ => rfl) bytes) rfl

theorem setGlobalPause_disciplined (h : t.Disciplined id) (b : Bool) : (t.setGlobalPause b).Disciplined id :=
  h.congr (t.self.field_setGlobalPause (·.id) (fun _ => rfl) b)
    (t.self.field_setGlobalPause (·.sentEof) (fun _ => rfl) b)
    (t.self.field_setGlobalPause (·.finished) (fun _ => rfl) b) rfl

theorem onFrame_disciplined (h : t.Disciplined id) (type : Nat) (payload : Bytes) (flushed : Bool) :
    (outcome (onFrame env t type payload flushed)).Disciplined id := by
  unfold onFrame
  split
  · exact onData_disciplined h payload flushed
  split
  · exact onEof_disciplined h
  split
  · rw [outcome_ok]
    split
    · exact onAck_disciplined h _
    · exact h
  split
  · exact destroy_disciplined h "peer_reset"
  · exact h

theorem step_disciplined (h : t.Disciplined id) (e : StreamEvent) :
    (outcome (step env t e)).Disciplined id := by
  have hs : ∀ f : Socket → Socket, (t.onSocket f).Disciplined id := fun f => h.congr rfl rfl rfl rfl
  cases e with
  | data chunk => exact onSourceData_disciplined (hs _) chunk
  | «end» => exact onSourceEnd_disciplined (hs _)
  | drain => exact flushAck_disciplined (hs _)
  | error => exact destroy_disciplined h _
  | close => exact finish_disciplined (hs _)
  | preread head =>
    show (writePreread env t head).Disciplined id
    unfold writePreread
    split
    · exact h
    · exact onSourceData_disciplined h head
  | attach flushed => exact h
  | dialFailed message => exact h
  | frame type payload flushed => exact onFrame_disciplined h type payload flushed
  | setGlobalPause paused => exact setGlobalPause_disciplined h paused
  | destroy reason => exact destroy_disciplined h reason
  | owner wire listed => exact h.congr rfl rfl rfl rfl

theorem flushAck_finished (hf : t.self.finished = true) : t.flushAck env = .ok t := by
  simp [flushAck, hf]

/-- A finished stream calls nothing, whatever happens to it. -/
theorem step_finished (hf : t.self.finished = true) (e : StreamEvent) :
    (outcome (step env t e)).calls = t.calls := by
  cases e with
  | data chunk | «end» | drain | error | close | destroy reason =>
    simp [step, onSocket, onSourceData, onSourceEnd, onDrain, flushAck, destroy, finish, hf]
  | preread head =>
    show (writePreread env t head).calls = t.calls
    unfold writePreread
    split
    · rfl
    · simp [onSourceData, hf]
  | frame type payload flushed =>
    show (outcome (onFrame env t type payload flushed)).calls = t.calls
    unfold onFrame
    split
    · simp [onData, hf]
    split
    · simp [onEof, hf]
    split
    · rw [outcome_ok]
      split <;> rfl
    split
    · simp [onReset, destroy, hf]
    · rfl
  | attach flushed | dialFailed message | setGlobalPause paused | owner wire listed => rfl

theorem emitted_onReset : emitted (onReset env t).calls = emitted t.calls := by
  unfold onReset destroy
  split
  · rfl
  · simp [onStreamFinished, onSocket]

end Traced

/-! ## The client's stream -/

namespace ClientTraced

variable {env : WireEnv} {id : Nat} {t : ClientTraced}

/-- What `Traced.Disciplined` says of the part that the two kinds of stream share. -/
abbrev Disciplined (id : Nat) (t : ClientTraced) : Prop := t.base.Disciplined id

theorem via_disciplined {m : Traced → Except Traced Traced} (h : (outcome (m t.base)).Disciplined id) :
    (outcome (t.via m)).Disciplined id := by
  unfold via
  cases hm : m t.base with
  | ok b => rw [hm] at h; exact h
  | error b => rw [hm] at h; exact h

theorem flushAck_disciplined (h : t.Disciplined id) : (outcome (flushAck env t)).Disciplined id :=
  via_disciplined (Traced.flushAck_disciplined h)

theorem toEndpoint_consumeHead (s : ClientStream) (chunk : Bytes) :
    (s.consumeHead chunk).1.toEndpoint = s.toEndpoint := by
  unfold ClientStream.consumeHead
  dsimp only
  split <;> rfl

theorem writeLocal_disciplined (h : t.Disciplined id) (payload : Bytes) (flushed : Bool) :
    (outcome (writeLocal env t payload flushed)).Disciplined id := by
  have key : ∀ p : ClientStream × Bytes, p.1.id = t.self.id → p.1.sentEof = t.self.sentEof →
      p.1.finished = t.self.finished →
      (outcome (if p.2.length = 0 then flushAck env { t with self := p.1 }
        else if flushed then flushAck env { t with self := { p.1 with socket := p.1.socket.write p.2 flushed } }
        else .ok { t with self := { p.1 with socket := p.1.socket.write p.2 flushed } })).Disciplined id := by
    intro p hid he hf
    split
    · exact flushAck_disciplined (h.congr hid he hf rfl)
    · cases flushed with
      | false => exact h.congr hid he hf rfl
      | true => exact flushAck_disciplined (h.congr hid he hf rfl)
  let s : ClientStream := { t.self with recvUnacked := t.self.recvUnacked + payload.length }
  have hp : (if s.headDone then (s, payload) else s.consumeHead payload).1.toEndpoint = s.toEndpoint := by
    split
    · rfl
    · exact toEndpoint_consumeHead s payload
  exact key _ (congrArg (·.id) hp) (congrArg (·.sentEof) hp) (congrArg (·.finished) hp)

theorem onData_disciplined (h : t.Disciplined id) (payload : Bytes) (flushed : Bool) :
    (outcome (onData env t payload flushed)).Disciplined id := by
  unfold onData
  split
  · exact h
  split
  · exact h
  · exact writeLocal_disciplined h payload flushed

theorem onEof_disciplined (h : t.Disciplined id) (flushed : Bool) :
    (outcome (onEof env t flushed)).Disciplined id := by
  unfold onEof
  split
  · exact h
  split
  · exact h
  · refine outcome_map (flushAck_disciplined ?_) fun t ht => ?_
    · dsimp only
      split
      · exact h.congr rfl rfl rfl rfl
      · exact h.congr rfl rfl rfl rfl
    · have h1 : (t.onSocket fun k => { k with ended := true }).Disciplined id := ht.congr rfl rfl rfl rfl
      dsimp only
      split
      · exact Traced.finish_disciplined h1
      · exact h1

theorem writeQueued_disciplined (h : t.Disciplined id) (payloads : List Bytes) (flushed : Nat → Bool) :
    (outcome (writeQueued env t payloads flushed)).Disciplined id := by
  induction payloads generalizing t flushed with
  | nil => exact h
  | cons payload rest ih => exact outcome_bind (writeLocal_disciplined h payload _) fun _ ht => ih ht _

theorem attach_disciplined (h : t.Disciplined id) (flushed : Nat → Bool) :
    (outcome (attach env t flushed)).Disciplined id := by
  unfold attach
  split
  · exact h
  · have h0 : ClientTraced.Disciplined id
        { t with self := { t.self with socket := Socket.fresh, connected := true } } := h.congr rfl rfl rfl rfl
    refine outcome_bind (writeQueued_disciplined h0 _ _) fun t ht => ?_
    refine outcome_map ?_ fun t ht => ?_
    · have h1 : ClientTraced.Disciplined id { t with self := { t.self with queued := [] } } :=
        ht.congr rfl rfl rfl rfl
      dsimp only
      split
      · exact onEof_disciplined h1 _
      · exact h1
    · have h1 : ClientTraced.Disciplined id { t with self := { t.self with toEndpoint := t.self.pause } } :=
        ht.congr rfl rfl rfl rfl
      dsimp only
      split
      · exact h1
      · exact ht

theorem dialFailed_disciplined (h : t.Disciplined id) (message : String) :
    (dialFailed env t message).Disciplined id := by
  unfold dialFailed
  split
  · exact h
  · rename_i hf
    rw [Bool.not_eq_true] at hf
    have ht := h.trail
    have hid : t.self.id = id := h.name
    have hf' : t.base.self.finished = false := hf
    rw [hf'] at ht
    refine ⟨by simpa [Traced.onStreamFinished] using h.name, ?_⟩
    simp only [base_put, Traced.onStreamFinished, Traced.send_id, Traced.send_sentEof, Traced.send_finished,
      Traced.send_calls, List.append_assoc, List.singleton_append, h.name, hid]
    exact ht.abort _

theorem onFrame_disciplined (h : t.Disciplined id) (type : Nat) (payload : Bytes) (flushed : Bool) :
    (outcome (onFrame env t type payload flushed)).Disciplined id := by
  unfold onFrame
  split
  · exact onData_disciplined h payload flushed
  split
  · exact onEof_disciplined h flushed
  split
  · rw [outcome_ok]
    split
    · exact Traced.onAck_disciplined h _
    · exact h
  split
  · exact Traced.destroy_disciplined h "peer_reset"
  · exact h

theorem step_disciplined (h : t.Disciplined id) (e : StreamEvent) :
    (outcome (step env t e)).Disciplined id := by
  have hs : ∀ f : Socket → Socket, (t.onSocket f).Disciplined id := fun f => h.congr rfl rfl rfl rfl
  unfold step
  cases e with
  | data chunk =>
    rw [outcome_ok]
    split
    · exact Traced.onSourceData_disciplined (hs _) chunk
    · exact h
  | «end» =>
    rw [outcome_ok]
    split
    · exact Traced.onSourceEnd_disciplined (hs _)
    · exact h
  | drain =>
    dsimp only
    split
    · exact flushAck_disciplined (hs _)
    · exact h
  | error =>
    rw [outcome_ok]
    split
    · exact Traced.destroy_disciplined h _
    · exact h
  | close =>
    rw [outcome_ok]
    split
    · exact Traced.finish_disciplined (hs _)
    · exact h
  | preread head => exact h
  | attach flushed =>
    dsimp only
    split
    · exact h
    · exact attach_disciplined h flushed
  | dialFailed message =>
    rw [outcome_ok]
    split
    · exact h
    · exact dialFailed_disciplined h message
  | frame type payload flushed => exact onFrame_disciplined h type payload flushed
  | setGlobalPause paused => exact Traced.setGlobalPause_disciplined h paused
  | destroy reason => exact Traced.destroy_disciplined h reason
  | owner wire listed => exact h.congr rfl rfl rfl rfl

theorem flushAck_finished (hf : t.self.finished = true) : flushAck env t = .ok t := by
  have hb : t.base.flushAck env = .ok t.base := Traced.flushAck_finished hf
  unfold flushAck via
  rw [hb]
  rfl

/-- A finished stream calls nothing, whatever happens to it. -/
theorem step_finished (hf : t.self.finished = true) (e : StreamEvent) :
    (outcome (step env t e)).calls = t.calls := by
  have hb : t.base.self.finished = true := hf
  have hs : ∀ f : Socket → Socket, (t.onSocket f).base.self.finished = true := fun _ => hf
  unfold step
  cases e with
  | data chunk =>
    rw [outcome_ok]
    split
    · exact congrArg Traced.calls (if_pos (by simp [hs]))
    · rfl
  | «end» =>
    rw [outcome_ok]
    split
    · exact congrArg Traced.calls (if_pos (by simp [hs]))
    · rfl
  | drain =>
    dsimp only
    split
    · rw [onDrain, flushAck_finished (by exact hf)]
      rfl
    · rfl
  | error =>
    rw [outcome_ok]
    split
    · exact congrArg Traced.calls (if_pos hb)
    · rfl
  | close =>
    rw [outcome_ok]
    split
    · exact congrArg Traced.calls (if_pos (hs _))
    · rfl
  | attach flushed =>
    dsimp only
    split
    · rfl
    · simp [attach, hf]
  | dialFailed message =>
    rw [outcome_ok]
    split
    · rfl
    · simp [dialFailed, hf]
  | frame type payload flushed =>
    dsimp only
    unfold onFrame
    split
    · simp [onData, hf]
    split
    · simp [onEof, hf]
    split
    · rw [outcome_ok]
      split <;> rfl
    split
    · exact congrArg Traced.calls (if_pos hb)
    · rfl
  | destroy reason => exact congrArg Traced.calls (if_pos hb)
  | preread head | setGlobalPause paused | owner wire listed => rfl

theorem emitted_onReset : emitted (onReset env t).calls = emitted t.calls :=
  Traced.emitted_onReset

end ClientTraced

/-! ## Owners -/

/-- An inbound STREAM_RESET, for a stream of the table or not, makes the session send nothing. -/
theorem AgentSession.wire_handleReset (env : WireEnv) (h : Hub Stream) (id : Nat) (payload : Bytes)
    (flushed : Bool) :
    (AgentSession.handleStreamFrame env h FrameType.streamReset id payload flushed).map (·.wire) =
      .ok h.wire := by
  unfold AgentSession.handleStreamFrame
  split
  · rfl
  · refine congrArg Except.ok (Hub.wire_call_of (f := Endpoint.aborted) fun s l => ?_)
    have hd := Ctx.destroy_silent env (c := ⟨s, h.wire, l⟩) (.inl rfl)
    simp [AgentSession.method, Ctx.onReset, hd]

theorem Agent.wire_handleReset (env : WireEnv) (h : Hub ClientStream) (id : Nat) (payload : Bytes)
    (flushed : Bool) :
    (Agent.handleStreamFrame env h FrameType.streamReset id payload flushed).map (·.wire) = .ok h.wire := by
  unfold Agent.handleStreamFrame
  split
  · rfl
  · refine congrArg Except.ok (Hub.wire_call_of
      (f := fun s => { s with toEndpoint := s.toEndpoint.aborted }) fun s l => ?_)
    have hd := Ctx.destroy_silent env (c := ⟨s.toEndpoint, h.wire, l⟩) (.inl rfl)
    simp [Agent.method, ClientStream.onReset, ClientStream.destroy, ClientCtx.put, ClientCtx.base, hd]

/-! ## The discipline -/

/-- What holds of a stream after any events: `self` and `calls` are its state and what it has
called, `step` what the next event makes of it. -/
structure OutputDiscipline {σ : Type} (self : σ → Endpoint) (calls : σ → List Call)
    (step : σ → StreamEvent → Except σ σ) (id : Nat) (s : σ) : Prop where
  own : ∀ f ∈ emitted (calls s), f.streamId? = some id
  word : letters (calls s) ∈ outputWord.matches'
  oneEof : (letters (calls s)).count FrameType.streamEof ≤ 1
  oneReset : (letters (calls s)).count FrameType.streamReset ≤ 1
  /-- `onStreamFinished` is called in the step in which `finished` becomes true, and only then. -/
  finishedOnce : finishes (calls s) = if (self s).finished then [id] else []
  silentOnceFinished : (self s).finished = true → ∀ e, calls (outcome (step s e)) = calls s
  silentOnReset : ∀ payload flushed,
    emitted (calls (outcome (step s (.frame FrameType.streamReset payload flushed)))) = emitted (calls s)

theorem OutputDiscipline.of_trail {σ : Type} {self : σ → Endpoint} {calls : σ → List Call}
    {step : σ → StreamEvent → Except σ σ} {id : Nat} {s : σ} {e : Bool}
    (h : Trail id e (self s).finished (calls s))
    (hf : (self s).finished = true → ∀ e, calls (outcome (step s e)) = calls s)
    (hr : ∀ payload flushed,
      emitted (calls (outcome (step s (.frame FrameType.streamReset payload flushed)))) = emitted (calls s)) :
    OutputDiscipline self calls step id s where
  own := h.own
  word := h.mem_outputWord
  oneEof := by
    rw [h.count_eof]
    exact e.toNat_le
  oneReset := h.count_reset.trans (Bool.toNat_le _)
  finishedOnce := h.finishes_eq
  silentOnceFinished := hf
  silentOnReset := hr

theorem output_discipline (env : WireEnv) (id : Nat) (window : Int) (wire : Wire) (listed : Bool)
    (es : List StreamEvent) :
    (∀ socket, OutputDiscipline (·.self) (·.calls) (Traced.step env) id
      (after (Traced.step env) (.new id socket window wire listed) es)) ∧
    (∀ spec, OutputDiscipline (·.self.toEndpoint) (·.calls) (ClientTraced.step env) id
      (after (ClientTraced.step env) (.new id spec window wire listed) es)) ∧
    (∀ h payload flushed,
      (AgentSession.handleStreamFrame env h FrameType.streamReset id payload flushed).map (·.wire) =
        .ok h.wire) ∧
    ∀ h payload flushed,
      (Agent.handleStreamFrame env h FrameType.streamReset id payload flushed).map (·.wire) = .ok h.wire := by
  refine ⟨fun socket => ?_, fun spec => ?_, fun h => AgentSession.wire_handleReset env h id,
    fun h => Agent.wire_handleReset env h id⟩
  · have h0 : (Traced.new id socket window wire listed).Disciplined id := ⟨rfl, .start⟩
    have h : (after (Traced.step env) _ es).Disciplined id :=
      after_invariant (P := Traced.Disciplined id) (fun _ e h => Traced.step_disciplined h e) es h0
    exact .of_trail h.trail (fun hf e => Traced.step_finished hf e) fun _ _ => Traced.emitted_onReset
  · have h0 : (ClientTraced.new id spec window wire listed).Disciplined id := ⟨rfl, .start⟩
    have h : (after (ClientTraced.step env) _ es).Disciplined id :=
      after_invariant (P := ClientTraced.Disciplined id) (fun _ e h => ClientTraced.step_disciplined h e) es h0
    exact .of_trail h.trail (fun hf e => ClientTraced.step_finished hf e) fun _ _ =>
      ClientTraced.emitted_onReset

end UpTunnel
