import UpTunnel.Python.Agent

/-!
# UpTunnel.Python.Pumps

One stream of the Python agent, in whatever order its tasks and the read loop go on.

* `Taken`: with the awaits taken into account, `_to_local` still does what `ToLocal.pump` does with the items it has
  taken, and has taken them in order.
* `Credited`: what `_to_server` has read, against the window and the STREAM_ACKs.
* `Awake`: it does not wait for credit that there is.
* `Spoken`: what the stream has sent.
* `Life`: which of its tasks there are and whether its connection is open.
-/

namespace UpTunnel.Python

open Js

/-- `_to_local` is at an `await`. -/
def ToLocalAt.waits : ToLocalAt → Bool
  | .unmade => false
  | .item => true
  | .drain _ => true
  | .drainHead => true
  | .returned => false
  | .raised => false
  | .cancelled => false

/-- `_to_server` is at an `await`, or still to begin. -/
def ToServerAt.waits : ToServerAt → Bool
  | .unmade => false
  | .start => true
  | .credit => true
  | .read => true
  | .returned => false
  | .cancelled => false

namespace Stream

/-! ## Moves -/

/-- What happens to one stream in a step of the agent. -/
inductive Move where
  | frame (frameType : Nat) (payload : Bytes)
  | step (e : Event)
  | finish
  | dialFailed (message : String)
  | gathered

def say (r : Stream × List Message) : Stream := { r.1 with queued := r.1.queued ++ r.2 }

variable {maxStrDigits : Nat} {s s' : Stream}

def move (maxStrDigits : Nat) (s : Stream) : Move → Option Stream
  | .frame frameType payload => some (s.onFrame frameType payload)
  | .step e => (s.step maxStrDigits e).map say
  | .finish => some s.finish
  | .dialFailed message => if s.run = .dialing then some (say (s.dialFailed message)) else none
  | .gathered => if s.run = .gathering ∧ s.gatherDone = true then some s.gathered else none

/-- A part of the invariant is kept by every move if it is kept by each kind of them. -/
theorem move_cases {P : Stream → Prop} {mv : Move} (h : s.move maxStrDigits mv = some s')
    (frame : ∀ t p, mv = .frame t p → P (s.onFrame t p))
    (step : ∀ e r, mv = .step e → s.step maxStrDigits e = some r → P (say r))
    (finish : mv = .finish → P s.finish)
    (dialFailed : ∀ m, mv = .dialFailed m → s.run = .dialing → P (say (s.dialFailed m)))
    (gathered : mv = .gathered → s.run = .gathering → s.gatherDone = true → P s.gathered) : P s' := by
  cases mv with
  | frame t p =>
    cases h
    exact frame t p rfl
  | step e =>
    obtain ⟨r, hr, rfl⟩ := Option.map_eq_some_iff.mp h
    exact step e r rfl hr
  | finish =>
    cases h
    exact finish rfl
  | dialFailed m =>
    simp only [move] at h
    split at h
    · rename_i hd
      cases h
      exact dialFailed m rfl hd
    · cases h
  | gathered =>
    simp only [move] at h
    split at h
    · rename_i hg
      cases h
      exact gathered rfl hg.1 hg.2
    · cases h

/-! ## What the parts of a step do -/

/-- `finish` leaves all but the tasks and the connection as they are. -/
theorem finish_eq (s : Stream) : ∃ l v w,
    s.finish = { s with finished := true, toLocalAt := l, toServerAt := v, writer := w } ∧
    (l = s.toLocalAt ∨ l = s.toLocalAt.cancel) ∧ (v = s.toServerAt ∨ v = s.toServerAt.cancel) ∧
    (w = s.writer ∨ w = s.writer.close) := by
  unfold finish
  split
  · rename_i hf
    refine ⟨s.toLocalAt, s.toServerAt, s.writer, ?_, .inl rfl, .inl rfl, .inl rfl⟩
    rw [← hf]
  · exact ⟨_, _, _, rfl, .inr rfl, .inr rfl, .inr rfl⟩

theorem finish_finished (s : Stream) : s.finish.finished = true := by
  unfold finish
  split
  · assumption
  · rfl

/-- The STREAM_ACKs among what is sent. -/
def ack? : Message → Option Nat
  | .streamAck _ consumed => some consumed
  | .control _ _ => none
  | .streamJson _ _ _ => none
  | .streamData _ _ => none
  | .streamOnly _ _ => none

def acks (ms : List Message) : List Nat := ms.filterMap ack?

/-- What is sent but for the STREAM_ACKs. -/
def speech (ms : List Message) : List Message := ms.filter fun m => (ack? m).isNone

/-- A part of `_to_local` changes its own fields only, and sends the STREAM_ACK that it counts. -/
structure OfToLocal (s : Stream) (r : Stream × List Message) : Prop where
  form : ∃ l p, r.1 = { s with toToLocal := l, toLocalAt := p } ∧ l.id = s.id ∧ l.spec = s.spec ∧
    p ≠ .unmade ∧ p ≠ .cancelled
  acks : r.1.acked = s.acked ++ acks r.2
  named : ∀ m ∈ r.2, ∃ n, m = .streamAck s.id n

theorem ofToLocal_raise (s : Stream) : OfToLocal s (s.raise, []) where
  form := ⟨{ s.toToLocal with running := false }, .raised, rfl, rfl, rfl, by decide, by decide⟩
  acks := (List.append_nil _).symm
  named := by simp

theorem ofToLocal_writeEof (s : Stream) : OfToLocal s (s.writeEof, []) where
  form := ⟨{ s.toToLocal with eofWritten := true, running := false }, .returned, rfl, rfl, rfl, by decide, by decide⟩
  acks := (List.append_nil _).symm
  named := by simp

theorem ofToLocal_ack (s : Stream) (consumed : Nat) : OfToLocal s (s.ack consumed) := by
  unfold ack
  cases streamAck s.id consumed with
  | error e => exact ofToLocal_raise s
  | ok b =>
    refine ⟨⟨{ s.toToLocal with acked := s.acked ++ [consumed] }, .item, rfl, rfl, rfl, by decide, by decide⟩, rfl,
      ?_⟩
    intro m hm
    exact ⟨consumed, List.mem_singleton.mp hm⟩

theorem bufferHead_ok {l l' : ToLocal} {chunk out : Bytes} (h : l.bufferHead maxStrDigits chunk = .ok (l', out)) :
    l'.id = l.id ∧ l'.spec = l.spec ∧ l'.acked = l.acked ∧ l'.written = l.written ∧ l'.running = l.running ∧
      l'.eofWritten = l.eofWritten := by
  simp only [ToLocal.bufferHead] at h
  split at h
  · cases hr : rewriteHostHeader maxStrDigits (l.headBuf ++ chunk) l.spec.target with
    | error e =>
      rw [hr] at h
      cases h
    | ok o =>
      rw [hr] at h
      cases h
      exact ⟨rfl, rfl, rfl, rfl, rfl, rfl⟩
  · cases h
    exact ⟨rfl, rfl, rfl, rfl, rfl, rfl⟩

theorem ofToLocal_takeItem (s : Stream) (item : Option Bytes) : OfToLocal s (s.takeItem maxStrDigits item) := by
  cases item with
  | none =>
    simp only [takeItem]
    split
    · exact ofToLocal_writeEof s
    · cases rewriteHostHeader maxStrDigits s.headBuf s.spec.target with
      | error e => exact ofToLocal_raise s
      | ok out =>
        refine ⟨⟨_, .drainHead, rfl, rfl, rfl, by decide, by decide⟩, (List.append_nil _).symm, by simp⟩
  | some payload =>
    simp only [takeItem]
    have hform : ∀ l out, (if s.headDone = true then Except.ok (s.toToLocal, payload)
        else s.bufferHead maxStrDigits payload) = .ok (l, out) →
        l.id = s.id ∧ l.spec = s.spec ∧ l.acked = s.acked := by
      intro l out h
      split at h
      · cases h
        exact ⟨rfl, rfl, rfl⟩
      · obtain ⟨h1, h2, h3, -⟩ := bufferHead_ok h
        exact ⟨h1, h2, h3⟩
    cases h : (if s.headDone = true then Except.ok (s.toToLocal, payload)
        else s.bufferHead maxStrDigits payload) with
    | error e => exact ofToLocal_raise s
    | ok r =>
      obtain ⟨h1, h2, h3⟩ := hform r.1 r.2 h
      simp only
      split
      · obtain ⟨⟨l, p, he, hi, hs, hp⟩, ha, hn⟩ := ofToLocal_ack { s with toToLocal := r.1 } payload.length
        refine ⟨⟨l, p, he, hi.trans h1, hs.trans h2, hp⟩, ?_, ?_⟩
        · rw [ha, ← h3]
        · intro m hm
          obtain ⟨n, hm⟩ := hn m hm
          exact ⟨n, by rw [hm]; exact congrArg (Message.streamAck · n) h1⟩
      · refine ⟨⟨_, .drain payload.length, rfl, h1, h2, by simp, by simp⟩, ?_, by simp⟩
        exact h3.trans (List.append_nil _).symm

/-- A step, by the task whose it is. -/
inductive Steps (s : Stream) : Event → Stream × List Message → Prop where
  | dialed : s.run = .dialing →
      Steps s .dialed ({ s with run := .gathering, writer := .open, toLocalAt := .item, toServerAt := .start }, [])
  | dialRaised : s.run = .dialing → Steps s .dialRaised ({ s with run := .ended }, [])
  | toLocal {e : Event} {r : Stream × List Message} (inbox : List (Option Bytes)) : s.toLocalAt.waits = true →
      OfToLocal { s with inbox := inbox } r → Steps s e r
  | begin : s.toServerAt = .start → Steps s .begin (s.loopHead, [])
  | credited : s.toServerAt = .credit → s.credit = true → Steps s .credited ({ s with toServerAt := .read }, [])
  | read (chunk : Bytes) : s.toServerAt = .read → chunk ≠ [] → chunk.length ≤ LOCAL_READ_CHUNK →
      Steps s (.read chunk)
        ({ s with sendCredit := s.sendCredit - chunk.length, chunks := s.chunks ++ [chunk] }.loopHead,
          [.streamData s.id chunk])
  | readEnd : s.toServerAt = .read →
      Steps s .readEnd ({ s with toServerAt := .returned }, [.streamOnly STREAM_EOF s.id])
  | readFailed : s.toServerAt = .read →
      Steps s .readFailed ({ s with toServerAt := .returned }, [s.reset "local_error"])

theorem step_cases {e : Event} {r : Stream × List Message} (h : s.step maxStrDigits e = some r) : Steps s e r := by
  cases e with
  | dialed =>
    obtain ⟨hr, he⟩ := Option.ite_none_right_eq_some.mp h
    cases he
    exact .dialed hr
  | dialRaised =>
    obtain ⟨hr, he⟩ := Option.ite_none_right_eq_some.mp h
    cases he
    exact .dialRaised hr
  | item =>
    obtain ⟨hat, he⟩ := Option.ite_none_right_eq_some.mp h
    cases hin : s.inbox with
    | nil =>
      rw [hin] at he
      cases he
    | cons item inbox =>
      rw [hin] at he
      cases he
      exact .toLocal inbox (by rw [hat]; rfl) (ofToLocal_takeItem _ item)
  | drained =>
    simp only [step] at h
    cases hat : s.toLocalAt <;> rw [hat] at h <;> cases h
    · exact .toLocal s.inbox (by rw [hat]; rfl) (ofToLocal_ack s _)
    · exact .toLocal s.inbox (by rw [hat]; rfl) (ofToLocal_writeEof s)
  | drainFailed =>
    simp only [step] at h
    cases hat : s.toLocalAt <;> rw [hat] at h <;> cases h
    all_goals exact .toLocal s.inbox (by rw [hat]; rfl) (ofToLocal_raise s)
  | begin =>
    obtain ⟨hat, he⟩ := Option.ite_none_right_eq_some.mp h
    cases he
    exact .begin hat
  | credited =>
    obtain ⟨hat, he⟩ := Option.ite_none_right_eq_some.mp h
    cases he
    exact .credited hat.1 hat.2
  | read chunk =>
    obtain ⟨hat, he⟩ := Option.ite_none_right_eq_some.mp h
    cases he
    exact .read chunk hat.1 hat.2.1 hat.2.2
  | readEnd =>
    obtain ⟨hat, he⟩ := Option.ite_none_right_eq_some.mp h
    cases he
    exact .readEnd hat
  | readFailed =>
    obtain ⟨hat, he⟩ := Option.ite_none_right_eq_some.mp h
    cases he
    exact .readFailed hat

/-! ## Frames -/

/-- What a frame puts into the inbox. -/
def item? (f : Nat × Bytes) : Option (Option Bytes) :=
  if f.1 = STREAM_DATA then some (some f.2) else if f.1 = STREAM_EOF then some none else none

def items (heard : List (Nat × Bytes)) : List (Option Bytes) := heard.filterMap item?

/-- The credit that a frame grants. -/
def grant (f : Nat × Bytes) : Nat := if f.1 = STREAM_ACK ∧ 4 ≤ f.2.length then readUInt32BE f.2 else 0

def granted (heard : List (Nat × Bytes)) : Nat := (heard.map grant).sum

theorem items_append (heard : List (Nat × Bytes)) (f : Nat × Bytes) :
    items (heard ++ [f]) = items heard ++ (item? f).toList := by
  cases h : item? f with
  | none => simp [items, h]
  | some i => simp [items, h]

theorem granted_append (heard : List (Nat × Bytes)) (f : Nat × Bytes) :
    granted (heard ++ [f]) = granted heard + grant f := by
  simp [granted]

theorem item?_reset (p : Bytes) : item? (STREAM_RESET, p) = none := rfl

theorem grant_reset (p : Bytes) : grant (STREAM_RESET, p) = 0 := rfl

/-- A frame other than a STREAM_RESET goes to the inbox or to the credit. -/
theorem onFrame_eq (s : Stream) {t : Nat} (p : Bytes) (h : t ≠ STREAM_RESET) : ∃ b,
    s.onFrame t p = { s with
      heard := s.heard ++ [(t, p)]
      inbox := s.inbox ++ (item? (t, p)).toList
      sendCredit := s.sendCredit + grant (t, p)
      credit := b } ∧ (b = true → s.credit = true ∨ 0 < s.sendCredit + grant (t, p)) := by
  simp only [onFrame, item?, grant]
  by_cases h1 : t = STREAM_DATA
  · subst h1
    refine ⟨s.credit, ?_, .inl⟩
    simp [feed, STREAM_DATA, STREAM_ACK]
  · by_cases h2 : t = STREAM_EOF
    · subst h2
      refine ⟨s.credit, ?_, .inl⟩
      simp [feedEof, STREAM_DATA, STREAM_EOF, STREAM_ACK]
    · by_cases h3 : t = STREAM_ACK
      · subst h3
        by_cases h4 : 4 ≤ p.length
        · simp only [h1, h2, if_false, if_true, h4, and_self, addCredit, Option.toList_none, List.append_nil]
          split
          · rename_i hpos
            exact ⟨true, rfl, fun _ => .inr hpos⟩
          · exact ⟨s.credit, rfl, .inl⟩
        · refine ⟨s.credit, ?_, .inl⟩
          simp [h1, h2, h4]
      · refine ⟨s.credit, ?_, .inl⟩
        simp [h1, h2, h3, h]

theorem loopHead_eq (s : Stream) : ∃ b v, s.loopHead = { s with credit := b, toServerAt := v } ∧
    (v = .credit ∧ b = false ∨ v = .read ∧ 0 < s.sendCredit) := by
  unfold loopHead
  split
  · exact ⟨false, .credit, rfl, .inl ⟨rfl, rfl⟩⟩
  · rename_i h
    exact ⟨s.credit, .read, rfl, .inr ⟨rfl, Int.not_le.mp h⟩⟩

/-! ## The tasks and the connection -/

structure Life (s : Stream) : Prop where
  toLocal : s.toLocalAt = .unmade ↔ s.writer = .none
  toServer : s.toServerAt = .unmade ↔ s.writer = .none
  dialing : s.run = .dialing → s.writer = .none
  gathering : s.run = .gathering → s.writer ≠ .none
  ended : s.run = .ended → s.writer = .none ∨ s.finished = true
  closed : s.writer = .closed →
    s.finished = true ∧ s.toLocalAt.cancel = s.toLocalAt ∧ s.toServerAt.cancel = s.toServerAt
  cancelled : s.toLocalAt = .cancelled ∨ s.toServerAt = .cancelled → s.finished = true

theorem cancel_of_waits {p : ToLocalAt} (h : p.waits = true) : p.cancel ≠ p := by
  cases p <;> simp_all [ToLocalAt.waits, ToLocalAt.cancel]

theorem ne_unmade_of_waits {p : ToLocalAt} (h : p.waits = true) : p ≠ .unmade := by
  rintro rfl
  cases h

theorem cancel_toLocal_cancel (p : ToLocalAt) : p.cancel.cancel = p.cancel := by
  cases p <;> rfl

theorem cancel_toServer_cancel (p : ToServerAt) : p.cancel.cancel = p.cancel := by
  cases p <;> rfl

theorem cancel_toLocal_unmade (p : ToLocalAt) : p.cancel = .unmade ↔ p = .unmade := by
  cases p <;> simp [ToLocalAt.cancel]

theorem cancel_toServer_unmade (p : ToServerAt) : p.cancel = .unmade ↔ p = .unmade := by
  cases p <;> simp [ToServerAt.cancel]

theorem close_none (w : Writer) : w.close = .none ↔ w = .none := by
  cases w <;> simp [Writer.close]

theorem close_ne_open (w : Writer) : w.close ≠ .open := by
  cases w <;> simp [Writer.close]

theorem life_new (id : Nat) (spec : TunnelSpec) (window : Int) (session : Nat) :
    Life (new id spec window session) where
  toLocal := by simp [new]
  toServer := by simp [new]
  dialing _ := rfl
  gathering h := by simp [new] at h
  ended h := by simp [new] at h
  closed h := by simp [new] at h
  cancelled h := by simp [new] at h

theorem Life.finish (h : Life s) : Life s.finish := by
  unfold Stream.finish
  split
  · exact h
  · refine ⟨?_, ?_, ?_, ?_, fun _ => .inr rfl, fun _ => ⟨rfl, ?_, ?_⟩, fun _ => rfl⟩
    · exact (cancel_toLocal_unmade _).trans (h.toLocal.trans (close_none _).symm)
    · exact (cancel_toServer_unmade _).trans (h.toServer.trans (close_none _).symm)
    · exact fun hr => (close_none _).mpr (h.dialing hr)
    · exact fun hr hw => h.gathering hr ((close_none _).mp hw)
    · exact cancel_toLocal_cancel _
    · exact cancel_toServer_cancel _

/-- `run` ends. -/
theorem Life.gathered (h : Life s) (queued : List Message) :
    Life { { s with run := .ended }.finish with queued := queued } := by
  unfold Stream.finish
  split
  · rename_i hf
    exact ⟨h.toLocal, h.toServer, by simp, by simp, fun _ => .inr hf, h.closed, h.cancelled⟩
  · refine ⟨?_, ?_, by simp, by simp, fun _ => .inr rfl, fun _ => ⟨rfl, ?_, ?_⟩, fun _ => rfl⟩
    · exact (cancel_toLocal_unmade _).trans (h.toLocal.trans (close_none _).symm)
    · exact (cancel_toServer_unmade _).trans (h.toServer.trans (close_none _).symm)
    · exact cancel_toLocal_cancel _
    · exact cancel_toServer_cancel _

theorem Life.goOn (h : Life s) {l : ToLocal} {p : ToLocalAt} {inbox : List (Option Bytes)} {queued : List Message}
    (hat : s.toLocalAt.waits = true) (hp : p ≠ .unmade) (hp' : p ≠ .cancelled) :
    Life { s with toToLocal := l, toLocalAt := p, inbox := inbox, queued := queued } := by
  have hw : s.writer ≠ .none := fun hn => ne_unmade_of_waits hat (h.toLocal.mpr hn)
  have hc : s.writer ≠ .closed := fun hn => cancel_of_waits hat (h.closed hn).2.1
  exact ⟨iff_of_false hp hw, h.toServer, h.dialing, h.gathering, h.ended, fun hn => absurd hn hc,
    fun hn => h.cancelled (.inr (hn.resolve_left hp'))⟩

theorem Life.serve (h : Life s) {credit : Int} {b : Bool} {v : ToServerAt} {chunks : List Bytes}
    {queued : List Message} (hat : s.toServerAt.waits = true) (hv : v ≠ .unmade) (hv' : v ≠ .cancelled) :
    Life { s with sendCredit := credit, credit := b, toServerAt := v, chunks := chunks, queued := queued } := by
  have hne : s.toServerAt ≠ .unmade := by
    intro hu
    rw [hu] at hat
    cases hat
  have hcancel : s.toServerAt.cancel ≠ s.toServerAt := by
    cases hs : s.toServerAt <;> simp_all [ToServerAt.waits, ToServerAt.cancel]
  have hw : s.writer ≠ .none := fun hn => hne (h.toServer.mpr hn)
  have hc : s.writer ≠ .closed := fun hn => hcancel (h.closed hn).2.2
  exact ⟨h.toLocal, iff_of_false hv hw, h.dialing, h.gathering, h.ended, fun hn => absurd hn hc,
    fun hn => h.cancelled (.inl (hn.resolve_right hv'))⟩

theorem Life.step {e : Event} {r : Stream × List Message} (h : Life s) (hs : Steps s e r) : Life (say r) := by
  cases hs with
  | dialed hr => exact ⟨by simp [say], by simp [say], by simp [say], by simp [say], by simp [say], by simp [say],
      by simp [say]⟩
  | dialRaised hr =>
    have hw := h.dialing hr
    exact ⟨h.toLocal, h.toServer, by simp [say], by simp [say], fun _ => .inl hw, h.closed, h.cancelled⟩
  | toLocal inbox hat hof =>
    obtain ⟨⟨l, p, he, -, -, hp, hp'⟩, -, -⟩ := hof
    simp only [say, he]
    exact h.goOn hat hp hp'
  | begin hat =>
    obtain ⟨b, v, he, hv⟩ := loopHead_eq s
    simp only [say, he]
    exact h.serve (by rw [hat]; rfl) (by rcases hv with hv | hv <;> simp [hv.1])
      (by rcases hv with hv | hv <;> simp [hv.1])
  | credited hat hc => exact h.serve (by rw [hat]; rfl) (by simp) (by simp)
  | read chunk hat hne hlen =>
    obtain ⟨b, v, he, hv⟩ := loopHead_eq
      { s with sendCredit := s.sendCredit - chunk.length, chunks := s.chunks ++ [chunk] }
    simp only [say, he]
    exact h.serve (by rw [hat]; rfl) (by rcases hv with hv | hv <;> simp [hv.1])
      (by rcases hv with hv | hv <;> simp [hv.1])
  | readEnd hat => exact h.serve (by rw [hat]; rfl) (by simp) (by simp)
  | readFailed hat => exact h.serve (by rw [hat]; rfl) (by simp) (by simp)

theorem Life.move {mv : Move} (h : Life s) (hm : s.move maxStrDigits mv = some s') : Life s' := by
  refine move_cases hm (fun t p _ => ?_) (fun e r _ hs => h.step (step_cases hs)) (fun _ => h.finish)
    (fun m _ hr => ?_) fun _ hr _ => ?_
  · by_cases ht : t = STREAM_RESET
    · subst ht
      exact Life.finish (s := { s with heard := s.heard ++ [(STREAM_RESET, p)] })
        ⟨h.toLocal, h.toServer, h.dialing, h.gathering, h.ended, h.closed, h.cancelled⟩
    · obtain ⟨b, he, -⟩ := onFrame_eq s p ht
      rw [he]
      exact ⟨h.toLocal, h.toServer, h.dialing, h.gathering, h.ended, h.closed, h.cancelled⟩
  · exact h.gathered _
  · exact h.gathered s.gathered.queued

/-! ## Towards the server -/

structure Credited (s : Stream) : Prop where
  balance : s.sendCredit + s.chunks.flatten.length = s.window + granted s.heard
  reading : s.toServerAt = .read → 0 < s.sendCredit
  waiting : s.toServerAt = .credit → s.credit = true → 0 < s.sendCredit
  floor : s.chunks ≠ [] → -(LOCAL_READ_CHUNK : Int) < s.sendCredit
  sizes : ∀ c ∈ s.chunks, c ≠ [] ∧ c.length ≤ LOCAL_READ_CHUNK

theorem credited_new (id : Nat) (spec : TunnelSpec) (window : Int) (session : Nat) :
    Credited (new id spec window session) where
  balance := by simp [new, granted]
  reading h := by simp [new] at h
  waiting h := by simp [new] at h
  floor h := by simp [new] at h
  sizes := by simp [new]

/-- A change of the other fields, in which `_to_server` is cancelled if it changes its place. -/
theorem Credited.keep (h : Credited s) (h1 : s'.sendCredit = s.sendCredit) (h2 : s'.chunks = s.chunks)
    (h3 : s'.window = s.window) (h4 : s'.heard = s.heard) (h5 : s'.credit = s.credit)
    (h6 : s'.toServerAt = s.toServerAt ∨ s'.toServerAt = s.toServerAt.cancel) : Credited s' := by
  have hr : s'.toServerAt = .read → s.toServerAt = .read := by
    rcases h6 with h6 | h6 <;> rw [h6]
    · exact id
    · cases s.toServerAt <;> simp [ToServerAt.cancel]
  have hw : s'.toServerAt = .credit → s.toServerAt = .credit := by
    rcases h6 with h6 | h6 <;> rw [h6]
    · exact id
    · cases s.toServerAt <;> simp [ToServerAt.cancel]
  refine ⟨by rw [h1, h2, h3, h4]; exact h.balance, ?_, ?_, ?_, by rw [h2]; exact h.sizes⟩
  · exact fun hat => h1 ▸ h.reading (hr hat)
  · exact fun hat hc => h1 ▸ h.waiting (hw hat) (h5 ▸ hc)
  · exact fun hne => h1 ▸ h.floor (h2 ▸ hne)

theorem Credited.finish (h : Credited s) : Credited s.finish := by
  obtain ⟨l, v, w, he, -, hv, -⟩ := finish_eq s
  rw [he]
  exact h.keep rfl rfl rfl rfl rfl hv

theorem Credited.loopHead (h : Credited s) (queued : List Message) :
    Credited { s.loopHead with queued := queued } := by
  obtain ⟨b, v, he, hv⟩ := loopHead_eq s
  rw [he]
  refine ⟨h.balance, ?_, ?_, h.floor, h.sizes⟩
  · rintro rfl
    simpa using hv
  · rintro rfl rfl
    simp at hv

theorem Credited.step {e : Event} {r : Stream × List Message} (h : Credited s) (hs : Steps s e r) :
    Credited (say r) := by
  cases hs with
  | dialed hr => exact ⟨h.balance, by simp [say], by simp [say], h.floor, h.sizes⟩
  | dialRaised hr => exact h.keep rfl rfl rfl rfl rfl (.inl rfl)
  | toLocal inbox hat hof =>
    obtain ⟨⟨l, p, he, -, -, -⟩, -, -⟩ := hof
    simp only [say, he]
    exact h.keep rfl rfl rfl rfl rfl (.inl rfl)
  | begin hat => exact h.loopHead _
  | credited hat hc =>
    have hpos := h.waiting hat hc
    exact ⟨h.balance, fun _ => hpos, by simp [say], h.floor, h.sizes⟩
  | read chunk hat hne hlen =>
    have hpos := h.reading hat
    have hb := h.balance
    have hlen' : (chunk.length : Int) ≤ LOCAL_READ_CHUNK := Int.ofNat_le.mpr hlen
    -- Only the balance, the floor and the sizes matter here: the head of the loop decides where the task goes on.
    have h1 : Credited { s with
        sendCredit := s.sendCredit - chunk.length, chunks := s.chunks ++ [chunk], toServerAt := .start } := by
      refine ⟨?_, by simp, by simp, fun _ => ?_, ?_⟩
      · simp only [List.flatten_append, List.flatten_singleton, List.length_append]
        push_cast
        omega
      · show -(LOCAL_READ_CHUNK : Int) < s.sendCredit - chunk.length
        omega
      · intro c hc
        rcases List.mem_append.mp hc with hc | hc
        · exact h.sizes c hc
        · rw [List.mem_singleton.mp hc]
          exact ⟨hne, hlen⟩
    obtain ⟨b, v, he, hv⟩ := loopHead_eq
      { s with sendCredit := s.sendCredit - chunk.length, chunks := s.chunks ++ [chunk] }
    simp only [say, he]
    refine ⟨h1.balance, ?_, ?_, h1.floor, h1.sizes⟩
    · rintro rfl
      simpa using hv
    · rintro rfl rfl
      simp at hv
  | readEnd hat => exact ⟨h.balance, by simp [say], by simp [say], h.floor, h.sizes⟩
  | readFailed hat => exact ⟨h.balance, by simp [say], by simp [say], h.floor, h.sizes⟩

theorem Credited.heard (h : Credited s) (f : Nat × Bytes) {b : Bool} (inbox : List (Option Bytes))
    (hb : b = true → s.credit = true ∨ 0 < s.sendCredit + grant f) :
    Credited { s with
      heard := s.heard ++ [f], inbox := inbox, sendCredit := s.sendCredit + grant f, credit := b } where
  balance := by
    have hbal := h.balance
    simp only [granted_append]
    push_cast
    omega
  reading hat := by
    have hpos := h.reading hat
    show 0 < s.sendCredit + grant f
    omega
  waiting hat hc := by
    show 0 < s.sendCredit + grant f
    rcases hb hc with hb | hb
    · have hpos := h.waiting hat hb
      omega
    · exact hb
  floor hne := by
    have hlt := h.floor hne
    show -(LOCAL_READ_CHUNK : Int) < s.sendCredit + grant f
    omega
  sizes := h.sizes

theorem Credited.move {mv : Move} (h : Credited s) (hm : s.move maxStrDigits mv = some s') : Credited s' := by
  have gathered : ∀ queued, Credited { { s with run := .ended }.finish with queued := queued } := fun queued =>
    (Credited.finish (s := { s with run := .ended }) (h.keep rfl rfl rfl rfl rfl (.inl rfl))).keep rfl rfl rfl rfl rfl
      (.inl rfl)
  refine move_cases hm (fun t p _ => ?_) (fun e r _ hs => h.step (step_cases hs)) (fun _ => h.finish)
    (fun m _ _ => gathered _) fun _ _ _ => gathered s.gathered.queued
  by_cases ht : t = STREAM_RESET
  · subst ht
    have h1 := h.heard (STREAM_RESET, p) s.inbox .inl
    simp only [grant_reset, Nat.cast_zero, add_zero] at h1
    exact h1.finish
  · obtain ⟨b, he, hb⟩ := onFrame_eq s p ht
    rw [he]
    exact h.heard (t, p) _ hb

/-- Where it waits for credit that there is, it has been woken. -/
def Awake (s : Stream) : Prop := s.toServerAt = .credit → 0 < s.sendCredit → s.credit = true

theorem awake_new (id : Nat) (spec : TunnelSpec) (window : Int) (session : Nat) :
    Awake (new id spec window session) := by
  simp [Awake, new]

theorem Awake.keep (h : Awake s) (h1 : s'.sendCredit = s.sendCredit) (h2 : s'.credit = s.credit)
    (h3 : s'.toServerAt = s.toServerAt ∨ s'.toServerAt = s.toServerAt.cancel) : Awake s' := by
  intro hat hpos
  rw [h2]
  refine h ?_ (h1 ▸ hpos)
  rcases h3 with h3 | h3
  · exact h3 ▸ hat
  · rw [h3] at hat
    revert hat
    cases s.toServerAt <;> simp [ToServerAt.cancel]

theorem Awake.finish (h : Awake s) : Awake s.finish := by
  obtain ⟨l, v, w, he, -, hv, -⟩ := finish_eq s
  rw [he]
  exact h.keep rfl rfl hv

/-- The head of the loop waits only without credit. -/
theorem awake_loopHead (s : Stream) (queued : List Message) : Awake { s.loopHead with queued := queued } := by
  unfold Stream.loopHead
  split
  · rename_i hle
    exact fun _ hpos => absurd hpos (Int.not_lt.mpr hle)
  · rintro ⟨⟩

theorem Awake.move {mv : Move} (h : Awake s) (hm : s.move maxStrDigits mv = some s') : Awake s' := by
  have gathered : ∀ queued, Awake { { s with run := .ended }.finish with queued := queued } := fun queued =>
    (Awake.finish (s := { s with run := .ended }) (h.keep rfl rfl (.inl rfl))).keep rfl rfl (.inl rfl)
  refine move_cases hm (fun t p _ => ?_) (fun e r _ hs => ?_) (fun _ => h.finish) (fun m _ _ => gathered _)
    fun _ _ _ => gathered s.gathered.queued
  · by_cases h1 : t = STREAM_ACK ∧ 4 ≤ p.length
    · obtain ⟨rfl, hlen⟩ := h1
      have he : s.onFrame STREAM_ACK p =
          { s with heard := s.heard ++ [(STREAM_ACK, p)] }.addCredit (readUInt32BE p) := by
        simp [onFrame, STREAM_ACK, STREAM_DATA, STREAM_EOF, hlen]
      rw [he, addCredit]
      split
      · exact fun _ _ => rfl
      · rename_i hneg
        exact fun _ hpos => absurd hpos hneg
    · by_cases h2 : t = STREAM_RESET
      · subst h2
        exact Awake.finish (s := { s with heard := s.heard ++ [(STREAM_RESET, p)] }) h
      · have he : (s.onFrame t p).sendCredit = s.sendCredit ∧ (s.onFrame t p).credit = s.credit ∧
            (s.onFrame t p).toServerAt = s.toServerAt := by
          simp only [onFrame]
          split
          · exact ⟨rfl, rfl, rfl⟩
          · split
            · exact ⟨rfl, rfl, rfl⟩
            · split
              · rename_i hack
                rw [if_neg fun hlen => h1 ⟨hack, hlen⟩]
                exact ⟨rfl, rfl, rfl⟩
              · exact ⟨rfl, rfl, rfl⟩
        exact h.keep he.1 he.2.1 (.inl he.2.2)
  · cases step_cases hs with
    | dialed | readEnd | readFailed | credited => rintro ⟨⟩
    | dialRaised => exact h.keep rfl rfl (.inl rfl)
    | toLocal inbox hat hof =>
      obtain ⟨⟨l, p, he, -, -, -⟩, -, -⟩ := hof
      simp only [say, he]
      exact h.keep rfl rfl (.inl rfl)
    | begin hat => exact awake_loopHead s _
    | read chunk => exact awake_loopHead _ _

/-- What has been read is at most what was granted and one read. -/
theorem Credited.bound (h : Credited s) : s.chunks = [] ∨
    (s.chunks.flatten.length : Int) < s.window + granted s.heard + LOCAL_READ_CHUNK := by
  by_cases hne : s.chunks = []
  · exact .inl hne
  · have hb := h.balance
    have hf := h.floor hne
    right
    omega

/-! ## What is sent -/

/-- What a stream says behind its STREAM_DATA. -/
def Last (s : Stream) (ms : List Message) : Prop :=
  match s.toServerAt with
  | .unmade => s.chunks = [] ∧ (ms = [] ∨ (s.run = .ended ∧ s.finished = true) ∧ ∃ message,
      ms = [.streamJson STREAM_RESET s.id [("code", .str "dial_failed"), ("message", .str message)]])
  | .start => ms = []
  | .credit => ms = []
  | .read => ms = []
  | .cancelled => ms = []
  | .returned => ms = [.streamOnly STREAM_EOF s.id] ∨ ms = [s.reset "local_error"]

structure Spoken (s : Stream) : Prop where
  acked : acks s.queued = s.acked
  talk : ∃ ms, speech s.queued = s.chunks.map (.streamData s.id ·) ++ ms ∧ s.Last ms

theorem acks_append (ms ms' : List Message) : acks (ms ++ ms') = acks ms ++ acks ms' := List.filterMap_append

theorem speech_append (ms ms' : List Message) : speech (ms ++ ms') = speech ms ++ speech ms' := List.filter_append ..

theorem speech_acks {ms : List Message} {id : Nat} (h : ∀ m ∈ ms, ∃ n, m = .streamAck id n) : speech ms = [] := by
  refine List.filter_eq_nil_iff.mpr fun m hm => ?_
  obtain ⟨n, rfl⟩ := h m hm
  simp [ack?]

theorem spoken_new (id : Nat) (spec : TunnelSpec) (window : Int) (session : Nat) :
    Spoken (new id spec window session) where
  acked := rfl
  talk := ⟨[], rfl, rfl, .inl rfl⟩

theorem Last.finish {ms : List Message} (h : s.Last ms) : s.finish.Last ms := by
  unfold Stream.finish
  split
  · exact h
  · unfold Last at h ⊢
    cases hat : s.toServerAt <;> simp only [hat, ToServerAt.cancel] at h ⊢
    · exact ⟨h.1, h.2.imp_right fun hm => ⟨⟨hm.1.1, trivial⟩, hm.2⟩⟩
    all_goals exact h

theorem finish_kept (s : Stream) : s.finish.queued = s.queued ∧ s.finish.acked = s.acked ∧
    s.finish.chunks = s.chunks ∧ s.finish.id = s.id := by
  obtain ⟨l, v, w, he, -, -, -⟩ := finish_eq s
  rw [he]
  exact ⟨rfl, rfl, rfl, rfl⟩

theorem Spoken.finish (h : Spoken s) : Spoken s.finish := by
  obtain ⟨h1, h2, h3, h4⟩ := finish_kept s
  obtain ⟨ms, ht, hl⟩ := h.talk
  refine ⟨by rw [h1, h2]; exact h.acked, ms, by rw [h1, h3, h4]; exact ht, hl.finish⟩

theorem Spoken.step {e : Event} {r : Stream × List Message} (h : Spoken s) (hlife : Life s) (hs : Steps s e r) :
    Spoken (say r) := by
  obtain ⟨ms, ht, hl⟩ := h.talk
  have silent : ∀ {m : Message}, ack? m = none → acks (s.queued ++ [m]) = s.acked := by
    intro m hm
    rw [acks_append, h.acked]
    simp [acks, hm]
  have talks : ∀ {m : Message}, ack? m = none → speech (s.queued ++ [m]) = speech s.queued ++ [m] := by
    intro m hm
    rw [speech_append]
    simp [speech, hm]
  cases hs with
  | dialed hr =>
    have hat := hlife.toServer.mpr (hlife.dialing hr)
    simp only [Last, hat, hr, reduceCtorEq, false_and, or_false] at hl
    obtain ⟨hc, rfl⟩ := hl
    exact ⟨by simpa [say] using h.acked, [], by simpa [say] using ht, rfl⟩
  | dialRaised hr =>
    refine ⟨by simpa [say] using h.acked, ms, by simpa [say] using ht, ?_⟩
    have hat := hlife.toServer.mpr (hlife.dialing hr)
    simp only [Last, hat, hr, reduceCtorEq, false_and, or_false] at hl
    simp only [Last, say, hat]
    exact ⟨hl.1, .inl hl.2⟩
  | toLocal inbox hat hof =>
    obtain ⟨⟨l, p, he, hid, -, -⟩, hacks, hnamed⟩ := hof
    refine ⟨?_, ms, ?_, ?_⟩
    · show acks (r.1.queued ++ r.2) = r.1.acked
      rw [hacks, he, acks_append]
      exact congrArg (· ++ acks r.2) h.acked
    · show speech (r.1.queued ++ r.2) = r.1.chunks.map (.streamData r.1.id ·) ++ ms
      rw [speech_append, speech_acks hnamed, List.append_nil, he]
      simp only [hid]
      exact ht
    · have hne := ne_unmade_of_waits hat
      have hv : s.toServerAt ≠ .unmade := fun hn => hne (hlife.toLocal.mpr (hlife.toServer.mp hn))
      simp only [say, he]
      unfold Last at hl ⊢
      cases hs : s.toServerAt <;> simp only [hs] at hl ⊢
      · exact absurd hs hv
      all_goals first | exact hl | skip
      simpa only [Stream.reset, hid] using hl
  | begin hat =>
    obtain ⟨b, v, he, hv⟩ := loopHead_eq s
    simp only [Last, hat] at hl
    subst hl
    simp only [say, he]
    refine ⟨by simpa using h.acked, [], by simpa using ht, ?_⟩
    rcases hv with ⟨rfl, -⟩ | ⟨rfl, -⟩ <;> rfl
  | credited hat hc =>
    simp only [Last, hat] at hl
    subst hl
    exact ⟨by simpa [say] using h.acked, [], by simpa [say] using ht, rfl⟩
  | read chunk hat hne hlen =>
    obtain ⟨b, v, he, hv⟩ := loopHead_eq
      { s with sendCredit := s.sendCredit - chunk.length, chunks := s.chunks ++ [chunk] }
    simp only [Last, hat] at hl
    subst hl
    simp only [say, he]
    refine ⟨silent rfl, [], ?_, ?_⟩
    · show speech (s.queued ++ [.streamData s.id chunk]) = (s.chunks ++ [chunk]).map _ ++ []
      rw [talks rfl, ht]
      simp
    · rcases hv with ⟨rfl, -⟩ | ⟨rfl, -⟩ <;> rfl
  | readEnd hat =>
    simp only [Last, hat] at hl
    subst hl
    refine ⟨silent rfl, [.streamOnly STREAM_EOF s.id], ?_, .inl rfl⟩
    show speech (s.queued ++ [.streamOnly STREAM_EOF s.id]) = _
    rw [talks rfl, ht, List.append_nil]
    rfl
  | readFailed hat =>
    simp only [Last, hat] at hl
    subst hl
    refine ⟨silent rfl, [s.reset "local_error"], ?_, .inr rfl⟩
    show speech (s.queued ++ [s.reset "local_error"]) = _
    rw [talks rfl, ht, List.append_nil]
    rfl

/-- The end of `run`. -/
theorem Spoken.gathered (h : Spoken s) : Spoken { s with run := .ended }.finish := by
  refine Spoken.finish ⟨h.acked, ?_⟩
  obtain ⟨ms, ht, hl⟩ := h.talk
  refine ⟨ms, ht, ?_⟩
  unfold Last at hl ⊢
  cases hs : s.toServerAt <;> simp only [hs] at hl ⊢
  · exact ⟨hl.1, hl.2.imp_right fun h => ⟨⟨trivial, h.1.2⟩, h.2⟩⟩
  all_goals exact hl

theorem Spoken.move {mv : Move} (h : Spoken s) (hlife : Life s) (hm : s.move maxStrDigits mv = some s') :
    Spoken s' := by
  refine move_cases hm (fun t p _ => ?_) (fun e r _ hs => h.step hlife (step_cases hs)) (fun _ => h.finish)
    (fun m _ hr => ?_) fun _ _ _ => h.gathered
  · by_cases ht : t = STREAM_RESET
    · subst ht
      exact Spoken.finish (s := { s with heard := s.heard ++ [(STREAM_RESET, p)] }) ⟨h.acked, h.talk⟩
    · obtain ⟨b, he, -⟩ := onFrame_eq s p ht
      rw [he]
      exact ⟨h.acked, h.talk⟩
  · have hat := hlife.toServer.mpr (hlife.dialing hr)
    obtain ⟨ms, ht, hl⟩ := h.talk
    simp only [Last, hat, hr, reduceCtorEq, false_and, or_false] at hl
    obtain ⟨hc, rfl⟩ := hl
    obtain ⟨l, v, w, he, -, hv, -⟩ := finish_eq { s with run := .ended }
    have hv' : v = .unmade := by
      rcases hv with hv | hv
      · exact hv.trans hat
      · rw [hv]
        exact (cancel_toServer_unmade _).mpr hat
    have hs : (say (s.dialFailed m)) = { s with
        run := .ended, finished := true, toLocalAt := l, toServerAt := .unmade, writer := w,
        queued := s.queued ++ (s.dialFailed m).2 } := by
      simp only [say, Stream.dialFailed, he, hv']
    rw [hs]
    refine ⟨?_, _, ?_, hc, .inr ⟨⟨rfl, rfl⟩, m, rfl⟩⟩
    · rw [acks_append, h.acked]
      simp [Stream.dialFailed, acks, ack?]
    · rw [speech_append, ht, List.append_nil]
      rfl

/-! ## Towards the local service -/

/-- Where `_to_local` is on its way to `p`, at which it arrives when its `drain` comes back. -/
def Nears (s : Stream) (p : ToLocal) : Prop :=
  match s.toLocalAt with
  | .unmade => s.toToLocal = p ∧ s.running = true
  | .item => s.toToLocal = p ∧ s.running = true
  | .drain consumed => { s.toToLocal with acked := s.acked ++ [consumed] } = p ∧ s.running = true
  | .drainHead => { s.toToLocal with eofWritten := true, running := false } = p
  | .returned => s.toToLocal = p ∧ p.eofWritten = true
  | .raised => s.written = p.written ∧ s.acked <+: p.acked
  | .cancelled => s.written = p.written ∧ s.acked <+: p.acked

/-- `_to_local` has taken what has come in, in order, and has done with it what `pump` does. -/
def Taken (maxStrDigits : Nat) (s : Stream) : Prop :=
  ∃ taken, items s.heard = taken ++ s.inbox ∧ s.Nears ((ToLocal.new s.id s.spec).pump maxStrDigits taken)

theorem Nears.weak {p : ToLocal} (h : s.Nears p) : s.written = p.written ∧ s.acked <+: p.acked := by
  unfold Nears at h
  cases hat : s.toLocalAt <;> simp only [hat] at h
  · obtain ⟨rfl, -⟩ := h
    exact ⟨rfl, List.prefix_rfl⟩
  · obtain ⟨rfl, -⟩ := h
    exact ⟨rfl, List.prefix_rfl⟩
  · obtain ⟨rfl, -⟩ := h
    exact ⟨rfl, List.prefix_append _ _⟩
  · subst h
    exact ⟨rfl, List.prefix_rfl⟩
  · obtain ⟨rfl, -⟩ := h
    exact ⟨rfl, List.prefix_rfl⟩
  · exact h
  · exact h

theorem Nears.cancel {p : ToLocal} (h : s.Nears p) : { s with toLocalAt := s.toLocalAt.cancel }.Nears p := by
  have hw := h.weak
  unfold Nears at h ⊢
  cases hat : s.toLocalAt <;> simp only [hat, ToLocalAt.cancel] at h ⊢
  · exact h
  · exact hw
  · exact hw
  · exact hw
  · exact h
  · exact h
  · exact h

theorem nears_raise {p : ToLocal} (hw : s.written = p.written) (ha : s.acked <+: p.acked) : s.raise.Nears p :=
  ⟨hw, ha⟩

theorem nears_writeEof {p : ToLocal} (h : { s.toToLocal with eofWritten := true, running := false } = p) :
    s.writeEof.Nears p := ⟨h, by rw [← h]⟩

theorem nears_ack {p : ToLocal} {consumed : Nat} (h : { s.toToLocal with acked := s.acked ++ [consumed] } = p)
    (hr : s.running = true) : (s.ack consumed).1.Nears p := by
  unfold ack
  cases streamAck s.id consumed with
  | error e =>
    subst h
    exact nears_raise rfl (List.prefix_append _ _)
  | ok b => exact ⟨h, hr⟩

/-- A turn with its awaits is on its way to where the turn without them gets. -/
theorem nears_takeItem (h : s.running = true) (item : Option Bytes) :
    (s.takeItem maxStrDigits item).1.Nears (s.toToLocal.turn maxStrDigits item true) := by
  cases item with
  | none =>
    simp only [takeItem, ToLocal.turn, h]
    by_cases hb : s.headBuf = []
    · rw [if_pos hb]
      simp only [Bool.not_true, Bool.false_eq_true, if_false, if_pos hb]
      exact nears_writeEof rfl
    · simp only [hb, if_false, Bool.not_true, Bool.false_eq_true]
      cases rewriteHostHeader maxStrDigits s.headBuf s.spec.target with
      | error e => exact nears_raise rfl List.prefix_rfl
      | ok out => rfl
  | some payload =>
    simp only [takeItem, ToLocal.turn, h, Bool.not_true, Bool.false_eq_true, if_false]
    have hok : ∀ l out, (if s.headDone = true then Except.ok (s.toToLocal, payload)
        else s.bufferHead maxStrDigits payload) = .ok (l, out) → l.running = true := by
      intro l out he
      split at he
      · cases he
        exact h
      · obtain ⟨-, -, -, -, hr, -⟩ := bufferHead_ok he
        rw [hr]
        exact h
    cases he : (if s.headDone = true then Except.ok (s.toToLocal, payload)
        else s.bufferHead maxStrDigits payload) with
    | error e => exact nears_raise rfl List.prefix_rfl
    | ok r =>
      have hr := hok r.1 r.2 he
      simp only
      by_cases ho : r.2 = []
      · rw [if_pos ho, if_pos ho]
        exact nears_ack rfl hr
      · rw [if_neg ho, if_neg ho]
        exact ⟨rfl, hr⟩

theorem taken_new (id : Nat) (spec : TunnelSpec) (window : Int) (session : Nat) :
    Taken maxStrDigits (new id spec window session) := ⟨[], rfl, rfl, rfl⟩

theorem Taken.finish (h : Taken maxStrDigits s) : Taken maxStrDigits s.finish := by
  obtain ⟨taken, hi, hn⟩ := h
  unfold Stream.finish
  split
  · exact ⟨taken, hi, hn⟩
  · exact ⟨taken, hi, hn.cancel⟩

/-- A change of the fields of `_to_server` and of `run`. -/
theorem Taken.keep (h : Taken maxStrDigits s) (h1 : s'.toToLocal = s.toToLocal) (h2 : s'.toLocalAt = s.toLocalAt)
    (h3 : s'.heard = s.heard) (h4 : s'.inbox = s.inbox) : Taken maxStrDigits s' := by
  obtain ⟨taken, hi, hn⟩ := h
  refine ⟨taken, by rw [h3, h4]; exact hi, ?_⟩
  unfold Nears at hn ⊢
  rw [h1, h2]
  exact hn

theorem OfToLocal.names {r : Stream × List Message} (h : OfToLocal s r) :
    r.1.id = s.id ∧ r.1.spec = s.spec ∧ r.1.heard = s.heard ∧ r.1.inbox = s.inbox := by
  obtain ⟨l, p, he, h1, h2, -⟩ := h.form
  rw [he]
  exact ⟨h1, h2, rfl, rfl⟩

/-- `_to_local` goes on with what it has taken. -/
theorem Taken.goOn {r : Stream × List Message} (hof : OfToLocal s r)
    (h : ∀ p, s.Nears p → r.1.Nears p) (ht : Taken maxStrDigits s) : Taken maxStrDigits (say r) := by
  obtain ⟨taken, hi, hn⟩ := ht
  obtain ⟨h1, h2, h3, h4⟩ := hof.names
  refine ⟨taken, by simpa [say, h3, h4] using hi, ?_⟩
  simp only [say, h1, h2]
  exact h _ hn

theorem Taken.step {e : Event} {r : Stream × List Message} (h : Taken maxStrDigits s) (hlife : Life s)
    (hs : s.step maxStrDigits e = some r) : Taken maxStrDigits (say r) := by
  cases e with
  | dialed =>
    obtain ⟨hr, he⟩ := Option.ite_none_right_eq_some.mp hs
    cases he
    have hat := hlife.toLocal.mpr (hlife.dialing hr)
    obtain ⟨taken, hi, hn⟩ := h
    refine ⟨taken, hi, ?_⟩
    simp only [Nears, hat] at hn
    exact hn
  | dialRaised =>
    obtain ⟨hr, he⟩ := Option.ite_none_right_eq_some.mp hs
    cases he
    exact h.keep rfl rfl rfl rfl
  | item =>
    obtain ⟨hat, he⟩ := Option.ite_none_right_eq_some.mp hs
    obtain ⟨taken, hi, hn⟩ := h
    cases hin : s.inbox with
    | nil =>
      rw [hin] at he
      cases he
    | cons item inbox =>
      rw [hin] at he
      cases he
      simp only [Nears, hat] at hn
      have hof : OfToLocal { s with inbox := inbox } ({ s with inbox := inbox }.takeItem maxStrDigits item) :=
        ofToLocal_takeItem _ item
      obtain ⟨h1, h2, h3, h4⟩ := hof.names
      refine ⟨taken ++ [item], ?_, ?_⟩
      · simp only [say, h3, h4]
        rw [hi, hin, List.append_assoc, List.singleton_append]
      · simp only [say, h1, h2]
        have hp : (ToLocal.new s.id s.spec).pump maxStrDigits (taken ++ [item]) =
            s.toToLocal.turn maxStrDigits item true := by
          rw [ToLocal.pump, List.foldl_append]
          exact congrArg (·.turn maxStrDigits item true) hn.1.symm
        rw [hp]
        exact nears_takeItem (s := { s with inbox := inbox }) hn.2 item
  | drained =>
    simp only [Stream.step] at hs
    cases hat : s.toLocalAt <;> rw [hat] at hs <;> cases hs
    · refine h.goOn (ofToLocal_ack s _) fun p hp => ?_
      simp only [Nears, hat] at hp
      exact nears_ack hp.1 hp.2
    · refine h.goOn (ofToLocal_writeEof s) fun p hp => ?_
      simp only [Nears, hat] at hp
      exact nears_writeEof hp
  | drainFailed =>
    simp only [Stream.step] at hs
    cases hat : s.toLocalAt <;> rw [hat] at hs <;> cases hs
    all_goals exact h.goOn (ofToLocal_raise s) fun p hp => nears_raise hp.weak.1 hp.weak.2
  | begin =>
    obtain ⟨hat, he⟩ := Option.ite_none_right_eq_some.mp hs
    cases he
    obtain ⟨b, v, he, -⟩ := loopHead_eq s
    simp only [say, he]
    exact h.keep rfl rfl rfl rfl
  | credited =>
    obtain ⟨hat, he⟩ := Option.ite_none_right_eq_some.mp hs
    cases he
    exact h.keep rfl rfl rfl rfl
  | read chunk =>
    obtain ⟨hat, he⟩ := Option.ite_none_right_eq_some.mp hs
    cases he
    obtain ⟨b, v, he, -⟩ := loopHead_eq
      { s with sendCredit := s.sendCredit - chunk.length, chunks := s.chunks ++ [chunk] }
    simp only [say, he]
    exact h.keep rfl rfl rfl rfl
  | readEnd =>
    obtain ⟨hat, he⟩ := Option.ite_none_right_eq_some.mp hs
    cases he
    exact h.keep rfl rfl rfl rfl
  | readFailed =>
    obtain ⟨hat, he⟩ := Option.ite_none_right_eq_some.mp hs
    cases he
    exact h.keep rfl rfl rfl rfl

theorem Taken.move {mv : Move} (h : Taken maxStrDigits s) (hlife : Life s) (hm : s.move maxStrDigits mv = some s') :
    Taken maxStrDigits s' := by
  have gathered : ∀ queued, Taken maxStrDigits { { s with run := .ended }.finish with queued := queued } :=
    fun queued => (Taken.finish (s := { s with run := .ended }) (h.keep rfl rfl rfl rfl)).keep rfl rfl rfl rfl
  refine move_cases hm (fun t p _ => ?_) (fun e r _ hs => h.step hlife hs) (fun _ => h.finish)
    (fun m _ _ => gathered _) fun _ _ _ => gathered s.gathered.queued
  obtain ⟨taken, hi, hn⟩ := h
  by_cases ht : t = STREAM_RESET
  · subst ht
    refine Taken.finish (s := { s with heard := s.heard ++ [(STREAM_RESET, p)] }) ⟨taken, ?_, hn⟩
    rw [items_append, item?_reset, hi]
    simp
  · obtain ⟨b, he, -⟩ := onFrame_eq s p ht
    rw [he]
    refine ⟨taken, ?_, hn⟩
    rw [items_append, hi, List.append_assoc]

end Stream

end UpTunnel.Python
