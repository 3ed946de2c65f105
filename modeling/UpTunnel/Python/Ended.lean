import UpTunnel.Python.Finished

/-!
# UpTunnel.Python.Ended

What a stream of the Python agent still does once it has finished, and when it leaves the table.

* `dead_run`: where no dial comes back late, a finished stream is dead for good; a dial that does come back late
  wakes it.
* `Undisturbed`: no read of the local service fails, and `_to_local` only in a stream that is over on the wire.
* `removed_run`: undisturbed streams leave the table just when they are over on the wire; one whose local service
  fails does not.
-/

namespace UpTunnel.Python

open Js Lts

/-! ## A dial that comes back late -/

namespace Stream

variable {maxStrDigits : Nat} {s s' : Stream} {mv : Move}

theorem finish_of_finished (h : s.finished = true) : s.finish = s := if_pos h

/-- Nothing closes the connection of a stream that has finished. -/
theorem open_move (hf : s.finished = true) (hw : s.writer = .open) (hm : s.move maxStrDigits mv = some s') :
    s'.finished = true ∧ s'.writer = .open := by
  refine move_cases (P := fun s' => s'.finished = true ∧ s'.writer = .open) hm (fun t p _ => ?_) (fun e r _ hs => ?_)
    (fun _ => ?_) (fun m _ _ => ?_) fun _ _ _ => ?_
  · by_cases ht : t = STREAM_RESET
    · subst ht
      have hr : s.onFrame STREAM_RESET p = { s with heard := s.heard ++ [(STREAM_RESET, p)] } :=
        finish_of_finished (s := { s with heard := s.heard ++ [(STREAM_RESET, p)] }) hf
      rw [hr]
      exact ⟨hf, hw⟩
    · obtain ⟨b, he, -⟩ := onFrame_eq s p ht
      rw [he]
      exact ⟨hf, hw⟩
  · have hst := step_cases hs
    refine ⟨hst.same.1.trans hf, ?_⟩
    cases hst with
    | dialed => rfl
    | dialRaised | credited | readEnd | readFailed => exact hw
    | toLocal inbox hat hof =>
      obtain ⟨⟨l, p, he, -⟩, -, -⟩ := hof
      rw [Stream.say, he]
      exact hw
    | begin hat =>
      obtain ⟨b, v, he, -⟩ := loopHead_eq s
      rw [Stream.say, he]
      exact hw
    | read chunk hat hne hlen =>
      obtain ⟨b, v, he, -⟩ := loopHead_eq
        { s with sendCredit := s.sendCredit - chunk.length, chunks := s.chunks ++ [chunk] }
      rw [Stream.say, he]
      exact hw
  · rw [finish_of_finished hf]
    exact ⟨hf, hw⟩
  · have hd : s.dialFailed m = ({ s with run := .ended },
        [.streamJson STREAM_RESET s.id [("code", .str "dial_failed"), ("message", .str m)]]) :=
      Prod.ext (finish_of_finished (s := { s with run := .ended }) hf) rfl
    rw [hd]
    exact ⟨hf, hw⟩
  · rw [show s.gathered = { s with run := .ended } from finish_of_finished (s := { s with run := .ended }) hf]
    exact ⟨hf, hw⟩

end Stream

namespace Agent

variable {env : Env} {a a' : Agent} {e : Event} {x : Nat} {s : Stream}

/-- No dial comes back to a stream that has finished. -/
def NoLateDial (a : Agent) (e : Event) : Prop := ∀ x ∈ e.dial?, ∀ s ∈ a.objs[x]?, s.finished = false

instance (a : Agent) (e : Event) : Decidable (NoLateDial a e) := inferInstanceAs (Decidable (∀ x ∈ e.dial?, _))

theorem NoLateDial.onTime (h : NoLateDial a e) (he : e = .stream x .dialed) (hx : a.objs[x]? = some s) :
    s.finished = false := by
  subst he
  exact h x rfl s hx

theorem dead_of_noLateDial (h : Reach (ofFn (step env)) NoLateDial Starts a) (hx : a.objs[x]? = some s)
    (hf : s.finished = true) : s.Dead :=
  dead_of_finished (fun _ _ hok _ _ he hx => hok.onTime he hx) h x s hx hf

/-- The step lemma over a run. -/
theorem dead_after (h : Reach (ofFn (step env)) NoLateDial Starts a) (hx : a.objs[x]? = some s)
    (hf : s.finished = true) (h' : Reach (ofFn (step env)) NoLateDial (· = a) a') :
    ∃ s', a'.objs[x]? = some s' ∧ s'.finished = true ∧ s'.writer ≠ .open ∧ s'.queued = s.queued := by
  have hrun : ∃ s', a'.objs[x]? = some s' ∧ s'.finished = true ∧ s'.queued = s.queued := by
    refine h'.invariant (I := fun a' => ∃ s', a'.objs[x]? = some s' ∧ s'.finished = true ∧ s'.queued = s.queued) ?_ ?_
    · rintro _ rfl
      exact ⟨s, hx, hf, rfl⟩
    · rintro b e b' hb ⟨t, ht, hft, hq⟩ hok hs
      have hreach := h.trans hb
      obtain ⟨t', ht', hft', -, hq'⟩ :=
        dead_step (sound hreach ht).life ht hft (dead_of_noLateDial hreach ht hft) hok hs
      exact ⟨t', ht', hft', hq'.trans hq⟩
  obtain ⟨s', hx', hf', hq⟩ := hrun
  exact ⟨s', hx', hf', (dead_of_noLateDial (h.trans h') hx' hf').1, hq⟩

theorem open_after (hx : a.objs[x]? = some s) (hf : s.finished = true) (hw : s.writer = .open)
    (h' : Reachable (ofFn (step env)) (· = a) a') :
    ∃ s', a'.objs[x]? = some s' ∧ s'.finished = true ∧ s'.writer = .open := by
  refine h'.invariant (I := fun a' => ∃ s', a'.objs[x]? = some s' ∧ s'.finished = true ∧ s'.writer = .open) ?_ ?_
  · rintro _ rfl
    exact ⟨s, hx, hf, hw⟩
  · rintro b e b' - ⟨t, ht, hft, hwt⟩ - hs
    have hc := step_objs hs x
    rw [ht] at hc
    generalize ho : b'.objs[x]? = o at hc
    cases hc with
    | still => exact ⟨t, rfl, hft, hwt⟩
    | moved _ hm => exact ⟨_, rfl, Stream.open_move hft hwt hm⟩

/-- A connection that comes to a stream that has finished is never closed. -/
theorem open_of_lateDial (hx : a.objs[x]? = some s) (hf : s.finished = true)
    (hs : a.step env (.stream x .dialed) = some a') {b : Agent} (hb : Reachable (ofFn (step env)) (· = a') b) :
    ∃ t : Stream, b.objs[x]? = some t ∧ t.finished = true ∧ t.writer = .open := by
  obtain ⟨t, ht, hs⟩ := Option.bind_eq_some_iff.mp hs
  obtain rfl : s = t := Option.some.inj (hx.symm.trans ht)
  obtain ⟨r, hr, rfl⟩ := Option.map_eq_some_iff.mp hs
  have hat := getElem?_put (r := r) hx x
  rw [if_pos rfl] at hat
  obtain ⟨-, he⟩ := Option.ite_none_right_eq_some.mp hr
  cases he
  exact open_after hat hf rfl hb

/-- A dial that comes back late sends a frame, or opens a connection that is never closed. -/
theorem alive_of_lateDial (hok : ¬ NoLateDial a e) (hs : a.step env e = some a') :
    ∃ (x : Nat) (s s' : Stream), a.objs[x]? = some s ∧ s.finished = true ∧ a'.objs[x]? = some s' ∧
      (s'.queued ≠ s.queued ∨ ∀ b, Reachable (ofFn (step env)) (· = a') b →
        ∃ t : Stream, b.objs[x]? = some t ∧ t.finished = true ∧ t.writer = .open) := by
  simp only [NoLateDial, not_forall, Bool.not_eq_false] at hok
  obtain ⟨x, hd, s, hx, hf⟩ := hok
  have hx : a.objs[x]? = some s := hx
  cases e with
  | stream y e =>
    cases e with
    | dialed =>
      obtain rfl : y = x := Option.some.inj hd
      obtain ⟨s', hx', -⟩ := open_of_lateDial hx hf hs (.start rfl)
      exact ⟨y, s, s', hx, hf, hx', .inr fun b hb => open_of_lateDial hx hf hs hb⟩
    | _ => cases hd
  | dialFailed y text =>
    obtain rfl : y = x := Option.some.inj hd
    obtain ⟨t, ht, hs⟩ := Option.bind_eq_some_iff.mp hs
    obtain rfl : s = t := Option.some.inj (hx.symm.trans ht)
    obtain ⟨-, he⟩ := Option.ite_none_right_eq_some.mp hs
    cases he
    have hat := getElem?_finishing (r := s.dialFailed text) hx y
    rw [if_pos rfl] at hat
    refine ⟨y, s, _, hx, hf, hat, .inl fun hq => ?_⟩
    have hlen := congrArg List.length hq
    have hkept := (Stream.finish_kept { s with run := .ended }).1
    simp only [Stream.say, Stream.dialFailed, hkept, List.length_append, List.length_singleton] at hlen
    omega
  | _ => cases hd

/-- In every run in which no dial comes back late, a stream that has finished sends nothing any more, in this session
or in another, and its connection is not open; with ids that are not in use, every frame goes out in the session that
its stream was made in. A dial that comes back late sends a frame, or opens a connection that is never closed. -/
theorem dead_run (env : Env) :
    (∀ a, Reach (ofFn (step env)) NoLateDial Starts a →
      ∀ (x : Nat) (s : Stream), a.objs[x]? = some s → s.finished = true →
        ∀ a', Reach (ofFn (step env)) NoLateDial (· = a) a' →
          ∃ s', a'.objs[x]? = some s' ∧ s'.finished = true ∧ s'.writer ≠ .open ∧ s'.queued = s.queued) ∧
    (∀ a, Reach (ofFn (step env)) (Calm env) Starts a →
      ∀ (k : Nat) log, a.sent[k]? = some log → ∀ p ∈ log, ∀ x, p.1 = some x →
        ∃ s, a.objs[x]? = some s ∧ s.session = k) ∧
    ∀ a e a', ¬ NoLateDial a e → a.step env e = some a' →
      ∃ (x : Nat) (s s' : Stream), a.objs[x]? = some s ∧ s.finished = true ∧ a'.objs[x]? = some s' ∧
        (s'.queued ≠ s.queued ∨ ∀ b, Reachable (ofFn (step env)) (· = a') b →
          ∃ t : Stream, b.objs[x]? = some t ∧ t.finished = true ∧ t.writer = .open) :=
  ⟨fun _ h _ _ hx hf _ h' => dead_after h hx hf h', fun _ h => (settled h).sent,
    fun _ _ _ hok hs => alive_of_lateDial hok hs⟩

/-- The session after `resetRun`. -/
def sessionAgain : List Event := [.disconnect, .connect, .reply [2], .deliver]

/-- The session ends while a stream is dialling; in the next one its dial is still on. -/
def lateRun : List Event :=
  [.connect, .reply [2], .message tunnelOk, .message (openFrame 1), .disconnect, .connect, .reply [2]]

/-- It comes back, and the stream pumps. -/
def pumpRun : List Event := [.stream 0 .dialed, .stream 0 .begin, .stream 0 (.read [1]), .deliver, .deliver]

/-- A stream that the server has reset, over the end of its session; and one whose dial is late. -/
theorem dead_run_ssh :
    (∃ (a a' : Agent) (s s' : Stream), a.objs[0]? = some s ∧ s.finished = true ∧ s.queued.length = 3 ∧
      a'.sent.map List.length = [4, 2] ∧ a'.objs[0]? = some s' ∧ s'.writer ≠ .open ∧ s'.queued = s.queued ∧
      ∀ (k : Nat) log, a'.sent[k]? = some log → ∀ p ∈ log, ∀ x, p.1 = some x →
        ∃ s, a'.objs[x]? = some s ∧ s.session = k) ∧
    ∃ (a a' : Agent) (x : Nat) (s s' : Stream), a.step sshEnv (.stream 0 .dialed) = some a' ∧ a.objs[x]? = some s ∧
      s.finished = true ∧ a'.objs[x]? = some s' ∧
        (s'.queued ≠ s.queued ∨ ∀ b, Reachable (ofFn (step sshEnv)) (· = a') b →
          ∃ t : Stream, b.objs[x]? = some t ∧ t.finished = true ∧ t.writer = .open) := by
  obtain ⟨hdead, hsent, hlate⟩ := dead_run sshEnv
  constructor
  · have hrun : (execOk (step sshEnv) (Calm sshEnv) new resetRun).any (fun a =>
        (a.objs[0]?.any fun s => decide (s.finished = true ∧ s.queued.length = 3)) &&
          (execOk (step sshEnv) (Calm sshEnv) a sessionAgain).any fun a' =>
            decide (a'.sent.map List.length = [4, 2])) = true := by decide +kernel
    obtain ⟨a, ha, hs⟩ := (Option.any_eq_true _ _).mp hrun
    obtain ⟨hs, ha'⟩ := (Bool.and_eq_true _ _).mp hs
    obtain ⟨s, hx, hs⟩ := (Option.any_eq_true _ _).mp hs
    obtain ⟨hf, hq⟩ := of_decide_eq_true hs
    obtain ⟨a', ha', hlen⟩ := (Option.any_eq_true _ _).mp ha'
    have h0 : Reach (ofFn (step sshEnv)) (Calm sshEnv) Starts a := .execOk (.start rfl) ha
    have h1 : Reach (ofFn (step sshEnv)) (Calm sshEnv) (· = a) a' := .execOk (.start rfl) ha'
    obtain ⟨s', hx', -, hw, hkept⟩ :=
      hdead a (h0.mono fun _ _ h => h.1) 0 s hx hf a' (h1.mono fun _ _ h => h.1)
    exact ⟨a, a', s, s', hx, hf, hq, of_decide_eq_true hlen, hx', hw, hkept, hsent a' (h0.trans h1)⟩
  · have hrun : (exec (step sshEnv) new lateRun).any (fun a =>
        decide (¬ NoLateDial a (.stream 0 .dialed)) && (a.step sshEnv (.stream 0 .dialed)).isSome) = true := by
      decide +kernel
    obtain ⟨a, -, hs⟩ := (Option.any_eq_true _ _).mp hrun
    obtain ⟨hok, hs⟩ := (Bool.and_eq_true _ _).mp hs
    obtain ⟨a', hs⟩ := Option.isSome_iff_exists.mp hs
    exact ⟨a, a', (hlate a _ a' (of_decide_eq_true hok) hs).imp fun x h => h.imp fun s h => h.imp fun s' h => ⟨hs, h⟩⟩

def isFrom (x : Nat) (p : Option Nat × Message) : Bool := decide (p.1 = some x)

/-- A finished stream of one session is dialled and pumps in the next. -/
theorem not_dead :
    (¬ ∀ (env : Env) (a a' : Agent) (x : Nat) (s s' : Stream), Reachable (ofFn (step env)) Starts a →
      a.objs[x]? = some s → s.finished = true → Reachable (ofFn (step env)) (· = a) a' → a'.objs[x]? = some s' →
        s'.queued = s.queued ∧ s'.writer ≠ .open) ∧
    ¬ ∀ (env : Env) (a : Agent) (k : Nat) log p x, Reachable (ofFn (step env)) Starts a → a.sent[k]? = some log →
      p ∈ log → p.1 = some x → ∃ s, a.objs[x]? = some s ∧ s.session = k := by
  have hrun : (exec (step sshEnv) new lateRun).any (fun a => (a.objs[0]?.any fun s => decide (s.finished = true)) &&
      (exec (step sshEnv) a pumpRun).any fun a' =>
        (a'.objs[0]?.any fun s => decide (s.writer = .open ∧ s.session = 0)) &&
          a'.sent[1]?.any (·.any (isFrom 0))) = true := by decide +kernel
  obtain ⟨a, ha, hs⟩ := (Option.any_eq_true _ _).mp hrun
  obtain ⟨hs, hs'⟩ := (Bool.and_eq_true _ _).mp hs
  obtain ⟨s, hx, hf⟩ := (Option.any_eq_true _ _).mp hs
  obtain ⟨a', ha', hs'⟩ := (Option.any_eq_true _ _).mp hs'
  obtain ⟨hs', hlog⟩ := (Bool.and_eq_true _ _).mp hs'
  obtain ⟨s', hx', hs'⟩ := (Option.any_eq_true _ _).mp hs'
  obtain ⟨hopen, hses⟩ := of_decide_eq_true hs'
  obtain ⟨log, hlog, hany⟩ := (Option.any_eq_true _ _).mp hlog
  obtain ⟨p, hp, hfrom⟩ := List.any_eq_true.mp hany
  have h0 : Reachable (ofFn (step sshEnv)) Starts a := .exec (.start rfl) ha
  have h1 : Reachable (ofFn (step sshEnv)) (· = a) a' := .exec (.start rfl) ha'
  refine ⟨fun h => ?_, fun h => ?_⟩
  · exact (h sshEnv a a' 0 s s' h0 hx (of_decide_eq_true hf) h1 hx').2 hopen
  · obtain ⟨t, ht, hk⟩ := h sshEnv a' 1 log p 0 (h0.trans h1) hlog hp (of_decide_eq_true hfrom)
    obtain rfl : s' = t := Option.some.inj (hx'.symm.trans ht)
    exact absurd (hses.symm.trans hk) (by decide)

end Agent

/-! ## When a stream leaves the table -/

namespace Stream

variable {maxStrDigits : Nat} {s s' : Stream} {mv : Move} {e : Event} {r : Stream × List Message}

/-- An EOF has passed in both directions, or a STREAM_RESET in one. -/
def OverOnWire (s : Stream) : Prop :=
  s.HeardEof ∧ .streamOnly STREAM_EOF s.id ∈ s.queued ∨ s.HeardReset ∨ s.SaidReset

theorem OverOnWire.later (h : s.OverOnWire) (hl : Later s s') : s'.OverOnWire := by
  unfold OverOnWire HeardEof HeardReset SaidReset at *
  rw [hl.id]
  refine h.imp (fun h => ⟨?_, hl.queued.subset h.2⟩) (Or.imp ?_ ?_)
  · exact h.1.imp fun _ hp => hl.heard.subset hp
  · exact fun h => h.imp fun _ hp => hl.heard.subset hp
  · exact fun h => h.imp fun _ hp => hl.queued.subset hp

/-- Acknowledgements do not end a stream. -/
theorem OverOnWire.of_acks (hid : s'.id = s.id) (hh : s'.heard = s.heard)
    (hq : ∀ m ∈ s'.queued, m ∈ s.queued ∨ ∃ n, m = .streamAck s.id n) (h : s'.OverOnWire) : s.OverOnWire := by
  have back : ∀ m ∈ s'.queued, (∀ n, m ≠ .streamAck s.id n) → m ∈ s.queued := fun m hm hne =>
    (hq m hm).resolve_right fun ⟨n, he⟩ => hne n he
  unfold OverOnWire HeardEof HeardReset SaidReset at *
  rw [hid, hh] at h
  refine h.imp (And.imp_right fun hm => back _ hm fun n he => ?_) (Or.imp_right fun ⟨body, hm⟩ =>
    ⟨body, back _ hm fun n he => ?_⟩) <;> cases he

/-- `_to_local` raises in the turn that takes the item: the target cannot be put into the head, or the length is none
for a STREAM_ACK. -/
def raises (maxStrDigits : Nat) (s : Stream) : Option Bytes → Bool
  | none => s.headBuf ≠ [] && !(rewriteHostHeader maxStrDigits s.headBuf s.spec.target).isOk
  | some payload =>
    match if s.headDone then .ok (s.toToLocal, payload) else s.bufferHead maxStrDigits payload with
    | .error _ => true
    | .ok (_, out) => out = [] && !(streamAck s.id payload.length).isOk

/-- A read or a write of the local service fails, or `_to_local` raises of itself. -/
def failing (maxStrDigits : Nat) (s : Stream) : Event → Bool
  | .readFailed => true
  | .drainFailed => true
  | .item => s.inbox.head?.any (s.raises maxStrDigits)
  | .drained =>
    match s.toLocalAt with
    | .drain consumed => !(streamAck s.id consumed).isOk
    | .unmade | .item | .drainHead | .returned | .raised | .cancelled => false
  | .dialed => false
  | .dialRaised => false
  | .begin => false
  | .credited => false
  | .read _ => false
  | .readEnd => false

theorem ack_raised (s : Stream) (consumed : Nat) :
    (s.ack consumed).1.toLocalAt = .raised ↔ (!(streamAck s.id consumed).isOk) = true := by
  unfold ack
  cases streamAck s.id consumed <;> simp [raise, Except.isOk, Except.toBool]

theorem takeItem_raised (s : Stream) (item : Option Bytes) :
    (s.takeItem maxStrDigits item).1.toLocalAt = .raised ↔ s.raises maxStrDigits item = true := by
  cases item with
  | none =>
    simp only [takeItem, raises]
    by_cases hb : s.headBuf = []
    · simp [hb, writeEof]
    · cases rewriteHostHeader maxStrDigits s.headBuf s.spec.target <;> simp [hb, raise, Except.isOk, Except.toBool]
  | some payload =>
    simp only [takeItem, raises]
    cases hc : (if s.headDone = true then Except.ok (s.toToLocal, payload) else s.bufferHead maxStrDigits payload) with
    | error err => simp [raise]
    | ok r =>
      obtain ⟨l, out⟩ := r
      have hid : l.id = s.id := by
        split at hc
        · cases hc
          rfl
        · exact (bufferHead_ok hc).1
      by_cases ho : out = []
      · simp only [ho, if_true, decide_true, Bool.true_and, ack_raised, hid]
      · simp [ho]

theorem raises_inbox (s : Stream) (inbox : List (Option Bytes)) (item : Option Bytes) :
    { s with inbox := inbox }.raises maxStrDigits item = s.raises maxStrDigits item := by
  cases item <;> rfl

/-- Where a step fails that is no read, `_to_local` raises and sends nothing. -/
theorem failing_step (hs : s.step maxStrDigits e = some r) (hne : e ≠ .readFailed)
    (hfail : s.failing maxStrDigits e = true) : s.toLocalAt.waits = true ∧ r.1.toLocalAt = .raised := by
  cases e with
  | readFailed => exact absurd rfl hne
  | drainFailed =>
    simp only [step] at hs
    cases hat : s.toLocalAt <;> rw [hat] at hs <;> cases hs <;> exact ⟨rfl, rfl⟩
  | drained =>
    simp only [step] at hs
    simp only [failing] at hfail
    cases hat : s.toLocalAt <;> rw [hat] at hs hfail <;> cases hs
    · exact ⟨rfl, (ack_raised s _).mpr hfail⟩
    · cases hfail
  | item =>
    obtain ⟨hat, he⟩ := Option.ite_none_right_eq_some.mp hs
    simp only [failing] at hfail
    cases hin : s.inbox with
    | nil =>
      rw [hin] at he
      cases he
    | cons item inbox =>
      rw [hin] at he hfail
      cases he
      exact ⟨by rw [hat]; rfl, (takeItem_raised _ item).mpr ((raises_inbox s inbox item).trans hfail)⟩
  | dialed | dialRaised | begin | credited | read | readEnd => cases hfail

/-- `_to_local` raises only in a step that fails. -/
theorem raised_of_step (hs : s.step maxStrDigits e = some r) (hr : r.1.toLocalAt = .raised) :
    s.toLocalAt = .raised ∨ s.failing maxStrDigits e = true := by
  cases e with
  | drainFailed | readFailed => exact .inr rfl
  | drained =>
    simp only [step] at hs
    simp only [failing]
    cases hat : s.toLocalAt <;> rw [hat] at hs <;> cases hs
    · exact .inr ((ack_raised s _).mp hr)
    · cases hr
  | item =>
    obtain ⟨-, he⟩ := Option.ite_none_right_eq_some.mp hs
    cases hin : s.inbox with
    | nil =>
      rw [hin] at he
      cases he
    | cons item inbox =>
      rw [hin] at he
      cases he
      right
      simp only [failing, hin, List.head?_cons, Option.any_some]
      exact (raises_inbox s inbox item).symm.trans ((takeItem_raised _ item).mp hr)
  | dialed =>
    obtain ⟨-, he⟩ := Option.ite_none_right_eq_some.mp hs
    cases he
    cases hr
  | dialRaised | credited | readEnd =>
    obtain ⟨-, he⟩ := Option.ite_none_right_eq_some.mp hs
    cases he
    exact .inl hr
  | begin =>
    obtain ⟨-, he⟩ := Option.ite_none_right_eq_some.mp hs
    cases he
    obtain ⟨b, v, he, -⟩ := loopHead_eq s
    rw [he] at hr
    exact .inl hr
  | read chunk =>
    obtain ⟨-, he⟩ := Option.ite_none_right_eq_some.mp hs
    cases he
    obtain ⟨b, v, he, -⟩ := loopHead_eq
      { s with sendCredit := s.sendCredit - chunk.length, chunks := s.chunks ++ [chunk] }
    rw [he] at hr
    exact .inl hr

/-- Only a read that fails is told to the server as such. -/
theorem Steps.localError (h : Steps s e r) (hm : s.reset "local_error" ∈ r.2) : e = .readFailed := by
  cases h with
  | dialed | dialRaised | begin | credited => cases hm
  | toLocal inbox hat hof =>
    obtain ⟨n, hn⟩ := hof.named _ hm
    cases hn
  | read => cases List.mem_singleton.mp hm
  | readEnd => cases List.mem_singleton.mp hm
  | readFailed => rfl

/-- No read has failed, and `_to_local` only in a stream that is over on the wire. -/
def Served (s : Stream) : Prop := (s.toLocalAt = .raised → s.OverOnWire) ∧ s.reset "local_error" ∉ s.queued

theorem served_new (id : Nat) (spec : TunnelSpec) (window : Int) (session : Nat) :
    Served (Stream.new id spec window session) := ⟨fun hr => by simp [Stream.new] at hr, List.not_mem_nil⟩

/-- Only a step that fails makes `_to_local` raise. -/
theorem raised_of_move (hm : s.move maxStrDigits mv = some s') (hr : s'.toLocalAt = .raised) :
    s.toLocalAt = .raised ∨ ∃ e, mv = .step e ∧ s.failing maxStrDigits e = true := by
  have back : ∀ {t : Stream}, t.finish.toLocalAt = .raised → t.toLocalAt = .raised := by
    intro t ht
    unfold Stream.finish at ht
    split at ht
    · exact ht
    · revert ht
      cases t.toLocalAt <;> simp [ToLocalAt.cancel]
  revert hr
  refine move_cases (P := fun s' => s'.toLocalAt = .raised → s.toLocalAt = .raised ∨
    ∃ e, mv = .step e ∧ s.failing maxStrDigits e = true) hm (fun t p _ hr => .inl ?_) (fun e r he hs hr => ?_)
    (fun _ hr => .inl (back hr)) (fun _ _ _ hr => .inl (back (t := { s with run := .ended }) hr))
    fun _ _ _ hr => .inl (back (t := { s with run := .ended }) hr)
  · by_cases ht : t = STREAM_RESET
    · subst ht
      exact back (t := { s with heard := s.heard ++ [(STREAM_RESET, p)] }) hr
    · obtain ⟨b, he, -⟩ := onFrame_eq s p ht
      rw [he] at hr
      exact hr
  · exact (raised_of_step hs hr).imp_right fun hfail => ⟨e, he, hfail⟩

theorem localError_of_move (hlife : s.Life) (hm : s.move maxStrDigits mv = some s')
    (hq : s'.reset "local_error" ∈ s'.queued) : s.reset "local_error" ∈ s.queued ∨ mv = .step .readFailed := by
  have hreset : s'.reset "local_error" = s.reset "local_error" := by rw [reset, reset, (later_move hlife hm).id]
  rw [hreset] at hq
  revert hq
  refine move_cases (P := fun s' => s.reset "local_error" ∈ s'.queued → s.reset "local_error" ∈ s.queued ∨
    mv = .step .readFailed) hm (fun t p _ hq => .inl (queued_onFrame s t p ▸ hq)) (fun e r he hs hq => ?_)
    (fun _ hq => .inl ((finish_kept s).1 ▸ hq)) (fun m _ _ hq => .inl ?_)
    fun _ _ _ hq => .inl ((finish_kept { s with run := .ended }).1 ▸ hq)
  · have hst := step_cases hs
    have hq : s.reset "local_error" ∈ s.queued ++ r.2 := hst.same.2.2.2.2 ▸ hq
    exact (List.mem_append.mp hq).imp_right fun hq => he.trans (congrArg Move.step (hst.localError hq))
  · have hq : s.reset "local_error" ∈ { s with run := .ended }.finish.queued ++ (s.dialFailed m).2 := hq
    rw [(finish_kept { s with run := .ended }).1] at hq
    refine (List.mem_append.mp hq).resolve_right fun hq => ?_
    injection List.mem_singleton.mp hq with _ _ hbody
    simp at hbody

theorem Served.move (h : Served s) (hlife : s.Life) (hm : s.move maxStrDigits mv = some s')
    (hok : ∀ e, mv = .step e → s.failing maxStrDigits e = true → e ≠ .readFailed ∧ s.OverOnWire) : Served s' := by
  refine ⟨fun hr => ?_, fun hq => ?_⟩
  · refine OverOnWire.later ?_ (later_move hlife hm)
    rcases raised_of_move hm hr with hr | ⟨e, he, hfail⟩
    · exact h.1 hr
    · exact (hok e he hfail).2
  · rcases localError_of_move hlife hm hq with hq | he
    · exact h.2 hq
    · exact (hok _ he rfl).1 rfl

end Stream

namespace Agent

variable {env : Env} {a a' : Agent} {e : Event} {x : Nat} {s : Stream}

/-- No connection comes to a stream that has finished, and no dial of an earlier session fails; no STREAM_OPEN brings
an id that is in use. -/
def Orderly (env : Env) (a : Agent) (e : Event) : Prop :=
  (∀ x ∈ e.dial?, ∀ s ∈ a.objs[x]?, s.finished = true →
    s.session + 1 = a.sent.length ∧ e ≠ .stream x .dialed) ∧
    ∀ id ∈ e.opens? env.maxStrDigits, a.streams.lookup id = none

/-- No read of the local service fails, and `_to_local` fails only in a stream that is over on the wire. -/
def WellServed (env : Env) (a : Agent) (e : Event) : Prop :=
  ∀ (x : Nat) (s : Stream) (ev : Stream.Event), e = .stream x ev → a.objs[x]? = some s →
    s.failing env.maxStrDigits ev = true → ev ≠ .readFailed ∧ s.OverOnWire

def Undisturbed (env : Env) (a : Agent) (e : Event) : Prop := Orderly env a e ∧ WellServed env a e

def Event.fails (env : Env) (a : Agent) : Event → Bool
  | .stream x e => a.objs[x]?.any fun s => s.failing env.maxStrDigits e
  | .connect => false
  | .reply _ => false
  | .unanswered => false
  | .message _ => false
  | .disconnect => false
  | .deliver => false
  | .dialFailed _ _ => false
  | .gathered _ => false

/-- A calm step in which nothing local fails at all. -/
def Quiet (env : Env) (a : Agent) (e : Event) : Prop := Calm env a e ∧ e.fails env a = false

instance (env : Env) (a : Agent) (e : Event) : Decidable (Quiet env a e) := inferInstanceAs (Decidable (_ ∧ _))

theorem Calm.orderly (h : Calm env a e) : Orderly env a e :=
  ⟨fun x hd s hx hf => absurd (hf.symm.trans (h.1 x hd s hx)) (by simp), h.2⟩

theorem Quiet.undisturbed (h : Quiet env a e) : Undisturbed env a e := by
  refine ⟨h.1.orderly, ?_⟩
  rintro x s ev rfl hx hfail
  have hno : (a.objs[x]?.any fun s => s.failing env.maxStrDigits ev) = false := h.2
  rw [hx, Option.any_some, hfail] at hno
  cases hno

theorem Orderly.onTime (h : Orderly env a e) (he : e = .stream x .dialed) (hx : a.objs[x]? = some s) :
    s.finished = false := by
  refine Bool.eq_false_iff.mpr fun hf => ?_
  exact (h.1 x (by rw [he]; rfl) s hx hf).2 he

theorem tabled_of_orderly (h : Reach (ofFn (step env)) (Orderly env) Starts a) : Tabled a :=
  tabled (fun _ _ hok => hok.2) h

theorem dead_of_orderly (h : Reach (ofFn (step env)) (Orderly env) Starts a) (hx : a.objs[x]? = some s)
    (hf : s.finished = true) : s.Dead :=
  dead_of_finished (fun _ _ hok _ _ he hx => hok.onTime he hx) h x s hx hf

theorem served (h : Reach (ofFn (step env)) (Undisturbed env) Starts a) :
    ∀ (x : Nat) (s : Stream), a.objs[x]? = some s → s.Served := by
  refine h.invariant (I := fun a => ∀ (x : Nat) (s : Stream), a.objs[x]? = some s → s.Served) ?_ ?_
  · rintro _ rfl x s hx
    cases hx
  · intro a e a' hr ih hok hs x s' hx'
    have hc := step_objs hs x
    rw [hx'] at hc
    generalize ho : a.objs[x]? = o at hc
    cases hc with
    | made => exact Stream.served_new _ _ _ _
    | still => exact ih x _ ho
    | moved hmv hm =>
      refine (ih x _ ho).move (sound hr ho).life hm fun ev he hfail => ?_
      exact hok.2 x _ ev (he ▸ hmv).eq_stream ho hfail

/-- The claim about a stream of the session that is up, where nothing local has failed. -/
theorem removed_of_undisturbed (h : Reach (ofFn (step env)) (Undisturbed env) Starts a) (hx : a.objs[x]? = some s)
    (hup : a.phase = .up) (hnow : s.session + 1 = a.sent.length) :
    ((∀ id, a.streams.lookup id ≠ some x) → s.OverOnWire) ∧
    (s.HeardReset ∨ s.SaidReset →
      (∀ id, a.streams.lookup id ≠ some x) ∧ s.finished = true ∧ s.writer ≠ .open) := by
  have horderly : Reach (ofFn (step env)) (Orderly env) Starts a := h.mono fun _ _ hok => hok.1
  have ht := timed h
  obtain ⟨hsound, hreset⟩ := ht.sound x s hx
  have hserved := served h x s hx
  have out : s.finished = true → (∀ id, a.streams.lookup id ≠ some x) ∧ s.finished = true ∧ s.writer ≠ .open := by
    refine fun hf => ⟨fun id hl => ?_, hf, (dead_of_orderly horderly hx hf).1⟩
    obtain ⟨t, ht, -, hn⟩ := listed h id x hl
    obtain rfl : s = t := Option.some.inj (hx.symm.trans ht)
    exact absurd (hf.symm.trans hn) (by simp)
  refine ⟨fun hno => ?_, fun hr => out ?_⟩
  · have hf : s.finished = true := by
      by_contra hn
      exact hno s.id (tabled_of_orderly horderly x s hx ((Bool.not_eq_true _).mp hn)).2.1
    rcases ht.finished x s hx hf with (heof | hheard | hsaid | hraised) | hne | hlt
    · exact .inl heof
    · exact .inr (.inl hheard)
    · exact .inr (.inr hsaid)
    · exact hserved.1 hraised
    · exact absurd hup hne
    · omega
  · rcases hr with hr | hr
    · exact hreset hr
    · by_contra hn
      exact hserved.2 (Stream.returned_of_saidReset hsound.spoken hr ((Bool.not_eq_true _).mp hn)).2

/-- After a read that has failed the stream stays, although it has sent a STREAM_RESET. -/
theorem stays_of_readFailed (h : Reach (ofFn (step env)) (Orderly env) Starts a)
    (hs : a.step env (.stream x .readFailed) = some a') :
    ∃ s', a'.objs[x]? = some s' ∧ s'.SaidReset ∧ a'.streams.lookup s'.id = some x ∧ s'.writer = .open := by
  obtain ⟨s, hx, hs⟩ := Option.bind_eq_some_iff.mp hs
  obtain ⟨r, hr, rfl⟩ := Option.map_eq_some_iff.mp hs
  obtain ⟨hat, he⟩ := Option.ite_none_right_eq_some.mp hr
  cases he
  have hlife := (sound h hx).life
  have hf : s.finished = false := Bool.eq_false_iff.mpr fun hf =>
    Stream.ne_cancel_of_waits (by rw [hat]; rfl) (dead_of_orderly h hx hf).2.2
  have hwriter : s.writer = .open := by
    cases hw : s.writer with
    | none =>
      rw [hlife.toServer.mpr hw] at hat
      cases hat
    | «open» => rfl
    | closed => exact absurd (hf.symm.trans (hlife.closed hw).1) (by simp)
  have hput := getElem?_put (r := ({ s with toServerAt := .returned }, [s.reset "local_error"])) hx x
  rw [if_pos rfl] at hput
  exact ⟨_, hput, ⟨[("code", .str "local_error")], List.mem_append_right _ (List.mem_singleton_self _)⟩,
    (tabled_of_orderly h x s hx hf).2.1, hwriter⟩

/-- After a write that has failed the stream can leave the table next, and is no more over than it was. -/
theorem leaves_of_failing (h : Reach (ofFn (step env)) (Orderly env) Starts a) {ev : Stream.Event}
    (hne : ev ≠ .readFailed) (hx : a.objs[x]? = some s) (hfail : s.failing env.maxStrDigits ev = true)
    (hs : a.step env (.stream x ev) = some a') :
    ∃ a'' s'', a'.step env (.gathered x) = some a'' ∧ a''.objs[x]? = some s'' ∧
      (∀ id, a''.streams.lookup id ≠ some x) ∧ (s''.OverOnWire → s.OverOnWire) := by
  have hlisted := (listed h).step hs
  obtain ⟨t, ht, hs⟩ := Option.bind_eq_some_iff.mp hs
  obtain rfl : s = t := Option.some.inj (hx.symm.trans ht)
  obtain ⟨r, hr, rfl⟩ := Option.map_eq_some_iff.mp hs
  obtain ⟨hwaits, hraised⟩ := Stream.failing_step hr hne hfail
  have hlife := (sound h hx).life
  have hf : s.finished = false := Bool.eq_false_iff.mpr fun hf =>
    Stream.cancel_of_waits hwaits (dead_of_orderly h hx hf).2.1
  have hwriter : s.writer ≠ .none := fun hw => Stream.ne_unmade_of_waits hwaits (hlife.toLocal.mpr hw)
  have hrun : s.run = .gathering := by
    cases hat : s.run with
    | dialing => exact absurd (hlife.dialing hat) hwriter
    | gathering => rfl
    | ended =>
      rcases hlife.ended hat with hw | hfin
      · exact absurd hw hwriter
      · exact absurd (hf.symm.trans hfin) (by simp)
  -- What the step leaves, and the end of `run` after it.
  have hst := Stream.step_cases hr
  obtain ⟨-, hheard, hid, -, hq⟩ := hst.same
  have hacks : r.1.run = s.run ∧ ∀ m ∈ r.2, ∃ n, m = .streamAck s.id n := by
    cases hst with
    | toLocal inbox hat hof =>
      obtain ⟨⟨l, p, he, -⟩, -, hnamed⟩ := hof
      exact ⟨by rw [he], hnamed⟩
    | readFailed => exact absurd rfl hne
    | dialed | dialRaised | begin | credited | read | readEnd => cases hfail
  have hput := getElem?_put (r := r) hx x
  rw [if_pos rfl] at hput
  have hgather : (Stream.say r).run = .gathering ∧ (Stream.say r).gatherDone = true := by
    refine ⟨hacks.1.trans hrun, ?_⟩
    show r.1.gatherDone = true
    simp [Stream.gatherDone, hraised]
  have hput' := getElem?_finishing (r := ((Stream.say r).gathered, [])) hput x
  rw [if_pos rfl] at hput'
  refine ⟨_, _, ?_, hput', fun id hl => (lookup_finishing hput hlisted hl).1 rfl, ?_⟩
  · simp only [step, hput, Option.bind_some, if_pos hgather]
  · obtain ⟨l, v, w, he, -⟩ := Stream.finish_eq { Stream.say r with run := .ended }
    rw [Stream.gathered, he]
    refine Stream.OverOnWire.of_acks hid hheard fun m hm => ?_
    have hm : m ∈ (r.1.queued ++ r.2) ++ [] := hm
    rw [List.append_nil] at hm
    exact (List.mem_append.mp hm).imp (fun hm => hq ▸ hm) (hacks.2 m)

/-- In every undisturbed run: while its session is up, a stream is out of the table only if it is over on the wire,
and it is out of the table, its connection not open, if a STREAM_RESET has passed. After a failed read it stays though
it has sent one; after a failed write it can leave without being over; and a connection that comes to a stream that has
finished is never closed. -/
theorem removed_run (env : Env) :
    (∀ a, Reach (ofFn (step env)) (Undisturbed env) Starts a →
      ∀ (x : Nat) (s : Stream), a.objs[x]? = some s → a.phase = .up → s.session + 1 = a.sent.length →
        ((∀ id, a.streams.lookup id ≠ some x) → s.OverOnWire) ∧
        (s.HeardReset ∨ s.SaidReset →
          (∀ id, a.streams.lookup id ≠ some x) ∧ s.finished = true ∧ s.writer ≠ .open)) ∧
    (∀ a, Reach (ofFn (step env)) (Orderly env) Starts a →
      ∀ (x : Nat) a', a.step env (.stream x .readFailed) = some a' →
        ∃ s', a'.objs[x]? = some s' ∧ s'.SaidReset ∧ a'.streams.lookup s'.id = some x ∧ s'.writer = .open) ∧
    (∀ a, Reach (ofFn (step env)) (Orderly env) Starts a →
      ∀ (x : Nat) (s : Stream) (e : Stream.Event) a', a.objs[x]? = some s → e ≠ .readFailed →
        s.failing env.maxStrDigits e = true → a.step env (.stream x e) = some a' →
          ∃ a'' s'', a'.step env (.gathered x) = some a'' ∧ a''.objs[x]? = some s'' ∧
            (∀ id, a''.streams.lookup id ≠ some x) ∧ (s''.OverOnWire → s.OverOnWire)) ∧
    ∀ (a : Agent) (x : Nat) (s : Stream) a', a.objs[x]? = some s → s.finished = true →
      a.step env (.stream x .dialed) = some a' → ∀ b, Reachable (ofFn (step env)) (· = a') b →
        ∃ t : Stream, b.objs[x]? = some t ∧ t.finished = true ∧ t.writer = .open :=
  ⟨fun _ h _ _ hx hup hnow => removed_of_undisturbed h hx hup hnow, fun _ h _ _ hs => stays_of_readFailed h hs,
    fun _ h _ _ _ _ hx hne hfail hs => leaves_of_failing h hne hx hfail hs,
    fun _ _ _ _ hx hf hs _ hb => open_of_lateDial hx hf hs hb⟩

/-- The end of `sshRun`: an EOF comes in, too. -/
def endedRun : List Event := sshRun ++ [.message (0x22 :: u32be 1), .stream 0 .item, .gathered 0]

/-- A stream that reads and waits for `drain`. -/
def busyRun : List Event :=
  [.connect, .reply [2], .message tunnelOk, .message (openFrame 1), .stream 0 .dialed, .stream 0 .begin,
    .message (0x21 :: u32be 1 ++ [7, 8]), .stream 0 (.read [1, 2, 3]), .stream 0 .item]

theorem not_lookup_of_values (h : x ∉ a.streams.values) : ∀ id, a.streams.lookup id ≠ some x := fun id hl =>
  h (Dict.mem_values.mpr ⟨id, hl⟩)

/-- A stream that ends and one that is reset; the two ways in which the local service of a third can fail; and a stream
whose dial is late. -/
theorem removed_run_ssh :
    (∃ (a : Agent) (s : Stream), a.objs[0]? = some s ∧ (∀ id, a.streams.lookup id ≠ some 0) ∧ s.OverOnWire) ∧
    (∃ (a : Agent) (s : Stream), a.objs[0]? = some s ∧ s.HeardReset ∧ (∀ id, a.streams.lookup id ≠ some 0) ∧
      s.finished = true ∧ s.writer ≠ .open) ∧
    (∃ (a : Agent) (s : Stream), a.objs[0]? = some s ∧ s.SaidReset ∧ a.streams.lookup s.id = some 0 ∧
      s.writer = .open) ∧
    (∃ (s : Stream) (a' : Agent) (s' : Stream), s.toLocalAt = .drain 2 ∧ a'.objs[0]? = some s' ∧
      (∀ id, a'.streams.lookup id ≠ some 0) ∧ (s'.OverOnWire → s.OverOnWire)) ∧
    ∃ (a : Agent) (s : Stream), a.objs[0]? = some s ∧ s.finished = true ∧ s.writer = .open := by
  obtain ⟨hremoved, hstays, hleaves, hlate⟩ := removed_run sshEnv
  have hended : (execOk (step sshEnv) (Quiet sshEnv) new endedRun).any (fun a =>
      decide (0 ∉ a.streams.values) && a.objs[0]?.any fun s =>
        decide (a.phase = .up ∧ s.session + 1 = a.sent.length)) = true := by decide +kernel
  have hreset : (execOk (step sshEnv) (Quiet sshEnv) new resetRun).any (fun a => a.objs[0]?.any fun s =>
      decide (a.phase = .up ∧ s.session + 1 = a.sent.length ∧ (STREAM_RESET, []) ∈ s.heard)) = true := by
    decide +kernel
  have hbusy : (execOk (step sshEnv) (Calm sshEnv) new busyRun).any (fun a =>
      (a.objs[0]?.any fun s => decide (s.toLocalAt = .drain 2)) && (a.step sshEnv (.stream 0 .readFailed)).isSome &&
        (a.step sshEnv (.stream 0 .drainFailed)).isSome) = true := by decide +kernel
  have hdial : (exec (step sshEnv) new lateRun).any (fun a => (a.objs[0]?.any fun s => decide (s.finished = true)) &&
      (a.step sshEnv (.stream 0 .dialed)).isSome) = true := by decide +kernel
  obtain ⟨b, hb, hs⟩ := (Option.any_eq_true _ _).mp hbusy
  have hcalm : Reach (ofFn (step sshEnv)) (Calm sshEnv) Starts b := .execOk (.start rfl) hb
  have horderly := hcalm.mono fun _ _ hok => Calm.orderly hok
  obtain ⟨hs, hdrain⟩ := (Bool.and_eq_true _ _).mp hs
  obtain ⟨hs, hread⟩ := (Bool.and_eq_true _ _).mp hs
  obtain ⟨t, hx, hs⟩ := (Option.any_eq_true _ _).mp hs
  refine ⟨?_, ?_, ?_, ?_, ?_⟩
  · obtain ⟨a, ha, hs⟩ := (Option.any_eq_true _ _).mp hended
    obtain ⟨hno, hs⟩ := (Bool.and_eq_true _ _).mp hs
    obtain ⟨s, hx, hs⟩ := (Option.any_eq_true _ _).mp hs
    obtain ⟨hup, hnow⟩ := of_decide_eq_true hs
    have hout := not_lookup_of_values (of_decide_eq_true hno)
    have hquiet : Reach (ofFn (step sshEnv)) (Quiet sshEnv) Starts a := .execOk (.start rfl) ha
    have hrun := hquiet.mono fun _ _ hok => Quiet.undisturbed hok
    exact ⟨a, s, hx, hout, (hremoved a hrun 0 s hx hup hnow).1 hout⟩
  · obtain ⟨a, ha, hs⟩ := (Option.any_eq_true _ _).mp hreset
    obtain ⟨s, hx, hs⟩ := (Option.any_eq_true _ _).mp hs
    obtain ⟨hup, hnow, hmem⟩ := of_decide_eq_true hs
    have hquiet : Reach (ofFn (step sshEnv)) (Quiet sshEnv) Starts a := .execOk (.start rfl) ha
    have hrun := hquiet.mono fun _ _ hok => Quiet.undisturbed hok
    exact ⟨a, s, hx, ⟨[], hmem⟩, (hremoved a hrun 0 s hx hup hnow).2 (.inl ⟨[], hmem⟩)⟩
  · obtain ⟨a', ha'⟩ := Option.isSome_iff_exists.mp hread
    exact ⟨a', hstays b horderly 0 a' ha'⟩
  · obtain ⟨a', ha'⟩ := Option.isSome_iff_exists.mp hdrain
    obtain ⟨a'', s'', -, hx'', hout, hover⟩ := hleaves b horderly 0 t .drainFailed a' hx (by simp) rfl ha'
    exact ⟨t, a'', s'', of_decide_eq_true hs, hx'', hout, hover⟩
  · obtain ⟨a, -, hs⟩ := (Option.any_eq_true _ _).mp hdial
    obtain ⟨hs, hdialed⟩ := (Bool.and_eq_true _ _).mp hs
    obtain ⟨s, hx, hf⟩ := (Option.any_eq_true _ _).mp hs
    obtain ⟨a', ha'⟩ := Option.isSome_iff_exists.mp hdialed
    exact ⟨a', hlate a 0 s a' hx (of_decide_eq_true hf) ha' a' (.start rfl)⟩

def isData : Message → Bool
  | .streamData _ _ => true
  | .control _ _ => false
  | .streamJson _ _ _ => false
  | .streamOnly _ _ => false
  | .streamAck _ _ => false

/-- A stream whose write fails leaves the table without a word, one whose read fails resets and stays. -/
theorem not_removed :
    (¬ ∀ (env : Env) (a : Agent) (x : Nat) (s : Stream), Reachable (ofFn (step env)) Starts a →
      a.objs[x]? = some s → a.phase = .up → s.session + 1 = a.sent.length →
        (∀ id, a.streams.lookup id ≠ some x) → s.OverOnWire) ∧
    ¬ ∀ (env : Env) (a : Agent) (x : Nat) (s : Stream), Reachable (ofFn (step env)) Starts a →
      a.objs[x]? = some s → a.phase = .up → s.session + 1 = a.sent.length →
        s.HeardReset ∨ s.SaidReset → (∀ id, a.streams.lookup id ≠ some x) ∧ s.writer ≠ .open := by
  have hwrite : (exec (step sshEnv) new (busyRun ++ [.stream 0 .drainFailed, .gathered 0])).any (fun a =>
      decide (a.phase = .up ∧ 0 ∉ a.streams.values) && a.objs[0]?.any fun s =>
        decide (s.session + 1 = a.sent.length) && s.queued.all isData &&
          s.heard.all fun f => f.1 = STREAM_DATA) = true := by decide +kernel
  have hread : (execOk (step sshEnv) (Calm sshEnv) new busyRun).any (fun a =>
      (a.step sshEnv (.stream 0 .readFailed)).any fun a' => decide (a'.phase = .up) && a'.objs[0]?.any fun s =>
        decide (s.session + 1 = a'.sent.length)) = true := by decide +kernel
  refine ⟨fun h => ?_, fun h => ?_⟩
  · obtain ⟨a, ha, hs⟩ := (Option.any_eq_true _ _).mp hwrite
    obtain ⟨hp, hs⟩ := (Bool.and_eq_true _ _).mp hs
    obtain ⟨hup, hno⟩ := of_decide_eq_true hp
    obtain ⟨s, hx, hs⟩ := (Option.any_eq_true _ _).mp hs
    obtain ⟨hs, hheard⟩ := (Bool.and_eq_true _ _).mp hs
    obtain ⟨hnow, hqueued⟩ := (Bool.and_eq_true _ _).mp hs
    have hdata : ∀ f ∈ s.heard, f.1 = STREAM_DATA := fun f hf => of_decide_eq_true (List.all_eq_true.mp hheard f hf)
    have hsaid : ∀ m ∈ s.queued, isData m = true := List.all_eq_true.mp hqueued
    rcases h sshEnv a 0 s (.exec (.start rfl) ha) hx hup (of_decide_eq_true hnow) (not_lookup_of_values hno) with
      ⟨⟨p, hp⟩, -⟩ | ⟨p, hp⟩ | ⟨body, hb⟩
    · exact absurd (hdata _ hp) (by simp [STREAM_DATA, STREAM_EOF])
    · exact absurd (hdata _ hp) (by simp [STREAM_DATA, STREAM_RESET])
    · exact absurd (hsaid _ hb) (by simp [isData])
  · obtain ⟨a, ha, hs⟩ := (Option.any_eq_true _ _).mp hread
    obtain ⟨a', hs', hs⟩ := (Option.any_eq_true _ _).mp hs
    obtain ⟨hup, hs⟩ := (Bool.and_eq_true _ _).mp hs
    obtain ⟨s, hx, hnow⟩ := (Option.any_eq_true _ _).mp hs
    have hcalm : Reach (ofFn (step sshEnv)) (Calm sshEnv) Starts a := .execOk (.start rfl) ha
    have hreach := hcalm.mono fun _ _ hok => Calm.orderly hok
    obtain ⟨s', hx', hsaid, hstill, -⟩ := stays_of_readFailed hreach hs'
    obtain rfl : s = s' := Option.some.inj (hx.symm.trans hx')
    exact (h sshEnv a' 0 s (hreach.reachable.next trivial hs') hx (of_decide_eq_true hup) (of_decide_eq_true hnow)
      (.inr hsaid)).1 s.id hstill

end Agent

end UpTunnel.Python
