import UpTunnel.Python.Runs

/-!
# UpTunnel.Python.Finished

When a stream of the Python agent finishes, and what is left of it.

* `Over`: both ways were ended, a STREAM_RESET has passed, or `_to_local` has raised.
* `step_clock`: what a step does to the sessions.
* `over_of_finished`: while its session is up, a stream finishes only when it is over.
* `Calm`: no dial of a finished stream comes back, and no id in use is opened again.
* `Tabled`, `InSession`: the streams that are not finished are in the table; frames stay in their session.
* `Settled`: both, and the streams that are not in the table are dead. Every calm step keeps it.
-/

namespace UpTunnel.Python

open Js Lts

namespace Stream

variable {maxStrDigits : Nat} {s s' : Stream} {mv : Move}

/-! ## What a move keeps -/

structure Later (s s' : Stream) : Prop where
  id : s'.id = s.id
  spec : s'.spec = s.spec
  session : s'.session = s.session
  window : s'.window = s.window
  heard : s.heard <+: s'.heard
  queued : s.queued <+: s'.queued
  finished : s.finished = true → s'.finished = true
  raised : s.toLocalAt = .raised → s'.toLocalAt = .raised

theorem later_finish (s : Stream) : Later s s.finish := by
  unfold Stream.finish
  split
  · exact ⟨rfl, rfl, rfl, rfl, List.prefix_rfl, List.prefix_rfl, id, id⟩
  · refine ⟨rfl, rfl, rfl, rfl, List.prefix_rfl, List.prefix_rfl, fun _ => rfl, fun h => ?_⟩
    simp [h, ToLocalAt.cancel]

theorem Later.say {r : Stream × List Message} (h : Later s r.1) : Later s (say r) :=
  ⟨h.id, h.spec, h.session, h.window, h.heard, h.queued.trans (List.prefix_append _ _), h.finished, h.raised⟩

/-- The end of `run`. -/
theorem later_gathered (s : Stream) : Later s s.gathered := by
  have h := later_finish { s with run := .ended }
  exact ⟨h.id, h.spec, h.session, h.window, h.heard, h.queued, h.finished, h.raised⟩

theorem later_dialFailed (s : Stream) (message : String) : Later s (Stream.say (s.dialFailed message)) :=
  (later_gathered s).say

theorem Steps.later {e : Event} {r : Stream × List Message} (h : Steps s e r) (hlife : Life s) :
    Later s (Stream.say r) := by
  have head : ∀ (s1 : Stream), Later s s1 → ∀ ms, Later s (Stream.say (s1.loopHead, ms)) := by
    intro s1 h1 ms
    obtain ⟨b, v, he, -⟩ := loopHead_eq s1
    rw [he]
    exact Later.say (r := ({ s1 with credit := b, toServerAt := v }, ms))
      ⟨h1.id, h1.spec, h1.session, h1.window, h1.heard, h1.queued, h1.finished, h1.raised⟩
  have grown : ∀ ms, s.queued <+: s.queued ++ ms := fun ms => List.prefix_append _ _
  cases h with
  | dialed hr =>
    refine ⟨rfl, rfl, rfl, rfl, List.prefix_rfl, grown _, id, fun hat => ?_⟩
    rw [hlife.toLocal.mpr (hlife.dialing hr)] at hat
    cases hat
  | dialRaised hr => exact ⟨rfl, rfl, rfl, rfl, List.prefix_rfl, grown _, id, id⟩
  | toLocal inbox hat hof =>
    obtain ⟨⟨l, p, he, h1, h2, -⟩, -, -⟩ := hof
    simp only [Stream.say, he]
    refine ⟨h1, h2, rfl, rfl, List.prefix_rfl, grown _, id, fun hr => ?_⟩
    rw [hr] at hat
    cases hat
  | begin hat => exact head s ⟨rfl, rfl, rfl, rfl, List.prefix_rfl, List.prefix_rfl, id, id⟩ _
  | credited hat hc => exact ⟨rfl, rfl, rfl, rfl, List.prefix_rfl, grown _, id, id⟩
  | read chunk hat hne hlen =>
    exact head { s with sendCredit := s.sendCredit - chunk.length, chunks := s.chunks ++ [chunk] }
      ⟨rfl, rfl, rfl, rfl, List.prefix_rfl, List.prefix_rfl, id, id⟩ _
  | readEnd hat => exact ⟨rfl, rfl, rfl, rfl, List.prefix_rfl, grown _, id, id⟩
  | readFailed hat => exact ⟨rfl, rfl, rfl, rfl, List.prefix_rfl, grown _, id, id⟩

theorem later_onFrame (s : Stream) (t : Nat) (p : Bytes) :
    Later s (s.onFrame t p) ∧ (t, p) ∈ (s.onFrame t p).heard := by
  have grown : s.heard <+: s.heard ++ [(t, p)] := List.prefix_append _ _
  by_cases ht : t = STREAM_RESET
  · subst ht
    have h := later_finish { s with heard := s.heard ++ [(STREAM_RESET, p)] }
    exact ⟨⟨h.id, h.spec, h.session, h.window, grown.trans h.heard, h.queued, h.finished, h.raised⟩,
      h.heard.subset (List.mem_append_right _ (List.mem_singleton_self _))⟩
  · obtain ⟨b, he, -⟩ := onFrame_eq s p ht
    rw [he]
    exact ⟨⟨rfl, rfl, rfl, rfl, grown, List.prefix_rfl, id, id⟩, List.mem_append_right _ (List.mem_singleton_self _)⟩

theorem later_move (hlife : Life s) (hm : s.move maxStrDigits mv = some s') : Later s s' := by
  refine move_cases hm (fun t p _ => (later_onFrame s t p).1) (fun e r _ hs => (step_cases hs).later hlife)
    (fun _ => later_finish s) (fun m _ _ => later_dialFailed s m) fun _ _ _ => later_gathered s

/-- Only a STREAM_RESET, the end of `run` and the end of the session finish a stream. -/
theorem Steps.same {e : Event} {r : Stream × List Message} (h : Steps s e r) :
    r.1.finished = s.finished ∧ r.1.heard = s.heard ∧ r.1.id = s.id ∧ r.1.session = s.session ∧
      r.1.queued = s.queued := by
  cases h with
  | dialed | dialRaised | credited | readEnd | readFailed => exact ⟨rfl, rfl, rfl, rfl, rfl⟩
  | toLocal inbox hat hof =>
    obtain ⟨⟨l, p, he, hid, -⟩, -, -⟩ := hof
    rw [he]
    exact ⟨rfl, rfl, hid, rfl, rfl⟩
  | begin hat =>
    obtain ⟨b, v, he, -⟩ := loopHead_eq s
    simp only [he, and_self]
  | read chunk hat hne hlen =>
    obtain ⟨b, v, he, -⟩ := loopHead_eq
      { s with sendCredit := s.sendCredit - chunk.length, chunks := s.chunks ++ [chunk] }
    simp only [he, and_self]

/-! ## A stream that is over -/

def HeardEof (s : Stream) : Prop := ∃ p, (STREAM_EOF, p) ∈ s.heard

def HeardReset (s : Stream) : Prop := ∃ p, (STREAM_RESET, p) ∈ s.heard

def SaidReset (s : Stream) : Prop := ∃ body, .streamJson STREAM_RESET s.id body ∈ s.queued

/-- The stream is over on the wire, or `_to_local` has raised: its local service has gone. -/
def Over (s : Stream) : Prop :=
  s.HeardEof ∧ .streamOnly STREAM_EOF s.id ∈ s.queued ∨ s.HeardReset ∨ s.SaidReset ∨ s.toLocalAt = .raised

theorem Over.later (h : Over s) (hl : Later s s') : Over s' := by
  unfold Over HeardEof HeardReset SaidReset at *
  rw [hl.id]
  refine h.imp (fun h => ⟨?_, hl.queued.subset h.2⟩) (Or.imp ?_ (Or.imp ?_ hl.raised))
  · exact h.1.imp fun _ hp => hl.heard.subset hp
  · exact fun h => h.imp fun _ hp => hl.heard.subset hp
  · exact fun h => h.imp fun _ hp => hl.queued.subset hp

/-- `_to_local` returns behind a STREAM_EOF. -/
theorem heardEof_of_returned (h : Taken maxStrDigits s) (hat : s.toLocalAt = .returned) : s.HeardEof := by
  obtain ⟨payloads, eof, rest, hi, -, -, hret, -⟩ := h.exists_payloads
  have hmem : none ∈ items s.heard := by
    rw [hi, (hret hat).1]
    simp [UpTunnel.inbox]
  obtain ⟨⟨t, p⟩, hf, hitem⟩ := List.mem_filterMap.mp hmem
  refine ⟨p, ?_⟩
  unfold item? at hitem
  split at hitem
  · cases hitem
  · split at hitem
    · rename_i ht
      exact ht ▸ hf
    · cases hitem

theorem mem_of_speech {ms : List Message} {m : Message} (h : m ∈ speech ms) : m ∈ ms := (List.mem_filter.mp h).1

/-- `_to_server` returns behind a STREAM_EOF or a STREAM_RESET. -/
theorem said_of_returned (h : Spoken s) (hat : s.toServerAt = .returned) :
    .streamOnly STREAM_EOF s.id ∈ s.queued ∨ s.reset "local_error" ∈ s.queued := by
  obtain ⟨ms, ht, hl⟩ := h.talk
  simp only [Last, hat] at hl
  have hmem : ∀ m ∈ ms, m ∈ s.queued := fun m hm => mem_of_speech (ht ▸ List.mem_append_right _ hm)
  rcases hl with rfl | rfl
  · exact .inl (hmem _ List.mem_cons_self)
  · exact .inr (hmem _ List.mem_cons_self)

/-- But for the end of its session, a stream finishes when it is over. -/
theorem over_of_move (hlife : Life s) (hspoken : Spoken s) (htaken : Taken maxStrDigits s)
    (hm : s.move maxStrDigits mv = some s') (hf : s.finished = false) (hf' : s'.finished = true)
    (hne : mv ≠ .finish) : Over s' := by
  have hl := later_move hlife hm
  revert hf'
  refine move_cases (P := fun s' => s'.finished = true → Over s') hm (fun t p _ hf' => ?_) (fun e r _ hs hf' => ?_)
    (fun h => absurd h hne) (fun m _ _ _ => ?_) fun _ _ hg _ => ?_
  · by_cases ht : t = STREAM_RESET
    · subst ht
      exact .inr (.inl ⟨p, (later_onFrame s STREAM_RESET p).2⟩)
    · obtain ⟨b, he, -⟩ := onFrame_eq s p ht
      rw [he] at hf'
      exact absurd (hf.symm.trans hf') (by simp)
  · have hstay : (say r).finished = s.finished := (step_cases hs).same.1
    exact absurd (hf.symm.trans (hstay.symm.trans hf')) (by simp)
  · have hid : (say (s.dialFailed m)).id = s.id := (later_dialFailed s m).id
    refine .inr (.inr (.inl ⟨[("code", .str "dial_failed"), ("message", .str m)], ?_⟩))
    rw [hid]
    exact List.mem_append_right _ (List.mem_singleton_self _)
  · have hcancel : s.toLocalAt ≠ .cancelled ∧ s.toServerAt ≠ .cancelled := by
      constructor
      · exact fun hc => absurd (hlife.cancelled (.inl hc)) (by simp [hf])
      · exact fun hc => absurd (hlife.cancelled (.inr hc)) (by simp [hf])
    simp only [gatherDone, hcancel.1, hcancel.2, decide_false, Bool.or_false, Bool.or_eq_true, Bool.and_eq_true,
      decide_eq_true_eq] at hg
    refine Over.later ?_ (later_gathered s)
    rcases hg with hg | ⟨h1, h2⟩
    · exact .inr (.inr (.inr hg))
    · rcases said_of_returned hspoken h2 with h | h
      · exact .inl ⟨heardEof_of_returned htaken h1, h⟩
      · exact .inr (.inr (.inl ⟨_, h⟩))

/-! ## A stream that is dead -/

/-- Its tasks have ended or were never made, and its connection is not open. -/
def Dead (s : Stream) : Prop :=
  s.writer ≠ .open ∧ s.toLocalAt.cancel = s.toLocalAt ∧ s.toServerAt.cancel = s.toServerAt

theorem dead_finish (h : s.finished = false) : Dead s.finish := by
  unfold Stream.finish
  rw [if_neg (by simp [h])]
  exact ⟨close_ne_open _, cancel_toLocal_cancel _, cancel_toServer_cancel _⟩

theorem ne_cancel_of_waits {p : ToServerAt} (h : p.waits = true) : p.cancel ≠ p := by
  cases p <;> simp_all [ToServerAt.waits, ToServerAt.cancel]

/-- A dead stream does nothing, unless its dial comes back. -/
theorem Dead.step {e : Event} {r : Stream × List Message} (h : Dead s) (hs : Steps s e r) (hne : e ≠ .dialed) :
    Dead r.1 ∧ r.2 = [] := by
  have idle : s.toServerAt.waits = true → Dead r.1 ∧ r.2 = [] := fun hat => absurd h.2.2 (ne_cancel_of_waits hat)
  cases hs with
  | dialed => exact absurd rfl hne
  | dialRaised hr => exact ⟨h, rfl⟩
  | toLocal inbox hat hof => exact absurd h.2.1 (cancel_of_waits hat)
  | begin hat => exact idle (by rw [hat]; rfl)
  | credited hat hc => exact idle (by rw [hat]; rfl)
  | read chunk hat hc hlen => exact idle (by rw [hat]; rfl)
  | readEnd hat => exact idle (by rw [hat]; rfl)
  | readFailed hat => exact idle (by rw [hat]; rfl)

theorem queued_onFrame (s : Stream) (t : Nat) (p : Bytes) : (s.onFrame t p).queued = s.queued := by
  by_cases ht : t = STREAM_RESET
  · subst ht
    exact (finish_kept _).1
  · obtain ⟨b, he, -⟩ := onFrame_eq s p ht
    rw [he]

/-- A dead stream sends nothing, unless its dial comes back. -/
theorem Dead.move (h : Dead s) (hm : s.move maxStrDigits mv = some s') (hd : mv ≠ .step .dialed)
    (hdf : ∀ message, mv ≠ .dialFailed message) : s'.queued = s.queued := by
  refine move_cases (P := fun s' => s'.queued = s.queued) hm (fun t p _ => queued_onFrame s t p) (fun e r he hs => ?_)
    (fun _ => (finish_kept s).1) (fun m he _ => absurd he (hdf m)) fun _ _ _ =>
      (finish_kept { s with run := .ended }).1
  have hst := step_cases hs
  obtain ⟨-, hms⟩ := h.step hst fun hne => hd (he.trans (congrArg Move.step hne))
  show r.1.queued ++ r.2 = s.queued
  rw [hms, List.append_nil]
  exact hst.same.2.2.2.2

theorem Dead.finish (h : s.finished = true → Dead s) : Dead s.finish := by
  cases hf : s.finished with
  | true =>
    rw [Stream.finish, if_pos hf]
    exact h hf
  | false => exact dead_finish hf

/-- A stream is dead from the move on that finishes it. -/
theorem Dead.of_move (h : s.finished = true → Dead s) (hm : s.move maxStrDigits mv = some s')
    (hd : s.finished = true → mv ≠ .step .dialed) : s'.finished = true → Dead s' := by
  refine move_cases (P := fun s' => s'.finished = true → Dead s') hm (fun t p _ hf' => ?_) (fun e r he hs hf' => ?_)
    (fun _ _ => .finish h) (fun m _ _ _ => Dead.finish (s := { s with run := .ended }) h) fun _ _ _ _ =>
      .finish (s := { s with run := .ended }) h
  · by_cases ht : t = STREAM_RESET
    · subst ht
      exact .finish (s := { s with heard := s.heard ++ [(STREAM_RESET, p)] }) h
    · obtain ⟨b, hb, -⟩ := onFrame_eq s p ht
      rw [hb] at hf' ⊢
      exact h hf'
  · have hst := step_cases hs
    have hf : s.finished = true := hst.same.1.symm.trans hf'
    exact ((h hf).step hst fun hne => hd hf (he.trans (congrArg Move.step hne))).1

/-- A stream that has heard a STREAM_RESET is finished. -/
theorem finished_of_heardReset (h : s.HeardReset → s.finished = true) (hm : s.move maxStrDigits mv = some s') :
    s'.HeardReset → s'.finished = true := by
  refine move_cases (P := fun s' => s'.HeardReset → s'.finished = true) hm (fun t p _ hr => ?_)
    (fun e r _ hs hr => ?_) (fun _ _ => finish_finished s)
    (fun _ _ _ _ => finish_finished _) fun _ _ _ _ => finish_finished _
  · by_cases ht : t = STREAM_RESET
    · subst ht
      exact finish_finished _
    · obtain ⟨b, he, -⟩ := onFrame_eq s p ht
      rw [he] at hr ⊢
      obtain ⟨q, hq⟩ := hr
      rcases List.mem_append.mp hq with hq | hq
      · exact h ⟨q, hq⟩
      · cases List.mem_singleton.mp hq
        exact absurd rfl ht
  · have hs := (step_cases hs).same
    exact hs.1.trans (h (hr.imp fun q hq => hs.2.1 ▸ hq))

/-- A stream that has sent a STREAM_RESET and is not finished has failed to read. -/
theorem returned_of_saidReset (h : Spoken s) (hr : s.SaidReset) (hf : s.finished = false) :
    s.toServerAt = .returned ∧ s.reset "local_error" ∈ s.queued := by
  obtain ⟨body, hb⟩ := hr
  obtain ⟨ms, ht, hl⟩ := h.talk
  have hmem : .streamJson STREAM_RESET s.id body ∈ speech s.queued := List.mem_filter.mpr ⟨hb, rfl⟩
  rw [ht] at hmem
  have hms : .streamJson STREAM_RESET s.id body ∈ ms := by
    rcases List.mem_append.mp hmem with hm | hm
    · obtain ⟨c, -, hc⟩ := List.mem_map.mp hm
      cases hc
    · exact hm
  have hback : ∀ m ∈ ms, m ∈ s.queued := fun m hm => mem_of_speech (ht ▸ List.mem_append_right _ hm)
  unfold Last at hl
  cases hat : s.toServerAt <;> simp only [hat] at hl
  · rcases hl.2 with rfl | ⟨⟨-, hfin⟩, -⟩
    · cases hms
    · exact absurd (hf.symm.trans hfin) (by simp)
  · rw [hl] at hms
    cases hms
  · rw [hl] at hms
    cases hms
  · rw [hl] at hms
    cases hms
  · rcases hl with rfl | rfl
    · cases List.mem_singleton.mp hms
    · exact ⟨rfl, hback _ List.mem_cons_self⟩
  · rw [hl] at hms
    cases hms

end Stream

namespace Agent

variable {env : Env} {a a' : Agent} {e : Event} {x : Nat} {s : Stream}

/-! ## Sessions -/

theorem finishing_frame (a : Agent) (x : Nat) (s : Stream) (r : Stream × List Message) :
    (a.finishing x s r).phase = a.phase ∧ (a.finishing x s r).sent = a.sent ∧
      (a.finishing x s r).streams = (if s.finished then a.streams else a.streams.erase s.id) ∧
      (a.finishing x s r).out = a.out ++ r.2.map (some x, ·) := by
  unfold finishing
  cases s.finished <;> exact ⟨rfl, rfl, rfl, rfl⟩

theorem onStream_frame (env : Env) (a : Agent) (t id : Nat) (p : Bytes) :
    (a.onStream env t id p).phase = a.phase ∧ (a.onStream env t id p).sent = a.sent := by
  by_cases ht : t = STREAM_OPEN
  · rw [onStream, if_pos ht]
    rcases onStreamOpen_cases env a id p with hr | ⟨tunnelId, spec, -, hr⟩ <;> rw [hr] <;> exact ⟨rfl, rfl⟩
  · rcases onStream_cases env a p ht with ⟨-, ms, -, hr⟩ | ⟨y, -, -, hr⟩ | ⟨y, s, -, -, hr⟩ <;> rw [hr]
    · exact ⟨rfl, rfl⟩
    · exact ⟨rfl, rfl⟩
    · split
      · exact ⟨(finishing_frame a y s _).1, (finishing_frame a y s _).2.1⟩
      · exact ⟨rfl, rfl⟩

theorem onReply_phase (env : Env) (a : Agent) (data : Bytes) : (a.onReply env data).phase ≠ .greeting := by
  unfold onReply
  split
  · simp
  · simp
  · split
    · simp only
      split <;> simp
    · split
      · simp
      · split
        · simp
        · rw [(register_objs env.tunnels _ 0).2.2.2.1]
          simp

/-- What a step does to the phase and to the number of the session. -/
theorem step_clock (h : a.step env e = some a') :
    (a.phase = .down ∧ a'.phase = .greeting ∧ a'.sent.length = a.sent.length + 1 ∧ a'.objs = a.objs) ∨
    (a.phase = .greeting ∧ a'.phase ≠ .greeting ∧ a'.sent.length = a.sent.length ∧ a'.objs = a.objs) ∨
    (e = .disconnect ∧ a.phase = .up ∧ a'.phase = .down ∧ a'.sent.length = a.sent.length) ∨
    e ≠ .disconnect ∧ a'.phase = a.phase ∧ a'.sent.length = a.sent.length := by
  cases e with
  | connect =>
    obtain ⟨hd, he⟩ := Option.ite_none_right_eq_some.mp h
    cases he
    exact .inl ⟨hd, rfl, List.length_append, rfl⟩
  | reply data =>
    obtain ⟨hg, he⟩ := Option.ite_none_right_eq_some.mp h
    cases he
    obtain ⟨h1, -, -, h4⟩ := onReply_objs env a data
    exact .inr (.inl ⟨hg, onReply_phase env a data, by rw [h4], h1⟩)
  | unanswered =>
    obtain ⟨hg, he⟩ := Option.ite_none_right_eq_some.mp h
    cases he
    exact .inr (.inl ⟨hg, by simp, rfl, rfl⟩)
  | message data =>
    obtain ⟨-, he⟩ := Option.ite_none_right_eq_some.mp h
    simp only [Option.some.injEq] at he
    refine .inr (.inr (.inr ⟨by simp, ?_⟩))
    rw [← he]
    unfold onMessage
    split
    · exact ⟨rfl, rfl⟩
    · rename_i t body _
      obtain ⟨-, -, h3, h4, -, -⟩ := onControl_objs env a t body
      exact ⟨h4, by rw [h3]⟩
    · rename_i t id p _
      obtain ⟨h1, h2⟩ := onStream_frame env a t id p
      exact ⟨h1, by rw [h2]⟩
  | disconnect =>
    obtain ⟨hu, he⟩ := Option.ite_none_right_eq_some.mp h
    cases he
    exact .inr (.inr (.inl ⟨rfl, hu, rfl, rfl⟩))
  | deliver =>
    simp only [step] at h
    split at h
    · cases h
    · obtain ⟨-, he⟩ := Option.ite_none_right_eq_some.mp h
      cases he
      exact .inr (.inr (.inr ⟨by simp, rfl, List.length_modify ..⟩))
  | stream y e =>
    obtain ⟨s, hy, h⟩ := Option.bind_eq_some_iff.mp h
    obtain ⟨r, hr, rfl⟩ := Option.map_eq_some_iff.mp h
    exact .inr (.inr (.inr ⟨by simp, rfl, rfl⟩))
  | dialFailed y text =>
    obtain ⟨s, hy, h⟩ := Option.bind_eq_some_iff.mp h
    obtain ⟨hd, he⟩ := Option.ite_none_right_eq_some.mp h
    cases he
    obtain ⟨h1, h2, -⟩ := finishing_frame a y s (s.dialFailed text)
    exact .inr (.inr (.inr ⟨by simp, h1, by rw [h2]⟩))
  | gathered y =>
    obtain ⟨s, hy, h⟩ := Option.bind_eq_some_iff.mp h
    obtain ⟨hg, he⟩ := Option.ite_none_right_eq_some.mp h
    cases he
    obtain ⟨h1, h2, -⟩ := finishing_frame a y s (s.gathered, [])
    exact .inr (.inr (.inr ⟨by simp, h1, by rw [h2]⟩))

/-- Where the streams stand in the order of the sessions; while its session is up, a stream is finished only if it is
over. -/
structure Timed (maxStrDigits : Nat) (a : Agent) : Prop where
  begun : a.phase = .up ∨ a.phase = .greeting → 0 < a.sent.length
  sound : ∀ (x : Nat) (s : Stream), a.objs[x]? = some s → Sound maxStrDigits s ∧ (s.HeardReset → s.finished = true)
  past : ∀ (x : Nat) (s : Stream), a.objs[x]? = some s →
    s.session < a.sent.length ∧ (a.phase = .greeting → s.session + 1 < a.sent.length)
  finished : ∀ (x : Nat) (s : Stream), a.objs[x]? = some s → s.finished = true →
    s.Over ∨ a.phase ≠ .up ∨ s.session + 1 < a.sent.length

theorem timed_new (maxStrDigits : Nat) : Timed maxStrDigits new where
  begun h := by simp [new] at h
  sound x s hx := by cases hx
  past x s hx := by cases hx
  finished x s hx := by cases hx

theorem Timed.step (h : Timed env.maxStrDigits a) (hs : a.step env e = some a') : Timed env.maxStrDigits a' := by
  have hclock := step_clock hs
  have hnew : ∀ id spec window session, Sound env.maxStrDigits (Stream.new id spec window session) ∧
      ((Stream.new id spec window session).HeardReset → (Stream.new id spec window session).finished = true) :=
    fun id spec window session => ⟨⟨Stream.life_new .., Stream.credited_new .., Stream.spoken_new ..,
      Stream.taken_new ..⟩, fun hr => by
        obtain ⟨p, hp⟩ := hr
        cases hp⟩
  refine ⟨fun hup => ?_, fun x s' hx' => ?_, fun x s' hx' => ?_, fun x s' hx' hf' => ?_⟩
  · rcases hclock with ⟨-, -, hl, -⟩ | ⟨hg, -, hl, -⟩ | ⟨-, hu, -, hl⟩ | ⟨-, hp, hl⟩
    · omega
    · rw [hl]
      exact h.begun (.inr hg)
    · rw [hl]
      exact h.begun (.inl hu)
    · rw [hl]
      exact h.begun (hp ▸ hup)
  · have hc := step_objs hs x
    rw [hx'] at hc
    generalize ho : a.objs[x]? = o at hc
    cases hc with
    | made => exact hnew _ _ _ _
    | still => exact h.sound x _ ho
    | moved _ hm =>
      obtain ⟨h1, h2⟩ := h.sound x _ ho
      exact ⟨⟨h1.life.move hm, h1.credited.move hm, h1.spoken.move h1.life hm, h1.taken.move h1.life hm⟩,
        Stream.finished_of_heardReset h2 hm⟩
  · have hold : ∀ s, a.objs[x]? = some s →
        s.session < a'.sent.length ∧ (a'.phase = .greeting → s.session + 1 < a'.sent.length) := by
      intro s hx
      obtain ⟨h1, h2⟩ := h.past x s hx
      rcases hclock with ⟨-, -, hl, -⟩ | ⟨-, hp, hl, -⟩ | ⟨-, -, hp, hl⟩ | ⟨-, hp, hl⟩
      · omega
      · exact ⟨by omega, fun hg => absurd hg hp⟩
      · exact ⟨by omega, fun hg => by rw [hp] at hg; cases hg⟩
      · exact ⟨by omega, fun hg => hl ▸ h2 (hp ▸ hg)⟩
    have hc := step_objs hs x
    rw [hx'] at hc
    generalize ho : a.objs[x]? = o at hc
    cases hc with
    | made hup hspec =>
      have hb := h.begun (.inl hup)
      rcases hclock with ⟨hd, -⟩ | ⟨hg, -⟩ | ⟨he, -, hp, hl⟩ | ⟨-, hp, hl⟩
      · rw [hup] at hd
        cases hd
      · rw [hup] at hg
        cases hg
      · refine ⟨?_, fun hg => by rw [hp] at hg; cases hg⟩
        show a.sent.length - 1 < a'.sent.length
        omega
      · refine ⟨?_, fun hg => by rw [hp, hup] at hg; cases hg⟩
        show a.sent.length - 1 < a'.sent.length
        omega
    | still => exact hold _ ho
    | moved _ hm =>
      rw [(Stream.later_move (h.sound x _ ho).1.life hm).session]
      exact hold _ ho
  · rcases hclock with ⟨-, hp, -, -⟩ | ⟨hg, -, hl, ho⟩ | ⟨-, -, hp, -⟩ | ⟨hne, hp, hl⟩
    · exact .inr (.inl (by rw [hp]; simp))
    · rw [ho] at hx'
      exact .inr (.inr (hl ▸ (h.past x s' hx').2 hg))
    · exact .inr (.inl (by rw [hp]; simp))
    · rw [hp, hl]
      have hc := step_objs hs x
      rw [hx'] at hc
      generalize ho : a.objs[x]? = o at hc
      cases hc with
      | made => cases hf'
      | still => exact h.finished x _ ho hf'
      | @moved s _ mv hmv hm =>
        obtain ⟨h1, -⟩ := h.sound x s ho
        have hlater := Stream.later_move h1.life hm
        cases hf : s.finished with
        | true =>
          rw [hlater.session]
          exact (h.finished x s ho hf).imp (fun hov => hov.later hlater) id
        | false =>
          refine .inl (Stream.over_of_move h1.life h1.spoken h1.taken hm hf hf' ?_)
          rintro rfl
          cases e <;> simp [Event.Moves] at hmv hne

theorem timed {ok : Agent → Event → Prop} (h : Reach (ofFn (step env)) ok Starts a) : Timed env.maxStrDigits a :=
  h.invariant (fun a (ha : a = new) => ha ▸ timed_new _) fun _ _ _ _ ht _ hs => ht.step hs

/-! ## The table -/

/-- What the table has under an id is a stream of that id that is not finished. -/
def Listed (a : Agent) : Prop :=
  ∀ (id x : Nat), a.streams.lookup id = some x → ∃ s, a.objs[x]? = some s ∧ s.id = id ∧ s.finished = false

section
variable {r : Stream × List Message}

theorem Listed.put (h : Listed a) (hx : a.objs[x]? = some s) (hid : r.1.id = s.id) (hf : r.1.finished = s.finished) :
    Listed (a.put x r) := by
  intro id y hy
  obtain ⟨t, ht, hi, hn⟩ := h id y hy
  rw [getElem?_put hx]
  by_cases hyx : y = x
  · subst hyx
    obtain rfl : s = t := Option.some.inj (hx.symm.trans ht)
    rw [if_pos rfl]
    exact ⟨_, rfl, hid.trans hi, hf.trans hn⟩
  · rw [if_neg hyx]
    exact ⟨t, ht, hi, hn⟩

/-- A stream that finishes leaves the table, and no other does that has an id of its own. -/
theorem lookup_finishing (hx : a.objs[x]? = some s) (h : Listed a) {id y : Nat}
    (hy : (a.finishing x s r).streams.lookup id = some y) : y ≠ x ∧ a.streams.lookup id = some y := by
  rw [(finishing_frame a x s r).2.2.1] at hy
  cases hf : s.finished with
  | true =>
    rw [hf, if_pos rfl] at hy
    refine ⟨?_, hy⟩
    rintro rfl
    obtain ⟨t, ht, -, hn⟩ := h id y hy
    obtain rfl : s = t := Option.some.inj (hx.symm.trans ht)
    rw [hf] at hn
    cases hn
  | false =>
    rw [hf, if_neg (by simp), Dict.lookup_erase_ite] at hy
    split at hy
    · cases hy
    · rename_i hne
      refine ⟨?_, hy⟩
      rintro rfl
      obtain ⟨t, ht, hi, -⟩ := h id y hy
      obtain rfl : s = t := Option.some.inj (hx.symm.trans ht)
      exact hne hi.symm

theorem Listed.finishing (h : Listed a) (hx : a.objs[x]? = some s) : Listed (a.finishing x s r) := by
  intro id y hy
  obtain ⟨hyx, hy⟩ := lookup_finishing hx h hy
  rw [getElem?_finishing hx, if_neg hyx]
  exact h id y hy

end

theorem Listed.step (h : Listed a) (hs : a.step env e = some a') : Listed a' := by
  cases e with
  | connect =>
    obtain ⟨-, he⟩ := Option.ite_none_right_eq_some.mp hs
    cases he
    intro id x hx
    cases hx
  | reply data =>
    obtain ⟨-, he⟩ := Option.ite_none_right_eq_some.mp hs
    cases he
    obtain ⟨h1, h2, -⟩ := onReply_objs env a data
    intro id x hx
    rw [h1]
    rw [h2] at hx
    exact h id x hx
  | unanswered =>
    obtain ⟨-, he⟩ := Option.ite_none_right_eq_some.mp hs
    cases he
    exact h
  | message data =>
    obtain ⟨-, he⟩ := Option.ite_none_right_eq_some.mp hs
    simp only [Option.some.injEq, onMessage] at he
    cases hd : decode env.maxStrDigits data with
    | error err =>
      rw [hd] at he
      exact he ▸ h
    | ok f =>
      rw [hd] at he
      cases f with
      | control t body =>
        obtain ⟨h1, h2, -⟩ := onControl_objs env a t body
        subst he
        intro id x hx
        simp only at hx ⊢
        rw [h1]
        rw [h2] at hx
        exact h id x hx
      | stream t id p =>
        simp only at he
        by_cases ht : t = STREAM_OPEN
        · rw [onStream, if_pos ht] at he
          rcases onStreamOpen_cases env a id p with hr | ⟨tunnelId, spec, -, hr⟩
          · rw [hr] at he
            exact he ▸ h
          · rw [← he, hr]
            intro i y hy
            simp only [Dict.lookup_insert_ite] at hy
            split at hy
            · rename_i hi
              cases hy
              exact ⟨_, List.getElem?_concat_length, hi.symm, rfl⟩
            · obtain ⟨s, hsy, hrest⟩ := h i y hy
              exact ⟨s, (List.getElem?_append_left (List.getElem?_eq_some_iff.mp hsy).1).trans hsy, hrest⟩
        · rcases onStream_cases env a p ht with ⟨-, ms, -, hr⟩ | ⟨y, -, -, hr⟩ | ⟨y, s, -, hy, hr⟩
          · rw [← he, hr]
            exact h
          · rw [← he, hr]
            exact h
          · rw [← he, hr]
            split
            · exact h.finishing hy
            · rename_i htr
              obtain ⟨b, hf, -⟩ := Stream.onFrame_eq s p htr
              exact h.put hy (by rw [hf]) (by rw [hf])
  | disconnect =>
    obtain ⟨-, he⟩ := Option.ite_none_right_eq_some.mp hs
    cases he
    intro id x hx
    cases hx
  | deliver =>
    simp only [Agent.step] at hs
    split at hs
    · cases hs
    · obtain ⟨-, he⟩ := Option.ite_none_right_eq_some.mp hs
      cases he
      exact h
  | stream y e =>
    obtain ⟨s, hy, hs⟩ := Option.bind_eq_some_iff.mp hs
    obtain ⟨r, hr, rfl⟩ := Option.map_eq_some_iff.mp hs
    obtain ⟨hf, -, hid, -, -⟩ := (Stream.step_cases hr).same
    exact h.put hy hid hf
  | dialFailed y text =>
    obtain ⟨s, hy, hs⟩ := Option.bind_eq_some_iff.mp hs
    obtain ⟨-, he⟩ := Option.ite_none_right_eq_some.mp hs
    cases he
    exact h.finishing hy
  | gathered y =>
    obtain ⟨s, hy, hs⟩ := Option.bind_eq_some_iff.mp hs
    obtain ⟨-, he⟩ := Option.ite_none_right_eq_some.mp hs
    cases he
    exact h.finishing hy

theorem listed {ok : Agent → Event → Prop} (h : Reach (ofFn (step env)) ok Starts a) : Listed a :=
  h.invariant (fun a (ha : a = new) => by
    subst ha
    intro id x hx
    cases hx) fun _ _ _ _ ht _ hs => ht.step hs

/-- While its session is up: a stream that is finished is over, one that has heard a STREAM_RESET is finished and has
left the table, and one that has sent a STREAM_RESET is too, unless it is the read of the local service that failed:
then `_to_local` goes on. -/
theorem over_of_finished (h : Reachable (ofFn (step env)) Starts a) (hx : a.objs[x]? = some s)
    (hup : a.phase = .up) (hnow : s.session + 1 = a.sent.length) :
    (s.finished = true → s.Over) ∧
    (s.HeardReset → s.finished = true ∧ ∀ id, a.streams.lookup id ≠ some x) ∧
    (s.SaidReset → (s.finished = true ∧ ∀ id, a.streams.lookup id ≠ some x) ∨
      s.toServerAt = .returned ∧ s.reset "local_error" ∈ s.queued) := by
  have ht := timed h
  obtain ⟨hsound, hreset⟩ := ht.sound x s hx
  have out : s.finished = true → ∀ id, a.streams.lookup id ≠ some x := by
    intro hf id hl
    obtain ⟨t, ht, -, hn⟩ := listed h id x hl
    obtain rfl : s = t := Option.some.inj (hx.symm.trans ht)
    rw [hf] at hn
    cases hn
  refine ⟨fun hf => ?_, fun hr => ⟨hreset hr, out (hreset hr)⟩, fun hr => ?_⟩
  · rcases ht.finished x s hx hf with hov | hne | hlt
    · exact hov
    · exact absurd hup hne
    · omega
  · cases hf : s.finished with
    | true => exact .inl ⟨rfl, out hf⟩
    | false => exact .inr (Stream.returned_of_saidReset hsound.spoken hr hf)

/-! ## Calm runs -/

/-- The stream whose dial comes back. -/
def Event.dial? : Event → Option Nat
  | .stream x .dialed => some x
  | .stream _ .dialRaised => none
  | .stream _ .item => none
  | .stream _ .drained => none
  | .stream _ .drainFailed => none
  | .stream _ .begin => none
  | .stream _ .credited => none
  | .stream _ (.read _) => none
  | .stream _ .readEnd => none
  | .stream _ .readFailed => none
  | .dialFailed x _ => some x
  | .connect => none
  | .reply _ => none
  | .unanswered => none
  | .message _ => none
  | .disconnect => none
  | .deliver => none
  | .gathered _ => none

/-- A stream makes a step of its own in its own event. -/
theorem Event.Moves.eq_stream {ev : Stream.Event} (h : e.Moves x (.step ev)) : e = .stream x ev := by
  cases e with
  | stream y e =>
    obtain ⟨rfl, he⟩ := h
    cases he
    rfl
  | message data =>
    obtain ⟨t, p, he⟩ := h
    cases he
  | disconnect => cases h
  | dialFailed y text => cases h.2
  | gathered y => cases h.2
  | connect | reply | unanswered | deliver => exact absurd h id

theorem Event.Moves.dial {mv : Stream.Move} (h : e.Moves x mv)
    (hd : mv = .step .dialed ∨ ∃ message, mv = .dialFailed message) : e.dial? = some x := by
  rcases hd with rfl | ⟨message, rfl⟩
  · rw [h.eq_stream]
    rfl
  · cases e with
    | dialFailed y text =>
      obtain ⟨rfl, -⟩ := h
      rfl
    | stream y e => cases h.2
    | message data =>
      obtain ⟨t, p, he⟩ := h
      cases he
    | disconnect => cases h
    | gathered y => cases h.2
    | connect | reply | unanswered | deliver => exact absurd h id

/-- A dead stream stays dead and sends nothing, unless its dial comes back. -/
theorem dead_step (hlife : s.Life) (hx : a.objs[x]? = some s) (hf : s.finished = true) (hdead : s.Dead)
    (hok : ∀ y ∈ e.dial?, ∀ t ∈ a.objs[y]?, t.finished = false) (hs : a.step env e = some a') :
    ∃ s', a'.objs[x]? = some s' ∧ s'.finished = true ∧ s'.Dead ∧ s'.queued = s.queued := by
  have hc := step_objs hs x
  rw [hx] at hc
  generalize ho : a'.objs[x]? = o at hc
  cases hc with
  | still => exact ⟨s, rfl, hf, hdead, rfl⟩
  | @moved _ s' mv hmv hm =>
    have hno : ¬ (mv = .step .dialed ∨ ∃ message, mv = .dialFailed message) := fun hd =>
      absurd (hf.symm.trans (hok x (hmv.dial hd) s hx)) (by simp)
    have hd : mv ≠ .step .dialed := fun he => hno (.inl he)
    have hdf : ∀ message, mv ≠ .dialFailed message := fun m he => hno (.inr ⟨m, he⟩)
    have hf' := (Stream.later_move hlife hm).finished hf
    exact ⟨s', rfl, hf', .of_move (fun _ => hdead) hm (fun _ => hd) hf', hdead.move hm hd hdf⟩

/-- The id that a STREAM_OPEN brings. -/
def openedBy (maxStrDigits : Nat) (data : Bytes) : Option Nat :=
  match decode maxStrDigits data with
  | .ok (.stream t id _) => if t = STREAM_OPEN then some id else none
  | .ok (.control _ _) => none
  | .error _ => none

def Event.opens? (maxStrDigits : Nat) : Event → Option Nat
  | .message data => openedBy maxStrDigits data
  | .connect => none
  | .reply _ => none
  | .unanswered => none
  | .disconnect => none
  | .deliver => none
  | .stream _ _ => none
  | .dialFailed _ _ => none
  | .gathered _ => none

/-- No dial of a finished stream comes back, and no STREAM_OPEN brings an id that is in use. -/
def Calm (env : Env) (a : Agent) (e : Event) : Prop :=
  (∀ x ∈ e.dial?, ∀ s ∈ a.objs[x]?, s.finished = false) ∧
    ∀ id ∈ e.opens? env.maxStrDigits, a.streams.lookup id = none

instance (env : Env) (a : Agent) (e : Event) : Decidable (Calm env a e) := inferInstanceAs (Decidable (_ ∧ _))

/-- The streams that are not finished are in the table, and of the session that is up. -/
def Tabled (a : Agent) : Prop :=
  ∀ (x : Nat) (s : Stream), a.objs[x]? = some s → s.finished = false →
    a.phase = .up ∧ a.streams.lookup s.id = some x ∧ s.session + 1 = a.sent.length

/-- A stream's frames are those of the session that it was made in. -/
structure InSession (a : Agent) : Prop where
  out : ∀ p ∈ a.out, ∀ x, p.1 = some x → ∃ s, a.objs[x]? = some s ∧ s.session + 1 = a.sent.length
  sent : ∀ (k : Nat) log, a.sent[k]? = some log → ∀ p ∈ log, ∀ x, p.1 = some x →
    ∃ s, a.objs[x]? = some s ∧ s.session = k

/-- The streams that are not finished are those of the table, and of this session; the others are dead. -/
structure Settled (a : Agent) : Prop extends InSession a where
  live : Tabled a
  dead : ∀ (x : Nat) (s : Stream), a.objs[x]? = some s → s.finished = true → s.Dead

theorem tabled_new : Tabled new := by
  intro x s hx
  cases hx

theorem inSession_new : InSession new where
  out p hp := by cases hp
  sent k log hk := by cases hk

section
variable {r : Stream × List Message}

theorem Tabled.put (h : Tabled a) (hx : a.objs[x]? = some s) (hid : r.1.id = s.id)
    (hses : r.1.session = s.session) (hf : r.1.finished = s.finished) : Tabled (a.put x r) := by
  intro y t ht hn
  rw [getElem?_put hx] at ht
  split at ht
  · rename_i hyx
    cases ht
    subst hyx
    obtain ⟨h1, h2, h3⟩ := h _ s hx (hf.symm.trans hn)
    refine ⟨h1, ?_, ?_⟩
    · show a.streams.lookup r.1.id = some _
      rw [hid]
      exact h2
    · show r.1.session + 1 = a.sent.length
      rw [hses]
      exact h3
  · exact h y t ht hn

theorem Tabled.finishing (h : Tabled a) (hx : a.objs[x]? = some s) (hf : r.1.finished = true) :
    Tabled (a.finishing x s r) := by
  intro y t ht hn
  obtain ⟨h1, h2, h3, -⟩ := finishing_frame a x s r
  rw [h1, h2, h3]
  rw [getElem?_finishing hx] at ht
  split at ht
  · cases ht
    exact absurd (hn.symm.trans hf) (by simp)
  · rename_i hyx
    obtain ⟨hp, hl, hk⟩ := h y t ht hn
    refine ⟨hp, ?_, hk⟩
    cases hfin : s.finished with
    | true => exact hl
    | false =>
      rw [if_neg (by simp), Dict.lookup_erase_ite, if_neg]
      · exact hl
      · intro hid
        rw [hid, (h x s hx hfin).2.1] at hl
        exact hyx (Option.some.inj hl).symm

/-- The stream at `x` stays in its session. -/
theorem exists_session_put (hx : a.objs[x]? = some s) (hses : r.1.session = s.session) {y n : Nat}
    (h : ∃ t, a.objs[y]? = some t ∧ t.session = n) :
    ∃ t, (if y = x then some (Stream.say r) else a.objs[y]?) = some t ∧ t.session = n := by
  obtain ⟨t, ht, hn⟩ := h
  by_cases hyx : y = x
  · subst hyx
    obtain rfl : s = t := Option.some.inj (hx.symm.trans ht)
    exact ⟨_, if_pos rfl, hses.trans hn⟩
  · exact ⟨t, (if_neg hyx).trans ht, hn⟩

/-- What a stream of this session says is of this session. -/
theorem InSession.say (h : InSession a) (hx : a.objs[x]? = some s) (hses : r.1.session = s.session)
    (hnow : r.2 ≠ [] → s.session + 1 = a.sent.length) {p : Option Nat × Message} {y : Nat}
    (hp : p ∈ a.out ++ r.2.map (some x, ·)) (hy : p.1 = some y) :
    ∃ t, (if y = x then some (Stream.say r) else a.objs[y]?) = some t ∧ t.session + 1 = a.sent.length := by
  have lift : (∃ t, a.objs[y]? = some t ∧ t.session + 1 = a.sent.length) →
      ∃ t, (if y = x then some (Stream.say r) else a.objs[y]?) = some t ∧ t.session + 1 = a.sent.length := by
    rintro ⟨t, ht, hn⟩
    obtain ⟨t', ht', hn'⟩ := exists_session_put hx hses ⟨t, ht, rfl⟩
    exact ⟨t', ht', by rw [hn', hn]⟩
  rcases List.mem_append.mp hp with hp | hp
  · exact lift (h.out p hp y hy)
  · obtain ⟨m, hm, rfl⟩ := List.mem_map.mp hp
    obtain rfl : x = y := Option.some.inj hy
    exact lift ⟨s, hx, hnow (List.ne_nil_of_mem hm)⟩

theorem InSession.put (h : InSession a) (hx : a.objs[x]? = some s) (hses : r.1.session = s.session)
    (hnow : r.2 ≠ [] → s.session + 1 = a.sent.length) : InSession (a.put x r) where
  out p hp y hy := by
    rw [getElem?_put hx]
    exact h.say hx hses hnow hp hy
  sent k log hk p hp y hy := by
    rw [getElem?_put hx]
    exact exists_session_put hx hses (h.sent k log hk p hp y hy)

theorem InSession.finishing (h : InSession a) (hx : a.objs[x]? = some s) (hses : r.1.session = s.session)
    (hnow : r.2 ≠ [] → s.session + 1 = a.sent.length) : InSession (a.finishing x s r) where
  out p hp y hy := by
    obtain ⟨-, h2, -, h4⟩ := finishing_frame a x s r
    rw [h4] at hp
    rw [h2, getElem?_finishing hx]
    exact h.say hx hses hnow hp hy
  sent k log hk p hp y hy := by
    rw [(finishing_frame a x s r).2.1] at hk
    rw [getElem?_finishing hx]
    exact exists_session_put hx hses (h.sent k log hk p hp y hy)

end

/-- A new stream is behind the others. -/
theorem getElem?_concat_stream {objs : List Stream} {new t : Stream} {y : Nat} (h : (objs ++ [new])[y]? = some t) :
    objs[y]? = some t ∨ y = objs.length ∧ t = new := by
  rcases Nat.lt_trichotomy y objs.length with hlt | rfl | hgt
  · exact .inl ((List.getElem?_append_left hlt).symm.trans h)
  · rw [List.getElem?_concat_length] at h
    exact .inr ⟨rfl, (Option.some.inj h).symm⟩
  · rw [List.getElem?_eq_none (by rw [List.length_append, List.length_singleton]; omega)] at h
    cases h

theorem Tabled.onStream (h : Tabled a) (ht : Timed env.maxStrDigits a) (hup : a.phase = .up) {t id : Nat} (p : Bytes)
    (hfree : t = STREAM_OPEN → a.streams.lookup id = none) : Tabled (a.onStream env t id p) := by
  by_cases ho : t = STREAM_OPEN
  · rw [Agent.onStream, if_pos ho]
    have hpos := ht.begun (.inl hup)
    rcases onStreamOpen_cases env a id p with hr | ⟨tunnelId, spec, -, hr⟩
    · rw [hr]
      exact h
    · rw [hr]
      intro y t hy hn
      rcases getElem?_concat_stream hy with hy | ⟨rfl, rfl⟩
      · obtain ⟨h1, h2, h3⟩ := h y t hy hn
        refine ⟨h1, ?_, h3⟩
        rw [Dict.lookup_insert_ite, if_neg]
        · exact h2
        · intro he
          rw [he, hfree ho] at h2
          cases h2
      · refine ⟨hup, ?_, ?_⟩
        · rw [Dict.lookup_insert_ite]
          exact if_pos rfl
        · show a.sent.length - 1 + 1 = a.sent.length
          omega
  · rcases onStream_cases env a p ho with ⟨-, ms, -, hr⟩ | ⟨y, -, -, hr⟩ | ⟨y, s, hy, hs, hr⟩
    · rw [hr]
      exact h
    · rw [hr]
      exact h
    · rw [hr]
      split
      · rename_i htr
        subst htr
        exact h.finishing hs (Stream.finish_finished _)
      · rename_i htr
        obtain ⟨b, he, -⟩ := Stream.onFrame_eq s p htr
        exact h.put hs (by rw [he]) (by rw [he]) (by rw [he])

theorem Tabled.step (h : Tabled a) (ht : Timed env.maxStrDigits a)
    (hok : ∀ id ∈ e.opens? env.maxStrDigits, a.streams.lookup id = none) (hs : a.step env e = some a') :
    Tabled a' := by
  -- No stream is unfinished while there is no session.
  have off : a.phase ≠ .up → ∀ (x : Nat) (s : Stream), a.objs[x]? = some s → s.finished ≠ false :=
    fun hne x s hx hn => hne (h x s hx hn).1
  cases e with
  | connect =>
    obtain ⟨hd, he⟩ := Option.ite_none_right_eq_some.mp hs
    cases he
    exact fun x s hx hn => absurd hn (off (by rw [hd]; simp) x s hx)
  | reply data =>
    obtain ⟨hg, he⟩ := Option.ite_none_right_eq_some.mp hs
    cases he
    obtain ⟨h1, -⟩ := onReply_objs env a data
    exact fun x s hx hn => absurd hn (off (by rw [hg]; simp) x s (h1 ▸ hx))
  | unanswered =>
    obtain ⟨hg, he⟩ := Option.ite_none_right_eq_some.mp hs
    cases he
    exact fun x s hx hn => absurd hn (off (by rw [hg]; simp) x s hx)
  | message data =>
    obtain ⟨hup, he⟩ := Option.ite_none_right_eq_some.mp hs
    simp only [Option.some.injEq, onMessage] at he
    simp only [Event.opens?, openedBy] at hok
    cases hd : decode env.maxStrDigits data with
    | error err =>
      rw [hd] at he
      exact he ▸ h
    | ok f =>
      rw [hd] at he hok
      cases f with
      | control t body =>
        obtain ⟨h1, h2, h3, h4, -⟩ := onControl_objs env a t body
        simp only at he
        subst he
        unfold Tabled
        rw [h1, h2, h3, h4]
        exact h
      | stream t id p =>
        simp only at he hok
        rw [← he]
        refine h.onStream ht hup p fun ho => ?_
        rw [if_pos ho] at hok
        exact hok id rfl
  | disconnect =>
    obtain ⟨-, he⟩ := Option.ite_none_right_eq_some.mp hs
    cases he
    intro y t hy hn
    rw [getElem?_disconnect] at hy
    split at hy
    · obtain ⟨s, -, rfl⟩ := Option.map_eq_some_iff.mp hy
      exact absurd (hn.symm.trans (Stream.finish_finished s)) (by simp)
    · rename_i hv
      exact absurd (Dict.mem_values.mpr ⟨_, (h y t hy hn).2.1⟩) hv
  | deliver =>
    simp only [Agent.step] at hs
    split at hs
    · cases hs
    · obtain ⟨-, he⟩ := Option.ite_none_right_eq_some.mp hs
      cases he
      unfold Tabled
      rw [List.length_modify]
      exact h
  | stream y e =>
    obtain ⟨s, hy, hs⟩ := Option.bind_eq_some_iff.mp hs
    obtain ⟨r, hr, rfl⟩ := Option.map_eq_some_iff.mp hs
    obtain ⟨hf, -, hid, hses, -⟩ := (Stream.step_cases hr).same
    exact h.put hy hid hses hf
  | dialFailed y text =>
    obtain ⟨s, hy, hs⟩ := Option.bind_eq_some_iff.mp hs
    obtain ⟨-, he⟩ := Option.ite_none_right_eq_some.mp hs
    cases he
    exact h.finishing hy (Stream.finish_finished _)
  | gathered y =>
    obtain ⟨s, hy, hs⟩ := Option.bind_eq_some_iff.mp hs
    obtain ⟨-, he⟩ := Option.ite_none_right_eq_some.mp hs
    cases he
    exact h.finishing hy (Stream.finish_finished _)

theorem tabled {ok : Agent → Event → Prop}
    (hfree : ∀ a e, ok a e → ∀ id ∈ e.opens? env.maxStrDigits, a.streams.lookup id = none)
    (h : Reach (ofFn (step env)) ok Starts a) : Tabled a :=
  h.invariant (fun a (ha : a = new) => ha ▸ tabled_new) fun _ _ _ hr hT hok hs =>
    hT.step (timed hr) (hfree _ _ hok) hs

/-- Where no connection comes to a stream that has finished, it is dead. -/
theorem dead_of_finished {ok : Agent → Event → Prop}
    (hlate : ∀ a e, ok a e → ∀ (x : Nat) (s : Stream), e = .stream x .dialed → a.objs[x]? = some s → s.finished = false)
    (h : Reach (ofFn (step env)) ok Starts a) :
    ∀ (x : Nat) (s : Stream), a.objs[x]? = some s → s.finished = true → s.Dead := by
  refine h.invariant (I := fun a => ∀ (x : Nat) (s : Stream), a.objs[x]? = some s → s.finished = true → s.Dead) ?_ ?_
  · rintro _ rfl x s hx
    cases hx
  · intro a e a' _ ih hok hs x s' hx' hf'
    have hc := step_objs hs x
    rw [hx'] at hc
    generalize ho : a.objs[x]? = o at hc
    cases hc with
    | made => cases hf'
    | still => exact ih x _ ho hf'
    | @moved s _ mv hmv hm =>
      refine .of_move (ih x s ho) hm (fun hf he => ?_) hf'
      exact absurd (hf.symm.trans (hlate a e hok x s (he ▸ hmv).eq_stream ho)) (by simp)

/-- Only the agent itself has sent something. -/
theorem InSession.send (h : InSession a) (ms : List (Option Nat × Message)) (hms : ∀ p ∈ ms, p.1 = none) :
    InSession { a with out := a.out ++ ms } where
  out p hp x hx := by
    rcases List.mem_append.mp hp with hp | hp
    · exact h.out p hp x hx
    · rw [hms p hp] at hx
      cases hx
  sent := h.sent

/-- The requests of `register`. -/
def openings (i : Nat) : List TunnelSpec → List (Option Nat × Message)
  | [] => []
  | spec :: specs => (none, .control OPEN_TUNNEL (openBody (toString i) spec)) :: openings (i + 1) specs

theorem register_out (specs : List TunnelSpec) : ∀ (a : Agent) (i : Nat),
    (a.register i specs).out = a.out ++ openings i specs := by
  induction specs with
  | nil => exact fun a i => (List.append_nil _).symm
  | cons spec specs ih =>
    intro a i
    rw [register, ih]
    simp [send, openings]

theorem onReply_out (env : Env) (a : Agent) (data : Bytes) : (a.onReply env data).out =
    a.out ++ if (a.onReply env data).phase = .up then openings 0 env.tunnels else [] := by
  unfold onReply
  split
  · simp
  · simp
  · split
    · simp only
      split <;> simp
    · split
      · simp
      · split
        · simp
        · rw [register_out, (register_objs env.tunnels _ 0).2.2.2.1]
          simp

theorem openings_source (specs : List TunnelSpec) : ∀ (i : Nat), ∀ p ∈ openings i specs, p.1 = none := by
  induction specs with
  | nil => exact fun i p hp => by cases hp
  | cons spec specs ih =>
    intro i p hp
    rcases List.mem_cons.mp hp with rfl | hp
    · rfl
    · exact ih _ p hp

theorem InSession.onStream (h : InSession a) (hT : Tabled a) (hl : Listed a) {t id : Nat} (p : Bytes) :
    InSession (a.onStream env t id p) := by
  by_cases ho : t = STREAM_OPEN
  · rw [Agent.onStream, if_pos ho]
    rcases onStreamOpen_cases env a id p with hr | ⟨tunnelId, spec, -, hr⟩
    · rw [hr]
      exact h.send [_] (by simp)
    · rw [hr]
      have old : ∀ {y : Nat} {t : Stream}, a.objs[y]? = some t →
          (a.objs ++ [Stream.new id spec a.window (a.sent.length - 1)])[y]? = some t := fun hy =>
        (List.getElem?_append_left (List.getElem?_eq_some_iff.mp hy).1).trans hy
      refine ⟨fun q hq y hy => ?_, fun k log hk q hq y hy => ?_⟩
      · obtain ⟨t, ht, hn⟩ := h.out q hq y hy
        exact ⟨t, old ht, hn⟩
      · obtain ⟨t, ht, hn⟩ := h.sent k log hk q hq y hy
        exact ⟨t, old ht, hn⟩
  · rcases onStream_cases env a p ho with ⟨-, ms, hms, hr⟩ | ⟨y, -, -, hr⟩ | ⟨y, s, hy, hs, hr⟩
    · rw [hr]
      refine h.send ms fun m hm => ?_
      obtain ⟨code, rfl⟩ := hms m hm
      rfl
    · rw [hr]
      exact h
    · obtain ⟨s', hs', -, hf⟩ := hl id y hy
      obtain rfl : s = s' := Option.some.inj (hs.symm.trans hs')
      have hnow := (hT y s hs hf).2.2
      rw [hr]
      split
      · rename_i htr
        subst htr
        exact h.finishing hs (Stream.later_onFrame s STREAM_RESET p).1.session fun _ => hnow
      · rename_i htr
        obtain ⟨b, he, -⟩ := Stream.onFrame_eq s p htr
        exact h.put hs (by rw [he]) fun _ => hnow

theorem InSession.step (h : InSession a) (hT : Tabled a)
    (hdead : ∀ (x : Nat) (s : Stream), a.objs[x]? = some s → s.finished = true → s.Dead) (hl : Listed a)
    (hok : Calm env a e) (hs : a.step env e = some a') : InSession a' := by
  cases e with
  | connect =>
    obtain ⟨-, he⟩ := Option.ite_none_right_eq_some.mp hs
    cases he
    refine ⟨(fun p hp => by cases hp), fun k log hk p hp x hx => ?_⟩
    rcases Nat.lt_or_ge k a.sent.length with hlt | hge
    · exact h.sent k log ((List.getElem?_append_left hlt).symm.trans hk) p hp x hx
    · have hk : (a.sent ++ [[(none, env.hello)]])[k]? = some log := hk
      rw [List.getElem?_append_right hge, List.getElem?_singleton] at hk
      split at hk
      · cases hk
        rw [List.mem_singleton.mp hp] at hx
        cases hx
      · cases hk
  | reply data =>
    obtain ⟨-, he⟩ := Option.ite_none_right_eq_some.mp hs
    cases he
    obtain ⟨h1, -, -, h4⟩ := onReply_objs env a data
    refine ⟨fun p hp x hx => ?_, fun k log hk => ?_⟩
    · rw [h1, h4]
      rw [onReply_out] at hp
      rcases List.mem_append.mp hp with hp | hp
      · exact h.out p hp x hx
      · split at hp
        · rw [openings_source _ 0 p hp] at hx
          cases hx
        · cases hp
    · rw [h1]
      exact h.sent k log (h4 ▸ hk)
  | unanswered =>
    obtain ⟨-, he⟩ := Option.ite_none_right_eq_some.mp hs
    cases he
    exact ⟨h.out, h.sent⟩
  | message data =>
    obtain ⟨-, he⟩ := Option.ite_none_right_eq_some.mp hs
    simp only [Option.some.injEq, onMessage] at he
    cases hd : decode env.maxStrDigits data with
    | error err =>
      rw [hd] at he
      exact he ▸ h
    | ok f =>
      rw [hd] at he
      cases f with
      | control t body =>
        obtain ⟨h1, -, h3, -, h5, -⟩ := onControl_objs env a t body
        simp only at he
        subst he
        refine ⟨?_, ?_⟩
        · rw [h1, h3, h5]
          exact h.out
        · rw [h1, h3]
          exact h.sent
      | stream t id p =>
        simp only at he
        rw [← he]
        exact h.onStream hT hl p
  | disconnect =>
    obtain ⟨-, he⟩ := Option.ite_none_right_eq_some.mp hs
    cases he
    have kept : ∀ {y n : Nat}, (∃ t, a.objs[y]? = some t ∧ t.session = n) →
        ∃ t, a.disconnect.objs[y]? = some t ∧ t.session = n := by
      rintro y n ⟨t, hy, hn⟩
      rw [getElem?_disconnect, hy]
      split
      · exact ⟨t.finish, rfl, (Stream.later_finish t).session.trans hn⟩
      · exact ⟨t, rfl, hn⟩
    refine ⟨fun p hp y hy => ?_, fun k log hk p hp y hy => kept (h.sent k log hk p hp y hy)⟩
    obtain ⟨t, htx, hn⟩ := h.out p hp y hy
    obtain ⟨t', ht', hn'⟩ := kept ⟨t, htx, rfl⟩
    exact ⟨t', ht', by rw [hn']; exact hn⟩
  | deliver =>
    simp only [Agent.step] at hs
    split at hs
    · cases hs
    · rename_i q out hout
      obtain ⟨hup, he⟩ := Option.ite_none_right_eq_some.mp hs
      cases he
      have hlen : (a.sent.modify (a.sent.length - 1) (· ++ [q])).length = a.sent.length := List.length_modify ..
      refine ⟨?_, ?_⟩
      · rw [hlen]
        exact fun p hp => h.out p (hout ▸ List.mem_cons_of_mem q hp)
      · intro k log hk p hp x hx
        have hk : (a.sent.modify (a.sent.length - 1) (· ++ [q]))[k]? = some log := hk
        rw [List.getElem?_modify] at hk
        obtain ⟨log0, hlog, rfl⟩ := Option.map_eq_some_iff.mp hk
        split at hp
        · rename_i hlast
          rcases List.mem_append.mp hp with hp | hp
          · exact h.sent k log0 hlog p hp x hx
          · obtain rfl := List.mem_singleton.mp hp
            obtain ⟨t, htx, hn⟩ := h.out p (hout ▸ List.mem_cons_self) x hx
            exact ⟨t, htx, by omega⟩
        · exact h.sent k log0 hlog p hp x hx
  | stream y e =>
    obtain ⟨s, hy, hs⟩ := Option.bind_eq_some_iff.mp hs
    obtain ⟨r, hr, rfl⟩ := Option.map_eq_some_iff.mp hs
    have hst := Stream.step_cases hr
    refine h.put hy hst.same.2.2.2.1 fun hsaid => (hT y s hy ?_).2.2
    -- A dead stream says nothing.
    refine Bool.eq_false_iff.mpr fun hfin => hsaid ((hdead y s hy hfin).step hst ?_).2
    rintro rfl
    exact absurd (hfin.symm.trans (hok.1 y rfl s hy)) (by simp)
  | dialFailed y text =>
    obtain ⟨s, hy, hs⟩ := Option.bind_eq_some_iff.mp hs
    obtain ⟨-, he⟩ := Option.ite_none_right_eq_some.mp hs
    cases he
    exact h.finishing hy (Stream.later_gathered s).session fun _ => (hT y s hy (hok.1 y rfl s hy)).2.2
  | gathered y =>
    obtain ⟨s, hy, hs⟩ := Option.bind_eq_some_iff.mp hs
    obtain ⟨-, he⟩ := Option.ite_none_right_eq_some.mp hs
    cases he
    exact h.finishing hy (Stream.later_gathered s).session fun hne => absurd rfl hne

theorem Calm.onTime (h : Calm env a e) {x : Nat} {s : Stream} (he : e = .stream x .dialed) (hx : a.objs[x]? = some s) :
    s.finished = false := by
  subst he
  exact h.1 x rfl s hx

theorem settled (h : Reach (ofFn (step env)) (Calm env) Starts a) : Settled a := by
  have hT : ∀ {b}, Reach (ofFn (step env)) (Calm env) Starts b → Tabled b := tabled fun _ _ hok => hok.2
  have hD : ∀ {b}, Reach (ofFn (step env)) (Calm env) Starts b →
      ∀ (x : Nat) (s : Stream), b.objs[x]? = some s → s.finished = true → s.Dead :=
    dead_of_finished fun _ _ hok _ _ he hx => hok.onTime he hx
  have hI : InSession a := h.invariant (fun b (hb : b = new) => hb ▸ inSession_new) fun _ _ _ hr hI hok hs =>
    hI.step (hT hr) (hD hr) (listed hr) hok hs
  exact ⟨hI, hT h, hD h⟩

/-- In a calm run a stream that has finished is dead: its connection is not open, and it sends nothing any more; so a
frame goes out in the session that its stream was made in. -/
theorem finished_dead (h : Reach (ofFn (step env)) (Calm env) Starts a) :
    (∀ (x : Nat) (s : Stream), a.objs[x]? = some s → s.finished = true → s.writer ≠ .open ∧
      ∀ e a', Calm env a e → a.step env e = some a' →
        ∃ s', a'.objs[x]? = some s' ∧ s'.finished = true ∧ s'.queued = s.queued) ∧
    ∀ (k : Nat) log, a.sent[k]? = some log → ∀ p ∈ log, ∀ x, p.1 = some x →
      ∃ s, a.objs[x]? = some s ∧ s.session = k := by
  have hS := settled h
  refine ⟨fun x s hx hf => ⟨(hS.dead x s hx hf).1, fun e a' hok hs => ?_⟩, hS.sent⟩
  obtain ⟨s', hx', hf', -, hq⟩ := dead_step ((timed h).sound x s hx).1.life hx hf (hS.dead x s hx hf) hok.1 hs
  exact ⟨s', hx', hf', hq⟩

/-- In a calm run the table holds just the streams that are not finished, under their ids; they are of the session
that is up. -/
theorem table_exact (h : Reach (ofFn (step env)) (Calm env) Starts a) :
    (∀ (id x : Nat), a.streams.lookup id = some x ↔ ∃ s, a.objs[x]? = some s ∧ s.id = id ∧ s.finished = false) ∧
    ∀ (x : Nat) (s : Stream), a.objs[x]? = some s → s.finished = false →
      a.phase = .up ∧ s.session + 1 = a.sent.length := by
  have hS := settled h
  refine ⟨fun id x => ⟨listed h id x, ?_⟩, fun x s hx hf => ?_⟩
  · rintro ⟨s, hx, rfl, hf⟩
    exact (hS.live x s hx hf).2.1
  · exact ⟨(hS.live x s hx hf).1, (hS.live x s hx hf).2.2⟩

/-! ## Runs -/

/-- The stream of `sshRun` is reset by the server, and the agent begins a session anew. -/
def resetRun : List Event :=
  sshRun ++ [.deliver, .deliver, .deliver, .message (0x24 :: u32be 1)]

def nextRun : List Event := resetRun ++ [.disconnect, .connect, .reply [2], .deliver]

theorem exec_resetRun : ∃ a s, Reachable (ofFn (step sshEnv)) Starts a ∧ a.objs[0]? = some s ∧ a.phase = .up ∧
    s.session + 1 = a.sent.length ∧ s.finished = true := by
  have hrun : (exec (step sshEnv) new resetRun).any (fun a => a.objs[0]?.any fun s =>
      decide (a.phase = .up ∧ s.session + 1 = a.sent.length ∧ s.finished = true)) = true := by decide +kernel
  obtain ⟨a, ha, hs⟩ := (Option.any_eq_true _ _).mp hrun
  obtain ⟨s, hs, hp⟩ := (Option.any_eq_true _ _).mp hs
  exact ⟨a, s, Reachable.exec (.start rfl) ha, hs, of_decide_eq_true hp⟩

theorem exec_nextRun : ∃ a, Reach (ofFn (step sshEnv)) (Calm sshEnv) Starts a ∧ a.sent.map List.length = [4, 2] := by
  have hrun : (execOk (step sshEnv) (Calm sshEnv) new nextRun).any (fun a =>
      decide (a.sent.map List.length = [4, 2])) = true := by decide +kernel
  obtain ⟨a, ha, hs⟩ := (Option.any_eq_true _ _).mp hrun
  exact ⟨a, Reach.execOk (.start rfl) ha, of_decide_eq_true hs⟩

theorem over_of_finished_ssh : ∃ (a : Agent) (s : Stream), s.finished = true ∧
    (s.finished = true → s.Over) ∧
    (s.HeardReset → s.finished = true ∧ ∀ id, a.streams.lookup id ≠ some 0) ∧
    (s.SaidReset → (s.finished = true ∧ ∀ id, a.streams.lookup id ≠ some 0) ∨
      s.toServerAt = .returned ∧ s.reset "local_error" ∈ s.queued) := by
  obtain ⟨a, s, h, hx, hup, hnow, hf⟩ := exec_resetRun
  exact ⟨a, s, hf, over_of_finished h hx hup hnow⟩

theorem finished_dead_ssh : ∃ a : Agent, a.sent.map List.length = [4, 2] ∧
    (∀ (x : Nat) (s : Stream), a.objs[x]? = some s → s.finished = true → s.writer ≠ .open ∧
      ∀ e a', Calm sshEnv a e → a.step sshEnv e = some a' →
        ∃ s', a'.objs[x]? = some s' ∧ s'.finished = true ∧ s'.queued = s.queued) ∧
    ∀ (k : Nat) log, a.sent[k]? = some log → ∀ p ∈ log, ∀ x, p.1 = some x →
      ∃ s, a.objs[x]? = some s ∧ s.session = k := by
  obtain ⟨a, h, hl⟩ := exec_nextRun
  exact ⟨a, hl, finished_dead h⟩

theorem table_exact_ssh : ∃ a : Agent, a.sent.map List.length = [4, 2] ∧
    (∀ (id x : Nat), a.streams.lookup id = some x ↔ ∃ s, a.objs[x]? = some s ∧ s.id = id ∧ s.finished = false) ∧
    ∀ (x : Nat) (s : Stream), a.objs[x]? = some s → s.finished = false →
      a.phase = .up ∧ s.session + 1 = a.sent.length := by
  obtain ⟨a, h, hl⟩ := exec_nextRun
  exact ⟨a, hl, table_exact h⟩

end Agent

end UpTunnel.Python
