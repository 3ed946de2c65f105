import Mathlib.Data.List.ReduceOption
import UpTunnel.Lib.Reach
import UpTunnel.Python.Pumps
import UpTunnel.SameRewrite

/-!
# UpTunnel.Python.Runs

Runs of the Python agent: every step is at most one move of each stream.

* `step_objs`: what a step does to the streams.
* `Sound`: what holds of every stream in every run.
* `read_within_credit`, `says_in_order`, `local_in_order`: what a stream reads, sends and writes, in every order of
  the steps.
-/

namespace UpTunnel.Python

open Js Lts

/-! ## The loop of `_to_local` without its awaits -/

namespace ToLocal

variable {maxStrDigits : Nat}

theorem turn_none (s : ToLocal) :
    (s.turn maxStrDigits none true).running = false ∧ (s.turn maxStrDigits none true).acked = s.acked := by
  by_cases hr : s.running = true
  · by_cases hb : s.headBuf = []
    · simp [turn, hr, hb]
    · cases hw : rewriteHostHeader maxStrDigits s.headBuf s.spec.target with
      | error e => simp [turn, hr, hb, hw, raised]
      | ok out => simp [turn, hr, hb, hw]
  · simp [turn, hr]

theorem turn_some (s : ToLocal) (payload : Bytes) :
    (s.turn maxStrDigits (some payload) true).eofWritten = s.eofWritten ∧
      ((s.turn maxStrDigits (some payload) true).acked = s.acked ++ [payload.length] ∨
        (s.turn maxStrDigits (some payload) true).acked = s.acked ∧
          (s.turn maxStrDigits (some payload) true).running = false) := by
  unfold turn
  split
  · rename_i h
    exact ⟨rfl, .inr ⟨rfl, by simpa using h⟩⟩
  · simp only
    cases he : (if s.headDone = true then Except.ok (s, payload) else s.bufferHead maxStrDigits payload) with
    | error e => exact ⟨rfl, .inr ⟨rfl, rfl⟩⟩
    | ok r =>
      have hr : r.1.acked = s.acked ∧ r.1.eofWritten = s.eofWritten := by
        split at he
        · cases he
          exact ⟨rfl, rfl⟩
        · obtain ⟨-, -, h1, -, -, h2⟩ := Stream.bufferHead_ok he
          exact ⟨h1, h2⟩
      by_cases ho : r.2 = [] <;> simp [ho, hr]

/-- Nothing behind the first EOF is taken. -/
theorem exists_inbox (items : List (Option Bytes)) : ∃ payloads eof rest, items = inbox eof payloads ++ rest ∧
    (eof = false → rest = []) ∧
    ∀ s : ToLocal, s.pump maxStrDigits items = s.pump maxStrDigits (inbox eof payloads) := by
  induction items with
  | nil => exact ⟨[], false, [], rfl, fun _ => rfl, fun s => rfl⟩
  | cons item items ih =>
    cases item with
    | none =>
      refine ⟨[], true, items, rfl, nofun, fun s => ?_⟩
      rw [pump_cons, pump_ended (turn_none s).1]
      rfl
    | some payload =>
      obtain ⟨payloads, eof, rest, hi, he, h⟩ := ih
      exact ⟨payload :: payloads, eof, rest, by rw [hi, inbox_cons]; rfl, he, fun s => h _⟩

theorem reduceOption_inbox (eof : Bool) (payloads : List Bytes) : (inbox eof payloads).reduceOption = payloads := by
  induction payloads with
  | nil => cases eof <;> rfl
  | cons payload payloads ih => rw [inbox_cons, List.reduceOption_cons_of_some, ih]

/-- Every payload that is taken is acknowledged once, unless that is what ends the task. -/
theorem acked_pump (eof : Bool) (payloads : List Bytes) : ∀ s : ToLocal,
    (s.pump maxStrDigits (inbox eof payloads)).acked <+: s.acked ++ payloads.map List.length := by
  induction payloads with
  | nil =>
    intro s
    cases eof with
    | false => simp [inbox, pump]
    | true =>
      simp [inbox, pump, (turn_none s).2]
  | cons payload payloads ih =>
    intro s
    rw [inbox_cons, pump_cons]
    rcases (@turn_some maxStrDigits s payload).2 with ha | ⟨ha, hr⟩
    · have h := ih (s.turn maxStrDigits (some payload) true)
      rw [ha] at h
      simpa using h
    · rw [pump_ended hr, ha]
      exact List.prefix_append _ _

/-- The task goes on only as long as there is no EOF. -/
theorem running_pump (eof : Bool) (payloads : List Bytes) : ∀ s : ToLocal,
    (s.pump maxStrDigits (inbox eof payloads)).running = true → eof = false := by
  induction payloads with
  | nil =>
    intro s hr
    cases eof with
    | false => rfl
    | true =>
      have hend : (s.pump maxStrDigits (inbox true [])).running = false := (turn_none s).1
      rw [hend] at hr
      cases hr
  | cons payload payloads ih => exact fun s hr => ih _ hr

/-- A task that goes on, or has written the EOF, has acknowledged every payload. -/
theorem acked_all (eof : Bool) (payloads : List Bytes) : ∀ s : ToLocal, s.eofWritten = false →
    (s.pump maxStrDigits (inbox eof payloads)).running = true ∨
      (s.pump maxStrDigits (inbox eof payloads)).eofWritten = true →
    (s.pump maxStrDigits (inbox eof payloads)).acked = s.acked ++ payloads.map List.length := by
  induction payloads with
  | nil =>
    intro s _ _
    cases eof with
    | false => simp [inbox, pump]
    | true =>
      have hend : (s.pump maxStrDigits (inbox true [])).acked = s.acked := (turn_none s).2
      simp [hend]
  | cons payload payloads ih =>
    intro s he h
    rw [inbox_cons, pump_cons] at h ⊢
    obtain ⟨hw, ha | ⟨-, hend⟩⟩ := @turn_some maxStrDigits s payload
    · rw [ih _ (hw.trans he) h, ha, List.append_assoc]
      rfl
    · rw [pump_ended hend, hend, hw, he] at h
      simp at h

theorem eofWritten_pump (taken : List (Option Bytes)) : ∀ l : ToLocal,
    (l.pump maxStrDigits taken).eofWritten = true → l.eofWritten = true ∨ none ∈ taken := by
  induction taken with
  | nil => exact fun l h => .inl h
  | cons item taken ih =>
    intro l h
    rcases ih _ h with h | h
    · cases item with
      | none => exact .inr List.mem_cons_self
      | some payload => exact .inl ((turn_some l payload).1 ▸ h)
    · exact .inr (List.mem_cons_of_mem _ h)

end ToLocal

namespace Stream

variable {maxStrDigits : Nat} {s : Stream}

/-- It passes bytes on as they are. -/
def Plain (s : Stream) : Prop := ¬ (s.spec.kind = "http" ∧ s.spec.rewriteHost = true)

/-- What has been taken: payloads, and at most the EOF behind them. -/
theorem Taken.exists_payloads (h : Taken maxStrDigits s) : ∃ payloads eof rest,
    items s.heard = UpTunnel.inbox eof payloads ++ rest ∧
    s.written = ((ToLocal.new s.id s.spec).pump maxStrDigits (UpTunnel.inbox eof payloads)).written ∧
    s.acked <+: payloads.map List.length ∧
    (s.toLocalAt = .returned → eof = true ∧ s.acked = payloads.map List.length) ∧
    (s.toLocalAt = .item → s.inbox = [] → rest = [] ∧ s.acked = payloads.map List.length) := by
  obtain ⟨taken, hi, hn⟩ := h
  obtain ⟨hw, ha⟩ := hn.weak
  obtain ⟨payloads, eof, rest, ht, he, hpump⟩ := @ToLocal.exists_inbox maxStrDigits taken
  refine ⟨payloads, eof, rest ++ s.inbox, ?_, hpump _ ▸ hw, ?_, fun hat => ?_, fun hat hin => ?_⟩
  · rw [hi, ht, List.append_assoc]
  · refine ha.trans ?_
    rw [hpump]
    exact ToLocal.acked_pump eof payloads _
  · simp only [Nears, hat, hpump] at hn
    have hmem := (ToLocal.eofWritten_pump _ _ hn.2).resolve_left (by simp [ToLocal.new])
    refine ⟨?_, by rw [hn.1, ToLocal.acked_all eof payloads _ rfl (.inr hn.2)]; rfl⟩
    cases eof with
    | true => rfl
    | false => simp [UpTunnel.inbox] at hmem
  · simp only [Nears, hat, hpump] at hn
    obtain ⟨heq, hr⟩ := hn
    rw [heq] at hr
    have heof := ToLocal.running_pump eof payloads _ hr
    exact ⟨by rw [he heof, hin]; rfl, by rw [heq, ToLocal.acked_all eof payloads _ rfl (.inl hr)]; rfl⟩

/-- Without rewriting, what has been written is what has been taken. -/
theorem Plain.written_eq {payloads : List Bytes} {eof : Bool} (h : s.Plain)
    (hw : s.written = ((ToLocal.new s.id s.spec).pump maxStrDigits (UpTunnel.inbox eof payloads)).written) :
    s.written.flatten = payloads.flatten := by
  have hd : (ToLocal.new s.id s.spec).headDone = true := by
    have hb := not_and_or.mp h
    simpa [ToLocal.new] using hb
  rw [hw, ToLocal.written_done payloads rfl hd rfl]
  rfl

/-- The payloads of the STREAM_DATA among frames. -/
def payloads (heard : List (Nat × Bytes)) : List Bytes := (items heard).reduceOption

/-- What of them has not been acknowledged. -/
def unacked (s : Stream) : Nat := (payloads s.heard).flatten.length - s.acked.sum

theorem payloads_of_items {heard : List (Nat × Bytes)} {eof : Bool} {ps : List Bytes} {rest : List (Option Bytes)}
    (h : items heard = UpTunnel.inbox eof ps ++ rest) : payloads heard = ps ++ rest.reduceOption := by
  rw [payloads, h, List.reduceOption_append, ToLocal.reduceOption_inbox]

theorem Taken.acked_le (h : Taken maxStrDigits s) : s.acked.sum ≤ (payloads s.heard).flatten.length := by
  obtain ⟨ps, eof, rest, hi, -, ha, -⟩ := h.exists_payloads
  obtain ⟨more, hr⟩ := ha
  have hsum := congrArg List.sum hr
  rw [List.sum_append] at hsum
  rw [payloads_of_items hi, List.flatten_append, List.length_append, List.length_flatten]
  omega

/-- A `_to_local` that waits for more has acknowledged all. -/
theorem Taken.unacked_item (h : Taken maxStrDigits s) (hat : s.toLocalAt = .item) (hin : s.inbox = []) :
    s.unacked = 0 := by
  obtain ⟨ps, eof, rest, hi, -, -, -, hidle⟩ := h.exists_payloads
  obtain ⟨rfl, hacked⟩ := hidle hat hin
  rw [unacked, payloads_of_items hi, hacked]
  simp

end Stream

namespace Agent

variable {env : Env} {a a' : Agent} {x y : Nat} {s s' : Stream} {r : Stream × List Message}

/-! ## The streams after a step -/

theorem getElem?_put (hx : a.objs[x]? = some s) (y : Nat) :
    (a.put x r).objs[y]? = if y = x then some (Stream.say r) else a.objs[y]? := by
  have hlt : x < a.objs.length := (List.getElem?_eq_some_iff.mp hx).1
  simp only [put, sendAll, List.getElem?_modify, List.getElem?_set, eq_comm (a := x)]
  by_cases h : y = x
  · subst h
    simp [hlt, Stream.say]
  · simp [h]

theorem getElem?_finishing (hx : a.objs[x]? = some s) (y : Nat) :
    (a.finishing x s r).objs[y]? = if y = x then some (Stream.say r) else a.objs[y]? := by
  rw [← getElem?_put hx, finishing]
  split <;> rfl

theorem finish_finish (s : Stream) : s.finish.finish = s.finish := if_pos (Stream.finish_finished s)

theorem foldl_finish (l : List Nat) : ∀ (objs : List Stream) (y : Nat),
    (l.foldl (fun objs x => objs.modify x (·.finish)) objs)[y]? =
      if y ∈ l then objs[y]?.map (·.finish) else objs[y]? := by
  induction l with
  | nil => intro objs y; simp
  | cons x l ih =>
    intro objs y
    rw [List.foldl_cons, ih, List.getElem?_modify]
    by_cases hy : y = x
    · subst hy
      by_cases hl : y ∈ l
      · simp [hl, Function.comp_def, finish_finish]
      · simp [hl]
    · by_cases hl : y ∈ l
      · simp [hl, Ne.symm hy]
      · simp [hl, hy, Ne.symm hy]

theorem getElem?_disconnect (a : Agent) (y : Nat) :
    a.disconnect.objs[y]? = if y ∈ a.streams.values then a.objs[y]?.map (·.finish) else a.objs[y]? :=
  foldl_finish _ _ y

/-- The move of the stream at `x` in an event. -/
def Event.Moves (x : Nat) (mv : Stream.Move) : Event → Prop
  | .connect => False
  | .reply _ => False
  | .unanswered => False
  | .message _ => ∃ t p, mv = .frame t p
  | .disconnect => mv = .finish
  | .deliver => False
  | .stream y e => y = x ∧ mv = .step e
  | .dialFailed y text => y = x ∧ mv = .dialFailed text
  | .gathered y => y = x ∧ mv = .gathered

theorem register_objs (specs : List TunnelSpec) : ∀ (a : Agent) (i : Nat),
    (a.register i specs).objs = a.objs ∧ (a.register i specs).streams = a.streams ∧
      (a.register i specs).tunnels = a.tunnels ∧ (a.register i specs).phase = a.phase ∧
      (a.register i specs).sent = a.sent ∧ (a.register i specs).window = a.window := by
  induction specs with
  | nil => exact fun a i => ⟨rfl, rfl, rfl, rfl, rfl, rfl⟩
  | cons spec specs ih => exact fun a i => ih _ _

theorem onReply_objs (env : Env) (a : Agent) (data : Bytes) :
    (a.onReply env data).objs = a.objs ∧ (a.onReply env data).streams = a.streams ∧
      (a.onReply env data).tunnels = a.tunnels ∧ (a.onReply env data).sent = a.sent := by
  unfold onReply
  split
  · exact ⟨rfl, rfl, rfl, rfl⟩
  · exact ⟨rfl, rfl, rfl, rfl⟩
  · split
    · exact ⟨rfl, rfl, rfl, rfl⟩
    · split
      · exact ⟨rfl, rfl, rfl, rfl⟩
      · split
        · exact ⟨rfl, rfl, rfl, rfl⟩
        · obtain ⟨h1, h2, h3, -, h5, -⟩ := register_objs env.tunnels
            { a with window := ‹Int›, phase := .up } 0
          exact ⟨h1, h2, h3, h5⟩

theorem onControl_objs (env : Env) (a : Agent) (t : Nat) (body : Py.Dict) :
    (a.onControl env t body).objs = a.objs ∧ (a.onControl env t body).streams = a.streams ∧
      (a.onControl env t body).sent = a.sent ∧ (a.onControl env t body).phase = a.phase ∧
      (a.onControl env t body).out = a.out ∧ (a.onControl env t body).window = a.window := by
  unfold onControl
  simp only
  split
  · split
    · split <;> exact ⟨rfl, rfl, rfl, rfl, rfl, rfl⟩
    · exact ⟨rfl, rfl, rfl, rfl, rfl, rfl⟩
  · split <;> exact ⟨rfl, rfl, rfl, rfl, rfl, rfl⟩

/-- A stream frame that is no STREAM_OPEN moves the stream that the table has under its id. -/
theorem onStream_cases (env : Env) (a : Agent) {t id : Nat} (p : Bytes) (ht : t ≠ STREAM_OPEN) :
    (a.streams.lookup id = none ∧ ∃ ms,
      (∀ m ∈ ms, ∃ code, m = (none, .streamJson STREAM_RESET id [("code", .str code)])) ∧
      a.onStream env t id p = { a with out := a.out ++ ms }) ∨
    (∃ x, a.streams.lookup id = some x ∧ a.objs[x]? = none ∧ a.onStream env t id p = a) ∨
    ∃ x s, a.streams.lookup id = some x ∧ a.objs[x]? = some s ∧
      a.onStream env t id p =
        if t = STREAM_RESET then a.finishing x s (s.onFrame t p, []) else a.put x (s.onFrame t p, []) := by
  simp only [onStream, if_neg ht]
  cases hl : a.streams.lookup id with
  | none =>
    refine .inl ⟨rfl, ?_⟩
    simp only
    split
    · exact ⟨[_], by simp, rfl⟩
    · exact ⟨[], by simp, by simp⟩
  | some x =>
    cases hx : a.objs[x]? with
    | none => exact .inr (.inl ⟨x, rfl, hx, by simp only [hx]⟩)
    | some s => exact .inr (.inr ⟨x, s, rfl, hx, by simp only [hx]⟩)

/-- A STREAM_OPEN is refused, or makes a stream. -/
theorem onStreamOpen_cases (env : Env) (a : Agent) (id : Nat) (p : Bytes) :
    a.onStreamOpen env id p = a.send none (.streamJson STREAM_RESET id [("code", .str "unknown_tunnel")]) ∨
    ∃ tunnelId spec, a.tunnels.lookup tunnelId = some spec ∧
      a.onStreamOpen env id p = { a with
        objs := a.objs ++ [Stream.new id spec a.window (a.sent.length - 1)]
        streams := a.streams.insert id a.objs.length } := by
  simp only [onStreamOpen]
  split
  · exact .inl rfl
  · rename_i spec hs
    exact .inr ⟨_, spec, hs, rfl⟩

/-- What a step does to the stream at `x`. -/
inductive Changes (env : Env) (a : Agent) (e : Event) (x : Nat) : Option Stream → Option Stream → Prop where
  | absent : Changes env a e x none none
  | made {id : Nat} {tunnelId : String} {spec : TunnelSpec} : a.phase = .up → a.tunnels.lookup tunnelId = some spec →
      Changes env a e x none (some (Stream.new id spec a.window (a.sent.length - 1)))
  | still (s : Stream) : Changes env a e x (some s) (some s)
  | moved {s s' : Stream} {mv : Stream.Move} : e.Moves x mv → s.move env.maxStrDigits mv = some s' →
      Changes env a e x (some s) (some s')

variable {e : Event}

theorem Changes.same (o : Option Stream) : Changes env a e x o o := by
  cases o with
  | none => exact .absent
  | some s => exact .still s

/-- A step that is a move of the stream at `y`. -/
theorem Changes.one (mv : Stream.Move) (hy : a.objs[y]? = some s)
    (ho : ∀ z, a'.objs[z]? = if z = y then some (Stream.say r) else a.objs[z]?) (hm : e.Moves y mv)
    (hmv : s.move env.maxStrDigits mv = some (Stream.say r)) (x : Nat) :
    Changes env a e x a.objs[x]? a'.objs[x]? := by
  rw [ho x]
  by_cases hxy : x = y
  · subst hxy
    rw [if_pos rfl, hy]
    exact .moved hm hmv
  · rw [if_neg hxy]
    exact .same _

/-- Every stream is moved at most once, and a stream that was not there is a new one. -/
theorem step_objs (h : a.step env e = some a') (x : Nat) : Changes env a e x a.objs[x]? a'.objs[x]? := by
  have same : a'.objs = a.objs → Changes env a e x a.objs[x]? a'.objs[x]? := by
    intro ho
    rw [ho]
    exact .same _
  cases e with
  | connect =>
    obtain ⟨-, he⟩ := Option.ite_none_right_eq_some.mp h
    cases he
    exact same rfl
  | reply data =>
    obtain ⟨-, he⟩ := Option.ite_none_right_eq_some.mp h
    cases he
    exact same (onReply_objs env a data).1
  | unanswered =>
    obtain ⟨-, he⟩ := Option.ite_none_right_eq_some.mp h
    cases he
    exact same rfl
  | message data =>
    obtain ⟨hup, he⟩ := Option.ite_none_right_eq_some.mp h
    simp only [onMessage, Option.some.injEq] at he
    cases hd : decode env.maxStrDigits data with
    | error err =>
      rw [hd] at he
      exact same (he ▸ rfl)
    | ok f =>
      rw [hd] at he
      cases f with
      | control t body => exact same (he ▸ (onControl_objs env a t body).1)
      | stream t id p =>
        simp only at he
        by_cases ht : t = STREAM_OPEN
        · rw [onStream, if_pos ht] at he
          rcases onStreamOpen_cases env a id p with hr | ⟨tunnelId, spec, hs, hr⟩
          · exact same (by rw [← he, hr]; rfl)
          · rw [← he, hr]
            by_cases hx : x < a.objs.length
            · simp only [List.getElem?_append_left hx]
              exact .same _
            · rw [List.getElem?_eq_none (Nat.not_lt.mp hx)]
              by_cases hx' : x = a.objs.length
              · subst hx'
                simp only [List.getElem?_concat_length]
                exact .made hup hs
              · have hlen : (a.objs ++ [Stream.new id spec a.window (a.sent.length - 1)]).length ≤ x := by
                  rw [List.length_append, List.length_singleton]
                  omega
                simp only [List.getElem?_eq_none hlen]
                exact .absent
        · rcases onStream_cases env a p ht with ⟨-, ms, -, hr⟩ | ⟨y, -, -, hr⟩ | ⟨y, s, -, hy, hr⟩
          · exact same (by rw [← he, hr])
          · exact same (by rw [← he, hr])
          · have ho : ∀ z, a'.objs[z]? = if z = y then some (Stream.say (s.onFrame t p, [])) else a.objs[z]? := by
              intro z
              rw [← he, hr]
              split
              · exact getElem?_finishing hy z
              · exact getElem?_put hy z
            refine Changes.one (e := .message data) (.frame t p) hy ho ⟨t, p, rfl⟩ ?_ x
            simp [Stream.move, Stream.say]
  | disconnect =>
    obtain ⟨-, he⟩ := Option.ite_none_right_eq_some.mp h
    cases he
    rw [getElem?_disconnect]
    split
    · cases a.objs[x]? with
      | none => exact .absent
      | some s => exact .moved rfl rfl
    · exact .same _
  | deliver =>
    simp only [step] at h
    split at h
    · cases h
    · obtain ⟨-, he⟩ := Option.ite_none_right_eq_some.mp h
      cases he
      exact same rfl
  | stream y e =>
    obtain ⟨s, hy, h⟩ := Option.bind_eq_some_iff.mp h
    obtain ⟨r, hr, rfl⟩ := Option.map_eq_some_iff.mp h
    exact Changes.one (e := .stream y e) (.step e) hy (getElem?_put hy) ⟨rfl, rfl⟩ (by rw [Stream.move, hr]; rfl) x
  | dialFailed y text =>
    obtain ⟨s, hy, h⟩ := Option.bind_eq_some_iff.mp h
    obtain ⟨hd, he⟩ := Option.ite_none_right_eq_some.mp h
    cases he
    exact Changes.one (e := .dialFailed y text) (.dialFailed text) hy (getElem?_finishing hy) ⟨rfl, rfl⟩
      (by rw [Stream.move, if_pos hd]) x
  | gathered y =>
    obtain ⟨s, hy, h⟩ := Option.bind_eq_some_iff.mp h
    obtain ⟨hg, he⟩ := Option.ite_none_right_eq_some.mp h
    cases he
    refine Changes.one (e := .gathered y) .gathered hy (getElem?_finishing hy) ⟨rfl, rfl⟩ ?_ x
    rw [Stream.move, if_pos hg]
    simp [Stream.say]

/-! ## What holds of every stream -/

/-- The agent starts anew. -/
def Starts (a : Agent) : Prop := a = new

/-- A property that a new stream has and that every move of a stream keeps holds of every stream. -/
theorem streams_invariant {P : Stream → Prop} {ok : Agent → Event → Prop}
    (hnew : ∀ id spec window session, P (Stream.new id spec window session))
    (hmove : ∀ s mv s', P s → s.move env.maxStrDigits mv = some s' → P s')
    (h : Reach (ofFn (step env)) ok Starts a) : ∀ (x : Nat) (s : Stream), a.objs[x]? = some s → P s := by
  refine h.invariant (I := fun a => ∀ (x : Nat) (s : Stream), a.objs[x]? = some s → P s) ?_ ?_
  · rintro _ rfl x s hx
    cases hx
  · intro a e a' _ ih _ hs x s' hx'
    have hc := step_objs hs x
    rw [hx'] at hc
    cases ho : a.objs[x]? with
    | none =>
      rw [ho] at hc
      cases hc
      exact hnew _ _ _ _
    | some s =>
      rw [ho] at hc
      cases hc with
      | still => exact ih x _ ho
      | moved _ hm => exact hmove _ _ _ (ih x _ ho) hm

/-- What holds of every stream, whatever happens. -/
structure Sound (maxStrDigits : Nat) (s : Stream) : Prop where
  life : s.Life
  credited : s.Credited
  spoken : s.Spoken
  taken : s.Taken maxStrDigits

theorem sound {ok : Agent → Event → Prop} (h : Reach (ofFn (step env)) ok Starts a) (hx : a.objs[x]? = some s) :
    Sound env.maxStrDigits s := by
  refine streams_invariant (P := Sound env.maxStrDigits) ?_ ?_ h x s hx
  · exact fun id spec window session => ⟨Stream.life_new .., Stream.credited_new .., Stream.spoken_new ..,
      Stream.taken_new ..⟩
  · exact fun s mv s' hs hm => ⟨hs.life.move hm, hs.credited.move hm, hs.spoken.move hs.life hm,
      hs.taken.move hs.life hm⟩

/-! ## A run with one stream -/

def sshSpec : TunnelSpec where
  name := "ssh"
  kind := "tcp"
  targetHost := "127.0.0.1"
  targetPort := 22
  subdomain := ""
  remotePort := 2222
  rewriteHost := false

def sshEnv : Env where
  token := "secret"
  name := "pi"
  tunnels := [sshSpec]
  lanIp := none
  maxStrDigits := 4300
  printable _ := true

/-- TUNNEL_OK and STREAM_OPEN for the only tunnel. -/
def tunnelOk : Bytes := 0x11 :: latin1Encode "\x7b\"reqId\":\"0\",\"tunnelId\":\"a\"\x7d".toList

def openFrame (id : Nat) : Bytes := 0x20 :: u32be id ++ latin1Encode "\x7b\"tunnelId\":\"a\"\x7d".toList

/-- A stream is opened and dialled, a payload goes each way, and the local service closes. -/
def sshRun : List Event :=
  [.connect, .reply [2], .message tunnelOk, .message (openFrame 1), .stream 0 .dialed, .stream 0 .begin,
    .message (0x21 :: u32be 1 ++ [7, 8]), .stream 0 (.read [1, 2, 3]), .stream 0 .item, .stream 0 .drained,
    .stream 0 .readEnd]

theorem exec_sshRun : ∃ a s, Reachable (ofFn (step sshEnv)) Starts a ∧ a.objs[0]? = some s ∧ s.chunks = [[1, 2, 3]] ∧
    s.written = [[7, 8]] ∧ s.finished = false := by
  have hrun : (exec (step sshEnv) new sshRun).any (fun a => a.objs[0]?.any fun s =>
      decide (s.chunks = [[1, 2, 3]] ∧ s.written = [[7, 8]] ∧ s.finished = false)) = true := by decide +kernel
  obtain ⟨a, ha, hs⟩ := (Option.any_eq_true _ _).mp hrun
  obtain ⟨s, hs, hp⟩ := (Option.any_eq_true _ _).mp hs
  exact ⟨a, s, Reachable.exec (.start rfl) ha, hs, of_decide_eq_true hp⟩

/-! ## Every order of the steps -/

/-- What comes back from the local service is read only where there is credit, and never by more than one read beyond
it. -/
theorem read_within_credit (h : Reachable (ofFn (step env)) Starts a) (hx : a.objs[x]? = some s) :
    (s.toServerAt = .read → (s.chunks.flatten.length : Int) < s.window + Stream.granted s.heard) ∧
    (s.chunks = [] ∨
      (s.chunks.flatten.length : Int) < s.window + Stream.granted s.heard + LOCAL_READ_CHUNK) := by
  have hc := (sound h hx).credited
  refine ⟨fun hat => ?_, hc.bound⟩
  have hpos := hc.reading hat
  have hb := hc.balance
  omega

theorem read_within_credit_ssh : ∃ s : Stream, s.chunks = [[1, 2, 3]] ∧
    (s.toServerAt = .read → (s.chunks.flatten.length : Int) < s.window + Stream.granted s.heard) ∧
    (s.chunks = [] ∨
      (s.chunks.flatten.length : Int) < s.window + Stream.granted s.heard + LOCAL_READ_CHUNK) := by
  obtain ⟨a, s, h, hx, hc, -, -⟩ := exec_sshRun
  exact ⟨s, hc, read_within_credit h hx⟩

/-- What is read goes out in order, and behind one closing word there are acknowledgements only. -/
theorem says_in_order (h : Reachable (ofFn (step env)) Starts a) (hx : a.objs[x]? = some s) :
    ∃ ms, Stream.speech s.queued = s.chunks.map (.streamData s.id ·) ++ ms ∧
      (ms = [] ∨ ms = [.streamOnly STREAM_EOF s.id] ∨ ms = [s.reset "local_error"] ∨ s.chunks = [] ∧ ∃ message,
        ms = [.streamJson STREAM_RESET s.id [("code", .str "dial_failed"), ("message", .str message)]]) := by
  obtain ⟨ms, ht, hl⟩ := (sound h hx).spoken.talk
  refine ⟨ms, ht, ?_⟩
  unfold Stream.Last at hl
  cases hat : s.toServerAt <;> simp only [hat] at hl
  · rcases hl with ⟨hc, rfl | ⟨-, hm⟩⟩
    · exact .inl rfl
    · exact .inr (.inr (.inr ⟨hc, hm⟩))
  · exact .inl hl
  · exact .inl hl
  · exact .inl hl
  · rcases hl with hl | hl
    · exact .inr (.inl hl)
    · exact .inr (.inr (.inl hl))
  · exact .inl hl

theorem says_in_order_ssh : ∃ s : Stream, s.chunks = [[1, 2, 3]] ∧
    ∃ ms, Stream.speech s.queued = s.chunks.map (.streamData s.id ·) ++ ms ∧
      (ms = [] ∨ ms = [.streamOnly STREAM_EOF s.id] ∨ ms = [s.reset "local_error"] ∨ s.chunks = [] ∧ ∃ message,
        ms = [.streamJson STREAM_RESET s.id [("code", .str "dial_failed"), ("message", .str message)]]) := by
  obtain ⟨a, s, h, hx, hc, -, -⟩ := exec_sshRun
  exact ⟨s, hc, says_in_order h hx⟩

/-- However the steps fall, what is written is what the loop without its awaits makes of the first items; every
payload is acknowledged at most once and in order. -/
theorem local_in_order (h : Reachable (ofFn (step env)) Starts a) (hx : a.objs[x]? = some s) :
    (∃ taken, Stream.items s.heard = taken ++ s.inbox ∧
      s.written = ((ToLocal.new s.id s.spec).pump env.maxStrDigits taken).written) ∧
    Stream.acks s.queued <+: (Stream.payloads s.heard).map List.length ∧
    (s.Plain →
      s.written.flatten <+: (Stream.payloads s.heard).flatten ∧
        (Stream.acks s.queued).sum ≤ s.written.flatten.length) := by
  have hs := sound h hx
  obtain ⟨payloads, eof, rest, hi, hw, ha, -⟩ := hs.taken.exists_payloads
  have hpay : payloads <+: Stream.payloads s.heard := by
    rw [Stream.payloads_of_items hi]
    exact List.prefix_append _ _
  have hacks : Stream.acks s.queued <+: payloads.map List.length := by
    rw [hs.spoken.acked]
    exact ha
  refine ⟨?_, hacks.trans (hpay.map _), fun hplain => ?_⟩
  · obtain ⟨taken, hi, hn⟩ := hs.taken
    exact ⟨taken, hi, hn.weak.1⟩
  · rw [hplain.written_eq hw]
    constructor
    · obtain ⟨more, hr⟩ := hpay
      rw [← hr, List.flatten_append]
      exact List.prefix_append _ _
    · obtain ⟨more, hr⟩ := hacks
      have hsum := congrArg List.sum hr
      rw [List.sum_append] at hsum
      rw [List.length_flatten]
      omega

theorem local_in_order_ssh : ∃ s : Stream, s.written = [[7, 8]] ∧
    (∃ taken, Stream.items s.heard = taken ++ s.inbox ∧
      s.written = ((ToLocal.new s.id s.spec).pump sshEnv.maxStrDigits taken).written) ∧
    Stream.acks s.queued <+: (Stream.payloads s.heard).map List.length ∧
    (s.Plain →
      s.written.flatten <+: (Stream.payloads s.heard).flatten ∧
        (Stream.acks s.queued).sum ≤ s.written.flatten.length) := by
  obtain ⟨a, s, h, hx, -, hw, -⟩ := exec_sshRun
  exact ⟨s, hw, local_in_order h hx⟩

end Agent

end UpTunnel.Python
