import UpTunnel.Python.Finished

/-!
# UpTunnel.Python.Transcript

What the Python agent connects to, and what it says in a session.

* `TablesOk`: what a session registers is in the configuration.
* `dials_configured`: so whatever the server sends, the agent dials what it was configured to.
* `Transcript`: HELLO, one OPEN_TUNNEL for each tunnel in their order, then frames of streams.
* `session_begins`: what every session has sent begins so, in a calm run.
-/

namespace UpTunnel.Python

open Js Lts

namespace Agent

variable {env : Env} {a a' : Agent} {e : Event} {x : Nat} {s : Stream}

/-! ## Targets -/

theorem finishing_tables (a : Agent) (x : Nat) (s : Stream) (r : Stream × List Message) :
    (a.finishing x s r).tunnels = a.tunnels ∧ (a.finishing x s r).pending = a.pending := by
  unfold finishing
  cases s.finished <;> exact ⟨rfl, rfl⟩

theorem onStream_tables (env : Env) (a : Agent) (t id : Nat) (p : Bytes) :
    (a.onStream env t id p).tunnels = a.tunnels ∧ (a.onStream env t id p).pending = a.pending := by
  by_cases ht : t = STREAM_OPEN
  · rw [onStream, if_pos ht]
    rcases onStreamOpen_cases env a id p with hr | ⟨tunnelId, spec, -, hr⟩ <;> rw [hr] <;> exact ⟨rfl, rfl⟩
  · rcases onStream_cases env a p ht with ⟨-, ms, -, hr⟩ | ⟨y, -, -, hr⟩ | ⟨y, s, -, -, hr⟩ <;> rw [hr]
    · exact ⟨rfl, rfl⟩
    · exact ⟨rfl, rfl⟩
    · split
      · exact finishing_tables a y s _
      · exact ⟨rfl, rfl⟩

/-- The tables that TUNNEL_OK moves a specification between. -/
def TablesOk (env : Env) (a : Agent) : Prop :=
  (∀ (id : String) spec, a.tunnels.lookup id = some spec → spec ∈ env.tunnels) ∧
    ∀ (reqId : String) spec, a.pending.lookup reqId = some spec → spec ∈ env.tunnels

theorem tablesOk_empty (h1 : a.tunnels = ∅) (h2 : a.pending = ∅) : TablesOk env a := by
  unfold TablesOk
  rw [h1, h2]
  exact ⟨by simp, by simp⟩

theorem tablesOk_register (specs : List TunnelSpec) : ∀ {a : Agent} (i : Nat), TablesOk env a →
    (∀ spec ∈ specs, spec ∈ env.tunnels) → TablesOk env (a.register i specs) := by
  induction specs with
  | nil => exact fun i h _ => h
  | cons spec specs ih =>
    intro a i h hin
    refine ih (i + 1) ⟨h.1, fun reqId t ht => ?_⟩ fun t ht => hin t (List.mem_cons_of_mem spec ht)
    have ht : (a.pending.insert (toString i) spec).lookup reqId = some t := ht
    rw [Dict.lookup_insert_ite] at ht
    split at ht
    · cases ht
      exact hin _ List.mem_cons_self
    · exact h.2 reqId t ht

theorem tablesOk_onReply (h : TablesOk env a) (data : Bytes) : TablesOk env (a.onReply env data) := by
  unfold onReply
  split
  · exact h
  · exact h
  · split
    · exact h
    · split
      · exact h
      · split
        · exact h
        · exact tablesOk_register _ 0 h fun _ hm => hm

theorem tablesOk_erase (h : TablesOk env a) (reqId : String) :
    TablesOk env { a with pending := a.pending.erase reqId } := by
  refine ⟨h.1, fun r t ht => ?_⟩
  have ht : (a.pending.erase reqId).lookup r = some t := ht
  rw [Dict.lookup_erase_ite] at ht
  split at ht
  · cases ht
  · exact h.2 r t ht

theorem tablesOk_onControl (h : TablesOk env a) (t : Nat) (body : Py.Dict) :
    TablesOk env (a.onControl env t body) := by
  unfold onControl
  simp only
  split
  · split
    · rename_i spec hspec
      split
      · refine ⟨fun id u hu => ?_, (tablesOk_erase h _).2⟩
        rw [Dict.lookup_insert_ite] at hu
        split at hu
        · cases hu
          exact h.2 _ _ hspec
        · exact h.1 id u hu
      · exact tablesOk_erase h _
    · exact tablesOk_erase h _
  · split
    · exact tablesOk_erase h _
    · exact h

theorem tablesOk_step (h : TablesOk env a) (hs : a.step env e = some a') : TablesOk env a' := by
  cases e with
  | connect =>
    obtain ⟨-, he⟩ := Option.ite_none_right_eq_some.mp hs
    cases he
    exact tablesOk_empty rfl rfl
  | reply data =>
    obtain ⟨-, he⟩ := Option.ite_none_right_eq_some.mp hs
    cases he
    exact tablesOk_onReply h data
  | unanswered =>
    obtain ⟨-, he⟩ := Option.ite_none_right_eq_some.mp hs
    cases he
    exact h
  | message data =>
    obtain ⟨-, he⟩ := Option.ite_none_right_eq_some.mp hs
    simp only [Option.some.injEq] at he
    rw [← he]
    unfold onMessage
    split
    · exact h
    · exact tablesOk_onControl h _ _
    · rename_i t id p _
      obtain ⟨h1, h2⟩ := onStream_tables env a t id p
      unfold TablesOk
      rw [h1, h2]
      exact h
  | disconnect =>
    obtain ⟨-, he⟩ := Option.ite_none_right_eq_some.mp hs
    cases he
    exact h
  | deliver =>
    simp only [step] at hs
    split at hs
    · cases hs
    · obtain ⟨-, he⟩ := Option.ite_none_right_eq_some.mp hs
      cases he
      exact h
  | stream y e =>
    obtain ⟨s, -, hs⟩ := Option.bind_eq_some_iff.mp hs
    obtain ⟨r, -, rfl⟩ := Option.map_eq_some_iff.mp hs
    exact h
  | dialFailed y text =>
    obtain ⟨s, -, hs⟩ := Option.bind_eq_some_iff.mp hs
    obtain ⟨-, he⟩ := Option.ite_none_right_eq_some.mp hs
    cases he
    obtain ⟨h1, h2⟩ := finishing_tables a y s (s.dialFailed text)
    unfold TablesOk
    rw [h1, h2]
    exact h
  | gathered y =>
    obtain ⟨s, -, hs⟩ := Option.bind_eq_some_iff.mp hs
    obtain ⟨-, he⟩ := Option.ite_none_right_eq_some.mp hs
    cases he
    obtain ⟨h1, h2⟩ := finishing_tables a y s (s.gathered, [])
    unfold TablesOk
    rw [h1, h2]
    exact h

/-- Whatever the server sends, and in whatever order: a stream is for a tunnel of the configuration, so its target is
one that the user has given. -/
theorem dials_configured (h : Reachable (ofFn (step env)) Starts a) (hx : a.objs[x]? = some s) :
    s.spec ∈ env.tunnels := by
  have hall : TablesOk env a ∧ ∀ (x : Nat) (s : Stream), a.objs[x]? = some s → s.spec ∈ env.tunnels := by
    refine h.invariant (I := fun a => TablesOk env a ∧ ∀ (x : Nat) (s : Stream), a.objs[x]? = some s →
      s.spec ∈ env.tunnels) ?_ ?_
    · rintro _ rfl
      exact ⟨tablesOk_empty rfl rfl, fun x s hx => by cases hx⟩
    · intro a e a' hr ih _ hs
      refine ⟨tablesOk_step ih.1 hs, fun x s' hx' => ?_⟩
      have hc := step_objs hs x
      rw [hx'] at hc
      generalize ho : a.objs[x]? = o at hc
      cases hc with
      | made _ hspec => exact ih.1.1 _ _ hspec
      | still => exact ih.2 x _ ho
      | moved _ hm =>
        rw [(Stream.later_move ((timed hr).sound x _ ho).1.life hm).spec]
        exact ih.2 x _ ho
  exact hall.2 x s hx

theorem dials_configured_ssh : ∃ s : Stream, s.written = [[7, 8]] ∧ s.spec ∈ sshEnv.tunnels := by
  obtain ⟨a, s, h, hx, -, hw, -⟩ := exec_sshRun
  exact ⟨s, hw, dials_configured h hx⟩

/-! ## What is said -/

end Agent

def Message.isControl : Message → Bool
  | .control _ _ => true
  | .streamJson _ _ _ => false
  | .streamData _ _ => false
  | .streamOnly _ _ => false
  | .streamAck _ _ => false

theorem Stream.Steps.says {s : Stream} {e : Stream.Event} {r : Stream × List Message} (h : s.Steps e r) :
    ∀ m ∈ r.2, m.isControl = false := by
  intro m hm
  cases h with
  | dialed | dialRaised | begin | credited => cases hm
  | toLocal inbox hat hof =>
    obtain ⟨n, rfl⟩ := hof.named m hm
    rfl
  | read | readEnd | readFailed =>
    obtain rfl := List.mem_singleton.mp hm
    rfl

namespace Agent

/-- A HELLO, an OPEN_TUNNEL for each tunnel, and frames of streams. -/
def Script (env : Env) (log : List (Option Nat × Message)) : Prop :=
  ∃ rest, log = (none, env.hello) :: openings 0 env.tunnels ++ rest ∧ ∀ p ∈ rest, p.2.isControl = false

theorem Script.append {log ms : List (Option Nat × Message)} (h : Script env log)
    (hms : ∀ p ∈ ms, p.2.isControl = false) : Script env (log ++ ms) := by
  obtain ⟨rest, rfl, hrest⟩ := h
  refine ⟨rest ++ ms, by simp, fun p hp => ?_⟩
  rcases List.mem_append.mp hp with hp | hp
  · exact hrest p hp
  · exact hms p hp

/-- What the sessions have sent, and what waits in `_out`. -/
structure Transcript (env : Env) (a : Agent) : Prop where
  greeting : a.phase = .greeting → a.sent[a.sent.length - 1]? = some [(none, env.hello)] ∧ a.out = []
  up : a.phase = .up → ∃ log, a.sent[a.sent.length - 1]? = some log ∧ Script env (log ++ a.out)
  sent : ∀ (k : Nat) log, a.sent[k]? = some log → ∃ script, Script env script ∧ log <+: script

theorem transcript_new : Transcript env new where
  greeting h := by cases h
  up h := by cases h
  sent k log hk := by cases hk

/-- Frames of streams join the queue. -/
theorem Transcript.say (h : Transcript env a) (hphase : a'.phase = a.phase) (hsent : a'.sent = a.sent)
    (ms : List (Option Nat × Message)) (hout : a'.out = a.out ++ ms) (hms : ∀ p ∈ ms, p.2.isControl = false)
    (hquiet : a.phase = .greeting → ms = []) : Transcript env a' where
  greeting hg := by
    have hg' : a.phase = .greeting := hphase ▸ hg
    obtain ⟨h1, h2⟩ := h.greeting hg'
    rw [hsent, hout, hquiet hg', h2]
    exact ⟨h1, rfl⟩
  up hu := by
    obtain ⟨log, h1, h2⟩ := h.up (hphase ▸ hu)
    refine ⟨log, hsent ▸ h1, ?_⟩
    rw [hout, ← List.append_assoc]
    exact h2.append hms
  sent k log hk := h.sent k log (hsent ▸ hk)

theorem onStream_out (env : Env) (a : Agent) (t id : Nat) (p : Bytes) :
    ∃ ms, (a.onStream env t id p).out = a.out ++ ms ∧ ∀ q ∈ ms, q.2.isControl = false := by
  by_cases ht : t = STREAM_OPEN
  · rw [onStream, if_pos ht]
    rcases onStreamOpen_cases env a id p with hr | ⟨tunnelId, spec, -, hr⟩ <;> rw [hr]
    · exact ⟨[_], rfl, by simp [Message.isControl]⟩
    · exact ⟨[], (List.append_nil _).symm, by simp⟩
  · rcases onStream_cases env a p ht with ⟨-, ms, hms, hr⟩ | ⟨y, -, -, hr⟩ | ⟨y, s, -, -, hr⟩ <;> rw [hr]
    · refine ⟨ms, rfl, fun q hq => ?_⟩
      obtain ⟨code, rfl⟩ := hms q hq
      rfl
    · exact ⟨[], (List.append_nil _).symm, by simp⟩
    · refine ⟨[], ?_, by simp⟩
      split
      · exact (finishing_frame a y s _).2.2.2
      · rfl

theorem Transcript.step (h : Transcript env a) (hS : Settled a) (hok : Calm env a e)
    (hs : a.step env e = some a') : Transcript env a' := by
  cases e with
  | connect =>
    obtain ⟨-, he⟩ := Option.ite_none_right_eq_some.mp hs
    cases he
    have hlast : (a.connect env).sent[(a.connect env).sent.length - 1]? = some [(none, env.hello)] := by
      simp [Agent.connect]
    refine ⟨fun _ => ⟨hlast, rfl⟩, (fun hu => by cases hu), fun k log hk => ?_⟩
    have hk : (a.sent ++ [[(none, env.hello)]])[k]? = some log := hk
    rcases Nat.lt_or_ge k a.sent.length with hlt | hge
    · exact h.sent k log ((List.getElem?_append_left hlt).symm.trans hk)
    · rw [List.getElem?_append_right hge, List.getElem?_singleton] at hk
      split at hk
      · cases hk
        exact ⟨_, ⟨[], rfl, by simp⟩, by simp⟩
      · cases hk
  | reply data =>
    obtain ⟨hg, he⟩ := Option.ite_none_right_eq_some.mp hs
    cases he
    obtain ⟨-, -, -, h4⟩ := onReply_objs env a data
    obtain ⟨h1, h2⟩ := h.greeting hg
    refine ⟨fun hg' => absurd hg' (onReply_phase env a data), fun hu => ?_, fun k log hk => h.sent k log (h4 ▸ hk)⟩
    rw [h4, onReply_out, if_pos hu, h2]
    exact ⟨_, h1, [], by simp, by simp⟩
  | unanswered =>
    obtain ⟨hg, he⟩ := Option.ite_none_right_eq_some.mp hs
    cases he
    exact ⟨(fun hg => by cases hg), (fun hu => by cases hu), h.sent⟩
  | message data =>
    obtain ⟨hup, he⟩ := Option.ite_none_right_eq_some.mp hs
    simp only [Option.some.injEq] at he
    have hloud : a.phase ≠ .greeting := by rw [hup]; simp
    rw [← he]
    unfold onMessage
    split
    · exact h
    · rename_i t body _
      obtain ⟨-, -, h3, h4, h5, -⟩ := onControl_objs env a t body
      exact h.say h4 h3 [] (by rw [h5, List.append_nil]) (by simp) fun _ => rfl
    · rename_i t id p _
      obtain ⟨h1, h2⟩ := onStream_frame env a t id p
      obtain ⟨ms, hout, hms⟩ := onStream_out env a t id p
      exact h.say h1 h2 ms hout hms fun hg => absurd hg hloud
  | disconnect =>
    obtain ⟨-, he⟩ := Option.ite_none_right_eq_some.mp hs
    cases he
    exact ⟨(fun hg => by cases hg), (fun hu => by cases hu), h.sent⟩
  | deliver =>
    simp only [Agent.step] at hs
    split at hs
    · cases hs
    · rename_i q out hout
      obtain ⟨hup, he⟩ := Option.ite_none_right_eq_some.mp hs
      cases he
      obtain ⟨log, hlog, hscript⟩ := h.up hup
      rw [hout] at hscript
      have hlen : (a.sent.modify (a.sent.length - 1) (· ++ [q])).length = a.sent.length := List.length_modify ..
      refine ⟨fun hg => ?_, fun _ => ?_, fun k log' hk => ?_⟩
      · have hg : a.phase = .greeting := hg
        rw [hup] at hg
        cases hg
      · refine ⟨log ++ [q], ?_, by simpa using hscript⟩
        rw [hlen, List.getElem?_modify, hlog]
        simp
      · have hk : (a.sent.modify (a.sent.length - 1) (· ++ [q]))[k]? = some log' := hk
        rw [List.getElem?_modify] at hk
        split at hk
        · rename_i hlast
          rw [← hlast, hlog] at hk
          cases hk
          exact ⟨_, hscript, by simp⟩
        · exact h.sent k log' (by simpa using hk)
  | stream y e =>
    obtain ⟨s, hy, hs⟩ := Option.bind_eq_some_iff.mp hs
    obtain ⟨r, hr, rfl⟩ := Option.map_eq_some_iff.mp hs
    have hst := Stream.step_cases hr
    refine h.say rfl rfl (r.2.map (some y, ·)) rfl (fun p hp => ?_) fun hg => ?_
    · obtain ⟨m, hm, rfl⟩ := List.mem_map.mp hp
      exact hst.says m hm
    · cases hf : s.finished with
      | false =>
        have hup := (hS.live y s hy hf).1
        rw [hg] at hup
        cases hup
      | true =>
        have hne : e ≠ .dialed := by
          rintro rfl
          exact absurd (hf.symm.trans (hok.1 y rfl s hy)) (by simp)
        rw [((hS.dead y s hy hf).step hst hne).2]
        rfl
  | dialFailed y text =>
    obtain ⟨s, hy, hs⟩ := Option.bind_eq_some_iff.mp hs
    obtain ⟨-, he⟩ := Option.ite_none_right_eq_some.mp hs
    cases he
    obtain ⟨h1, h2, -, h4⟩ := finishing_frame a y s (s.dialFailed text)
    refine h.say h1 h2 _ h4 (by simp [Stream.dialFailed, Message.isControl]) fun hg => ?_
    have hup := (hS.live y s hy (hok.1 y rfl s hy)).1
    rw [hg] at hup
    cases hup
  | gathered y =>
    obtain ⟨s, hy, hs⟩ := Option.bind_eq_some_iff.mp hs
    obtain ⟨-, he⟩ := Option.ite_none_right_eq_some.mp hs
    cases he
    obtain ⟨h1, h2, -, h4⟩ := finishing_frame a y s (s.gathered, [])
    exact h.say h1 h2 _ h4 (by simp) fun _ => rfl

/-- In a calm run every session says HELLO first, then asks for the tunnels in their order, and then only streams
speak. -/
theorem session_begins (h : Reach (ofFn (step env)) (Calm env) Starts a) {k : Nat} {log : List (Option Nat × Message)}
    (hk : a.sent[k]? = some log) : ∃ script, Script env script ∧ log <+: script := by
  refine Transcript.sent (h.invariant (I := Transcript env) ?_ ?_) k log hk
  · rintro _ rfl
    exact transcript_new
  · exact fun a e a' hr ih hok hs => ih.step (settled hr) hok hs

theorem session_begins_ssh : ∃ (a : Agent) (log : List (Option Nat × Message)), a.sent.map List.length = [4, 2] ∧
    a.sent[1]? = some log ∧ ∃ script, Script sshEnv script ∧ log <+: script := by
  obtain ⟨a, h, hl⟩ := exec_nextRun
  have hlen : 1 < a.sent.length := by
    have := congrArg List.length hl
    rw [List.length_map] at this
    rw [this]
    decide
  exact ⟨a, a.sent[1], hl, List.getElem?_eq_getElem hlen, session_begins h (List.getElem?_eq_getElem hlen)⟩

end Agent

end UpTunnel.Python
