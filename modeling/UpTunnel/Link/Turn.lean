import UpTunnel.Link.View

/-!
# UpTunnel.Link.Turn

What one event does to a whole hub, for the side of the server and the side of the agent alike.

* `Hub.TableOk`: the table holds exactly the streams that are not finished.
* `Turn`: every stream has run as `End.Run` says on the messages that the event's frames carry for
  it; `Turn.put` is the event of one stream, `Turn.of_still` one that concerns no stream.
* `AgentSession.step_turn`, `Agent.step_turn`: every event is a turn, but for the two that make a
  new stream.
-/

namespace UpTunnel

open Js Hub StreamObj EndView

/-- The table holds exactly the streams that are not finished, each under its id. -/
def Hub.TableOk {α : Type} [StreamObj α] (h : Hub α) : Prop :=
  ∀ k a, h.streams.lookup k = some a ↔ ∃ s, h.objs[a]? = some s ∧ (base s).id = k ∧ (base s).finished = false

section
variable {α : Type} [EndView α] {h h' h'' : Hub α}

/-- Up to pauses, `t` is `s`. -/
structure Same (s t : α) : Prop where
  core : (base t).core = (base s).core
  view : ∀ e, View s e → View t e

theorem Same.refl (s : α) : Same s s := ⟨rfl, fun _ h => h⟩

theorem Same.trans {s t u : α} (h : Same s t) (h' : Same t u) : Same s u :=
  ⟨h'.core.trans h.core, fun e he => h'.view e (h.view e he)⟩

theorem Same.pause (b : Bool) (s : α) : Same s (setGlobalPause b s) :=
  ⟨by rw [base_pause]; exact Endpoint.core_setGlobalPause b _, fun _ => view_pause⟩

theorem Same.kept {s t : α} (h : Same s t) : (base s).Kept (base t) := .of_core h.core (.refl _)

theorem Same.id {s t : α} (h : Same s t) : (base t).id = (base s).id := h.kept.id

theorem Same.finished {s t : α} (h : Same s t) : (base t).finished = (base s).finished :=
  congrArg (·.finished) h.core

/-- The streams are as before, up to pauses. -/
structure Still (h h' : Hub α) (fs : List Frame) : Prop where
  objs : ∃ f : Nat → α → α, (∀ b, h'.objs[b]? = h.objs[b]?.map (f b)) ∧ ∀ b s, Same s (f b s)
  streams : h'.streams = h.streams
  wire : h.wire.Does h'.wire fs

theorem Still.refl (h : Hub α) : Still h h [] :=
  ⟨⟨fun _ s => s, fun b => by simp, fun _ s => .refl s⟩, rfl, .refl _⟩

theorem Still.trans {fs gs : List Frame} (hs : Still h h' fs) (hs' : Still h' h'' gs) : Still h h'' (fs ++ gs) := by
  obtain ⟨f, h1, h2⟩ := hs.objs
  obtain ⟨g, h3, h4⟩ := hs'.objs
  refine ⟨⟨fun b s => g b (f b s), fun b => ?_, fun b s => (h2 b s).trans (h4 b _)⟩, hs'.streams.trans hs.streams,
    hs.wire.trans hs'.wire⟩
  rw [h3, h1, Option.map_map]
  rfl

theorem Still.send (env : WireEnv) (h : Hub α) (f : Frame) : Still h (h.send env f) [f] := by
  refine ⟨?_, streams_send f, by rw [wire_send]; exact .send env _ f⟩
  unfold Hub.send
  dsimp only
  split
  · exact ⟨_, fun b => getElem?_pauseAll true b, fun b s => by
      split
      · exact .pause true s
      · exact .refl s⟩
  · exact (Still.refl h).objs

theorem Still.clearCongestion (h : Hub α) : Still h h.clearCongestion [] := by
  refine ⟨?_, streams_clearCongestion, by rw [wire_clearCongestion]; exact ⟨by simp, rfl, rfl, rfl⟩⟩
  unfold Hub.clearCongestion
  dsimp only
  split
  · exact (Still.refl h).objs
  · exact ⟨_, fun b => getElem?_pauseAll false b, fun b s => by
      split
      · exact .pause false s
      · exact .refl s⟩

theorem Still.poll (env : WireEnv) (h : Hub α) (buffered : Nat) : Still h (h.poll env buffered) [] := by
  unfold Hub.poll
  split
  · exact .clearCongestion h
  · exact .refl h

/-- A new stream enters the table, under an id that no other has. -/
theorem TableOk.insert (hT : h.TableOk) {id : Nat} {s : α} {f : Nat → α → α}
    (hnone : ∀ (b : Nat) (t : α), h.objs[b]? = some t → (base t).id = id → (base t).finished = true)
    (hstreams : h'.streams = h.streams.insert id h.objs.length)
    (hobjs : ∀ b, h'.objs[b]? = if b = h.objs.length then some s else h.objs[b]?.map (f b))
    (hsame : ∀ b t, Same t (f b t)) (hid : (base s).id = id) (hf : (base s).finished = false) : h'.TableOk := by
  intro k b
  rw [hstreams, hobjs, Dict.lookup_insert_ite]
  by_cases hb : b = h.objs.length
  · subst hb
    simp only [if_true, Option.some.injEq, exists_eq_left', hid, hf, and_true]
    split
    · rename_i hk
      simp [hk]
    · rename_i hk
      refine ⟨fun h1 => ?_, fun h1 => absurd h1.symm hk⟩
      obtain ⟨t, ht, -⟩ := (hT k _).mp h1
      simp at ht
  · simp only [if_neg hb]
    have hold : (∃ t, h.objs[b]?.map (f b) = some t ∧ (base t).id = k ∧ (base t).finished = false) ↔
        ∃ t, h.objs[b]? = some t ∧ (base t).id = k ∧ (base t).finished = false := by
      constructor
      · rintro ⟨t, ht, h2, h3⟩
        obtain ⟨u, hu, rfl⟩ := Option.map_eq_some_iff.mp ht
        exact ⟨u, hu, (hsame b u).id.symm.trans h2, (hsame b u).finished.symm.trans h3⟩
      · rintro ⟨u, hu, h2, h3⟩
        exact ⟨f b u, by rw [hu]; rfl, (hsame b u).id.trans h2, (hsame b u).finished.trans h3⟩
    rw [hold]
    split
    · rename_i hk
      refine ⟨fun h1 => absurd (Option.some.inj h1).symm hb, ?_⟩
      rintro ⟨t, ht, h2, h3⟩
      have := hnone b t ht (h2.trans hk)
      simp [this] at h3
    · exact hT k b

theorem Still.table {fs : List Frame} (hst : Still h h' fs) (hT : h.TableOk) : h'.TableOk := by
  obtain ⟨f, h1, h2⟩ := hst.objs
  intro k b
  rw [hst.streams, h1]
  refine (hT k b).trans ⟨?_, ?_⟩
  · rintro ⟨s, hs, h3, h4⟩
    exact ⟨f b s, by rw [hs]; rfl, (h2 b s).id.trans h3, (h2 b s).finished.trans h4⟩
  · rintro ⟨t, ht, h3, h4⟩
    obtain ⟨s, hs, rfl⟩ := Option.map_eq_some_iff.mp ht
    exact ⟨s, hs, (h2 b s).id.symm.trans h3, (h2 b s).finished.symm.trans h4⟩

/-! ## Turns -/

/-- An event has consumed the frames `ins` and sent `fs`. A stream it is not about may be unaware
of messages for its id: it is finished, and another stream has the id now. -/
structure Turn (h h' : Hub α) (f : Nat → α → α) (ins fs : List Frame) : Prop where
  objs : ∀ b, h'.objs[b]? = h.objs[b]?.map (f b)
  table : h'.TableOk
  received : h'.wire.received = h.wire.received ++ ins
  sent : h'.wire.sent = h.wire.sent ++ h.wire.passed fs
  canSend : h'.wire.canSend = true → h.wire.canSend = true
  kept : ∀ b s, h.objs[b]? = some s → (base s).Kept (base (f b s))
  names : ∀ g ∈ fs, ∀ k, g.streamId? = some k →
    (∃ (a : Nat) (s : α), h.objs[a]? = some s ∧ (base s).id = k ∧ (base s).finished = false) ∨
      (msg? k g = some .reset ∧ ∃ i ∈ ins, i.streamId? = some k)
  noOpen : ∀ g ∈ fs, ∀ k payload, g ≠ .stream FrameType.streamOpen k payload
  view : ∀ b s, h.objs[b]? = some s → ∀ e, View s e → ∃ e', View (f b s) e' ∧
    (e.Run (msgs (base s).id ins) e' (msgs (base s).id fs) ∨
      e' = e ∧ (base s).finished = true ∧
        ∃ (a : Nat) (t : α), h.objs[a]? = some t ∧ (base t).id = (base s).id ∧ (base t).finished = false)

/-- No message of an event on `s` is for a stream with another id. -/
theorem msgs_names {k k' : Nat} {fs : List Frame} (h : Names k fs) (hne : k' ≠ k) : msgs k' fs = [] := by
  refine msgs_of_ne fun f hf => ?_
  obtain ⟨type, payload, rfl, -⟩ := h f hf
  simpa using fun e => hne e.symm

variable {env : WireEnv}

/-- An event of the stream at `a`, whose socket the event may have changed before the method runs
that makes it `r.1`. -/
theorem Turn.put (hT : h.TableOk) {a : Nat} {s s1 : α} {r : α × Wire} {ins fs : List Frame} {h1 : Hub α}
    (hs : h.objs[a]? = some s) (hself : h1.objs[a]? = some s1)
    (hother : ∀ b, b ≠ a → h1.objs[b]? = h.objs[b]?) (hstreams : h1.streams = h.streams)
    (hwire : h1.wire = { h.wire with received := h.wire.received ++ ins })
    (hid : (base s1).id = (base s).id) (hfin : (base s1).finished = (base s).finished)
    (hins : ∀ i ∈ ins, i.streamId? = none ∨ i.streamId? = some (base s).id ∧ (base s).finished = false)
    (hA : Acted s r.1 h1.wire r.2 ins fs) : ∃ f, Turn h (h1.put a s1 r) f ins fs := by
  let f : Nat → α → α := fun b t =>
    if b = a then r.1 else if r.2.congested && !h1.wire.congested && h1.listed b then setGlobalPause true t else t
  have hf : ∀ b, b ≠ a → ∀ t, Same t (f b t) := by
    intro b hb t
    simp only [f, if_neg hb]
    split
    · exact .pause true t
    · exact .refl t
  have hget : ∀ b, (h1.put a s1 r).objs[b]? = h.objs[b]?.map (f b) := by
    intro b
    by_cases hb : b = a
    · subst hb
      rw [getElem?_put_self r hself, hs]
      simp [f]
    · rw [getElem?_put_ne r hb, hother b hb]
      simp only [f, if_neg hb]
  have hself : f a s = r.1 := by simp [f]
  -- only one stream that is not finished has the id
  have huniq : ∀ b t, h.objs[b]? = some t → (base t).id = (base s).id → (base t).finished = false →
      (base s).finished = false → b = a := by
    intro b t ht hk htf hsf
    have h2 := (hT (base s).id b).mpr ⟨t, ht, hk, htf⟩
    have h3 := (hT (base s).id a).mpr ⟨s, hs, rfl, hsf⟩
    exact Option.some.inj (h2.symm.trans h3)
  have hnone : (base s).finished = true → ∀ k, msgs k ins = [] ∧ msgs k fs = [] := by
    intro hsf k
    refine ⟨msgs_of_ne fun i hi => ?_, by rw [hA.silent hsf, msgs_nil]⟩
    rcases hins i hi with h2 | h2
    · simp [h2]
    · simp [h2.2] at hsf
  refine ⟨f, hget, ?_, ?_, ?_, ?_, ?_, ?_, ?_, ?_⟩
  · -- the table
    intro k b
    have hkeep := hA.kept
    by_cases hb : b = a
    · subst hb
      rw [hget, hs]
      simp only [Option.map_some, Option.some.injEq, exists_eq_left', hself]
      rw [hkeep.id]
      simp only [Hub.put, hstreams, hid, hfin]
      cases hsf : (base s).finished with
      | true =>
        rw [hkeep.finished hsf]
        simp only [Bool.not_true, Bool.and_false, Bool.false_eq_true, if_false]
        rw [hT k b, hs]
        simp [hsf]
      | false =>
        have hlook := hT k b
        rw [hs] at hlook
        simp only [Option.some.injEq, exists_eq_left', hsf, and_true] at hlook
        cases hrf : (base r.1).finished with
        | true =>
          simp only [Bool.not_false, Bool.and_self, if_true, Dict.lookup_erase_ite]
          by_cases hk : k = (base s).id
          · simp [hk]
          · simp only [if_neg hk, hlook]
            simp [Ne.symm hk]
        | false => simpa using hlook
    · have hsame : (∃ t, (h1.put a s1 r).objs[b]? = some t ∧ (base t).id = k ∧ (base t).finished = false) ↔
          ∃ t, h.objs[b]? = some t ∧ (base t).id = k ∧ (base t).finished = false := by
        rw [hget]
        constructor
        · rintro ⟨t, ht, h2, h3⟩
          obtain ⟨u, hu, rfl⟩ := Option.map_eq_some_iff.mp ht
          exact ⟨u, hu, (hf b hb u).id.symm.trans h2, (hf b hb u).finished.symm.trans h3⟩
        · rintro ⟨u, hu, h2, h3⟩
          exact ⟨f b u, by rw [hu]; rfl, (hf b hb u).id.trans h2, (hf b hb u).finished.trans h3⟩
      rw [hsame, ← hT k b]
      simp only [Hub.put, hstreams, hid, hfin]
      split
      · rename_i hfin2
        simp only [Bool.and_eq_true, Bool.not_eq_true'] at hfin2
        rw [Dict.lookup_erase_ite]
        split
        · rename_i hk
          refine ⟨fun h2 => by simp at h2, fun h2 => absurd ?_ hb⟩
          have h3 := (hT (base s).id a).mpr ⟨s, hs, rfl, hfin2.2⟩
          rw [hk] at h2
          exact Option.some.inj (h2.symm.trans h3)
        · rfl
      · rfl
  · rw [show (h1.put a s1 r).wire = r.2 from rfl, hA.wire.received, hwire]
  · rw [show (h1.put a s1 r).wire = r.2 from rfl, hA.wire.sent, hwire]
    rfl
  · intro hc
    have h2 : r.2.canSend = true := hc
    rw [hA.wire.canSend, hwire] at h2
    exact h2
  · intro b t ht
    by_cases hb : b = a
    · subst hb
      rw [hs] at ht
      cases ht
      rw [hself]
      exact hA.kept
    · exact (hf b hb t).kept
  · intro g hg k hk
    obtain ⟨type, payload, rfl, -⟩ := hA.names g hg
    refine .inl ⟨a, s, hs, by simpa using hk, ?_⟩
    by_contra hsf
    rw [hA.silent ((Bool.not_eq_false _).mp hsf)] at hg
    cases hg
  · intro g hg k payload he
    obtain ⟨type, payload', rfl, hne⟩ := hA.names g hg
    cases he
    exact hne rfl
  · intro b t ht e he
    by_cases hb : b = a
    · subst hb
      rw [hs] at ht
      cases ht
      rw [hself]
      obtain ⟨e', he', hrun⟩ := hA.view e he
      exact ⟨e', he', .inl hrun⟩
    · refine ⟨e, (hf b hb t).view e he, ?_⟩
      by_cases hk : (base t).id = (base s).id
      · cases hsf : (base s).finished with
        | true =>
          obtain ⟨h2, h3⟩ := hnone hsf (base t).id
          rw [h2, h3]
          exact .inl .refl
        | false =>
          cases htf : (base t).finished with
          | true => exact .inr ⟨rfl, rfl, a, s, hs, hk.symm, hsf⟩
          | false => exact absurd (huniq b t ht hk htf hsf) hb
      · have h2 : msgs (base t).id ins = [] := msgs_of_ne fun i hi => by
          rcases hins i hi with h2 | h2
          · simp [h2]
          · rw [h2.1]
            simpa using fun e => hk e.symm
        rw [h2, msgs_names hA.names hk]
        exact .inl .refl

/-- An event that is about no stream, or about an id that the table does not hold. -/
theorem Turn.of_still (hT : h.TableOk) (ins : List Frame) {fs : List Frame}
    (hst : Still { h with wire := { h.wire with received := h.wire.received ++ ins } } h' fs)
    (hnames : ∀ g ∈ fs, ∀ k, g.streamId? = some k → msg? k g = some .reset ∧ ∃ i ∈ ins, i.streamId? = some k)
    (hnoOpen : ∀ g ∈ fs, ∀ k payload, g ≠ .stream FrameType.streamOpen k payload)
    (hrun : ∀ (b : Nat) (s : α), h.objs[b]? = some s → ∀ e : End UInt8, e.finished = (base s).finished →
      e.Run (msgs (base s).id ins) e (msgs (base s).id fs)) : ∃ f, Turn h h' f ins fs := by
  obtain ⟨f, h1, h2⟩ := hst.objs
  refine ⟨f, h1, hst.table hT, hst.wire.received, hst.wire.sent, ?_, fun b s _ => (h2 b s).kept,
    fun g hg k hk => .inr (hnames g hg k hk), hnoOpen,
    fun b s hs e he => ⟨e, (h2 b s).view e he, .inl (hrun b s hs e (view_finished he))⟩⟩
  intro hc
  rw [hst.wire.canSend] at hc
  exact hc

/-- Nothing the event says is for a stream. -/
theorem Turn.of_control (hT : h.TableOk) (ins : List Frame) {fs : List Frame}
    (hst : Still { h with wire := { h.wire with received := h.wire.received ++ ins } } h' fs)
    (hins : ∀ i ∈ ins, ∀ k, msg? k i = none) (hfs : ∀ g ∈ fs, g.streamId? = none) : ∃ f, Turn h h' f ins fs := by
  refine Turn.of_still hT ins hst (fun g hg k hk => by simp [hfs g hg] at hk)
    (fun g hg k payload he => by have h1 := hfs g hg; simp [he] at h1) fun b s _ e _ => ?_
  have h1 : msgs (base s).id ins = [] := by
    simpa [msgs, List.filterMap_eq_nil_iff] using fun i hi => hins i hi (base s).id
  have h2 : msgs (base s).id fs = [] := msgs_of_ne fun g hg => by simp [hfs g hg]
  rw [h1, h2]
  exact .refl

/-- A frame that means nothing. -/
theorem Turn.ignored (hT : h.TableOk) (i : Frame)
    (hh : h' = { h with wire := { h.wire with received := h.wire.received ++ [i] } })
    (hi : ∀ k, msg? k i = none) : ∃ f fs, Turn h h' f [i] fs := by
  subst hh
  obtain ⟨f, hf⟩ := Turn.of_control hT [i] (Still.refl _)
    (fun j hj k => by rw [List.mem_singleton.mp hj]; exact hi k) (by simp)
  exact ⟨f, [], hf⟩

/-- A frame for an id that the table does not hold, answered with a STREAM_RESET unless it is one. -/
theorem Turn.unknown (hT : h.TableOk) {type id : Nat} {payload : Bytes} (hn : h.streams.lookup id = none)
    {h1 : Hub α}
    (hh1 : h1 = { h with wire := { h.wire with received := h.wire.received ++ [.stream type id payload] } }) :
    ∃ f fs, Turn h (if type ≠ FrameType.streamReset then h1.send env (.reset id "unknown_stream") else h1) f
      [.stream type id payload] fs := by
  have hdrop : ∀ (fs : List Frame), (∀ k, ∀ m ∈ msgs k fs, m = .reset) → (∀ k, k ≠ id → msgs k fs = []) →
      ∀ (b : Nat) (s : α), h.objs[b]? = some s → ∀ e : End UInt8, e.finished = (base s).finished →
      e.Run (msgs (base s).id [.stream type id payload]) e (msgs (base s).id fs) := by
    intro fs hreset hother b s hs e he
    by_cases hk : (base s).id = id
    · have hsf : (base s).finished = true := by
        by_contra hsf
        rw [(hT id b).mpr ⟨s, hs, hk, (Bool.not_eq_true _).mp hsf⟩] at hn
        cases hn
      rw [msgs_singleton]
      exact .discard (he.trans hsf) (hreset _) _
    · have h1 : msgs (base s).id [.stream type id payload] = [] := msgs_of_ne fun i hi => by
        rw [List.mem_singleton.mp hi]
        simpa using fun e => hk e.symm
      rw [h1, hother _ hk]
      exact .refl
  split
  · have hreset : ∀ k, ∀ m ∈ msgs k [.reset id "unknown_stream"], m = .reset := by
      intro k m hm
      by_cases hk : k = id
      · subst hk
        simpa [msgs_singleton] using hm
      · simp [msgs_singleton, msg?_of_ne (k := k) (f := .reset id "unknown_stream") (by simpa using Ne.symm hk)] at hm
    have hother : ∀ k, k ≠ id → msgs k [.reset id "unknown_stream"] = [] := by
      intro k hk
      rw [msgs_singleton, msg?_of_ne (by simpa using Ne.symm hk)]
      rfl
    have hnames : ∀ g ∈ [Frame.reset id "unknown_stream"], ∀ k, g.streamId? = some k →
        msg? k g = some .reset ∧ ∃ i ∈ [Frame.stream type id payload], i.streamId? = some k := by
      intro g hg k hk
      rw [List.mem_singleton.mp hg] at hk ⊢
      cases hk
      exact ⟨msg?_reset _, _, List.mem_singleton_self _, rfl⟩
    have hnoOpen : ∀ g ∈ [Frame.reset id "unknown_stream"], ∀ k payload, g ≠ .stream FrameType.streamOpen k payload := by
      intro g hg k payload he
      rw [List.mem_singleton.mp hg] at he
      cases he
    obtain ⟨f, hf⟩ : ∃ f, Turn h (h1.send env (.reset id "unknown_stream")) f [.stream type id payload]
        [.reset id "unknown_stream"] := Turn.of_still hT _
      (hh1 ▸ Still.send env h1 (.reset id "unknown_stream")) hnames hnoOpen (hdrop _ hreset hother)
    exact ⟨f, _, hf⟩
  · obtain ⟨f, hf⟩ : ∃ f, Turn h h1 f [.stream type id payload] [] := Turn.of_still hT _ (hh1 ▸ .refl _)
      (by simp) (by simp) (hdrop [] (by simp) (by simp))
    exact ⟨f, _, hf⟩

/-- The WebSocket is no longer open. -/
theorem Turn.notOpen (hT : h.TableOk) :
    Turn h { h with wire := { h.wire with readyOpen := false } } (fun _ s => s) [] [] where
  objs b := by simp
  table := hT
  received := by simp
  sent := by simp
  canSend hc := by simp [Wire.canSend] at hc
  kept b s _ := .refl _
  names := by simp
  noOpen := by simp
  view b s _ e he := ⟨e, he, .inl .refl⟩

/-- A teardown: the streams in the table are aborted, and nothing is sent any more. -/
theorem Turn.abort (hT : h.TableOk) {h1 : Hub α} {F : α → α}
    (hF : ∀ s, (base (F s)).finished = true ∧ (base s).Kept (base (F s)) ∧
      ∀ e, View s e → ∃ e', View (F s) e' ∧ e.Run [] e' [])
    (h1objs : ∃ f : Nat → α → α, (∀ b, h1.objs[b]? = h.objs[b]?.map (f b)) ∧ ∀ b s, Same s (f b s))
    (h1streams : h1.streams = h.streams)
    (hobjs : ∀ x, h'.objs[x]? = if x ∈ h1.streams.values then h1.objs[x]?.map F else h1.objs[x]?)
    (hstreams : h'.streams = ∅) (hreceived : h'.wire.received = h.wire.received)
    (hsent : h'.wire.sent = h.wire.sent) (hopen : h'.wire.canSend = false) : ∃ f, Turn h h' f [] [] := by
  obtain ⟨g, hg1, hg2⟩ := h1objs
  let f : Nat → α → α := fun b s => if b ∈ h.streams.values then F (g b s) else g b s
  have hf : ∀ b, h'.objs[b]? = h.objs[b]?.map (f b) := by
    intro b
    rw [hobjs, hg1, h1streams]
    split
    · rename_i hb
      rw [Option.map_map]
      simp only [f, if_pos hb]
      rfl
    · rename_i hb
      simp only [f, if_neg hb]
  refine ⟨f, hf, ?_, by simpa using hreceived, by simpa using hsent, by simp [hopen], ?_, by simp, by simp, ?_⟩
  · intro k b
    rw [hstreams, hf]
    refine ⟨fun h2 => by simp at h2, ?_⟩
    rintro ⟨t, ht, h2, h3⟩
    obtain ⟨s, hs, rfl⟩ := Option.map_eq_some_iff.mp ht
    exfalso
    by_cases hb : b ∈ h.streams.values
    · simp only [f, if_pos hb, (hF _).1, reduceCtorEq] at h3
    · simp only [f, if_neg hb, (hg2 b s).finished] at h3
      exact hb (Dict.mem_values.mpr ⟨_, (hT _ b).mpr ⟨s, hs, rfl, h3⟩⟩)
  · intro b s _
    simp only [f]
    split
    · have h2 := (hg2 b s).kept
      have h3 := (hF (g b s)).2.1
      exact ⟨h3.id.trans h2.id, h3.sentBefore.trans h2.sentBefore, h3.receivedBefore.trans h2.receivedBefore,
        fun hfin => h3.finished (h2.finished hfin)⟩
    · exact (hg2 b s).kept
  · intro b s _ e he
    have h2 := (hg2 b s).view e he
    simp only [f]
    split
    · obtain ⟨e', he', hrun⟩ := (hF (g b s)).2.2 e h2
      exact ⟨e', he', .inl hrun⟩
    · exact ⟨e, h2, .inl .refl⟩

/-- `put` where the method does not throw. -/
theorem Turn.call (hT : h.TableOk) (h1 : Hub α) {a : Nat} {s s1 : α} {ins : List Frame}
    (hs : h.objs[a]? = some s) (hself : h1.objs[a]? = some s1)
    (hother : ∀ b, b ≠ a → h1.objs[b]? = h.objs[b]?) (hstreams : h1.streams = h.streams)
    (hwire : h1.wire = { h.wire with received := h.wire.received ++ ins })
    (hid : (base s1).id = (base s).id) (hfin : (base s1).finished = (base s).finished)
    (hins : ∀ i ∈ ins, i.streamId? = none ∨ i.streamId? = some (base s).id ∧ (base s).finished = false)
    {m : α → Wire → Bool → α × Wire}
    (hA : ∀ l, ∃ fs, Acted s (m s1 h1.wire l).1 h1.wire (m s1 h1.wire l).2 ins fs) :
    ∃ f fs, Turn h (h1.call a m) f ins fs := by
  obtain ⟨fs, hA⟩ := hA (h1.listed a)
  simp only [Hub.call, hself]
  obtain ⟨f, hf⟩ := Turn.put hT hs hself hother hstreams hwire hid hfin hins hA
  exact ⟨f, fs, hf⟩

/-- `put` where the method may throw. -/
theorem Turn.run (hT : h.TableOk) (h1 : Hub α) {a : Nat} {s s1 : α} {ins : List Frame}
    (hs : h.objs[a]? = some s) (hself : h1.objs[a]? = some s1)
    (hother : ∀ b, b ≠ a → h1.objs[b]? = h.objs[b]?) (hstreams : h1.streams = h.streams)
    (hwire : h1.wire = { h.wire with received := h.wire.received ++ ins })
    (hid : (base s1).id = (base s).id) (hfin : (base s1).finished = (base s).finished)
    (hins : ∀ i ∈ ins, i.streamId? = none ∨ i.streamId? = some (base s).id ∧ (base s).finished = false)
    {m : α → Wire → Bool → Except JsError (α × Wire)}
    (hA : ∀ l r, m s1 h1.wire l = .ok r → ∃ fs, Acted s r.1 h1.wire r.2 ins fs) (hr : h1.run a m = .ok h') :
    ∃ f fs, Turn h h' f ins fs := by
  simp only [Hub.run, hself] at hr
  obtain ⟨r, hm, rfl⟩ := map_ok.mp hr
  obtain ⟨fs, hA⟩ := hA _ _ hm
  obtain ⟨f, hf⟩ := Turn.put hT hs hself hother hstreams hwire hid hfin hins hA
  exact ⟨f, fs, hf⟩

end

/-! ## The server -/

namespace AgentSession

variable {env : WireEnv} {streamWindow : Int} {s s' : AgentSession} {h h1 h' : Hub Stream} {a : Nat}

/-- An event of the public socket of the stream at `a`. -/
theorem onSocket_some {p : Socket → Option Socket} (hs : onSocket h a p = some h') :
    ∃ t k, h.objs[a]? = some t ∧ p t.socket = some k ∧ h'.objs[a]? = some { t with socket := k } ∧
      (∀ b, b ≠ a → h'.objs[b]? = h.objs[b]?) ∧ h'.streams = h.streams ∧
      h'.wire = { h.wire with received := h.wire.received ++ [] } := by
  unfold onSocket at hs
  split at hs
  · cases hs
  · rename_i t ht
    obtain ⟨k, hk, rfl⟩ := Option.map_eq_some_iff.mp hs
    exact ⟨t, k, ht, hk, List.getElem?_set_self (List.getElem?_eq_some_iff.mp ht).1,
      fun b hb => List.getElem?_set_ne (Ne.symm hb), rfl, by simp⟩

theorem onSocket_wire {p : Socket → Option Socket} (hs : onSocket h a p = some h') : h'.wire = h.wire := by
  obtain ⟨-, -, -, -, -, -, -, hw⟩ := onSocket_some hs
  simpa using hw

/-- A frame for a stream that the table holds. -/
theorem listed_turn (hT : h.TableOk) {type id : Nat} {payload : Bytes} {flushed : Bool}
    (ha : h.streams.lookup id = some a)
    (hs : handleStreamFrame env { h with wire := { h.wire with received := h.wire.received ++
      [.stream type id payload] } } type id payload flushed = .ok h') :
    ∃ f fs, Turn h h' f [.stream type id payload] fs := by
  obtain ⟨t, ht, rfl, hf⟩ := (hT id a).mp ha
  change t.finished = false at hf
  have hins : ∀ i ∈ [Frame.stream type t.id payload],
      i.streamId? = none ∨ i.streamId? = some t.id ∧ t.finished = false := by
    intro i hi
    rw [List.mem_singleton.mp hi]
    exact .inr ⟨rfl, hf⟩
  have hcall : ∀ {m : Stream → Wire → Bool → Stream × Wire} (w : Wire), w = { h.wire with received :=
      h.wire.received ++ [.stream type t.id payload] } →
      (∀ l, ∃ fs, Acted t (m t w l).1 w (m t w l).2 [.stream type t.id payload] fs) →
      ∃ f fs, Turn h (Hub.call { h with wire := w } a m) f [.stream type t.id payload] fs :=
    fun w hw hA => Turn.call hT { h with wire := w } ht ht (fun _ _ => rfl) rfl hw rfl rfl hins hA
  have hrun : ∀ {m : Stream → Wire → Bool → Except JsError (Stream × Wire)} (w : Wire), w = { h.wire with received :=
      h.wire.received ++ [.stream type t.id payload] } →
      (∀ l r, m t w l = .ok r → ∃ fs, Acted t r.1 w r.2 [.stream type t.id payload] fs) →
      Hub.run { h with wire := w } a m = .ok h' → ∃ f fs, Turn h h' f [.stream type t.id payload] fs :=
    fun w hw hA => Turn.run hT { h with wire := w } ht ht (fun _ _ => rfl) rfl hw rfl rfl hins hA
  unfold handleStreamFrame at hs
  simp only [ha] at hs
  split at hs
  · rename_i htype
    subst htype
    refine hrun _ rfl (fun l r hm => ?_) hs
    obtain ⟨c', hc', rfl⟩ := map_ok.mp hm
    exact Stream.onData_acted (c := ⟨t, _, l⟩) hf hc'
  · split at hs
    · rename_i htype
      subst htype
      refine hrun _ rfl (fun l r hm => ?_) hs
      obtain ⟨c', hc', rfl⟩ := map_ok.mp hm
      exact Stream.onEof_acted (c := ⟨t, _, l⟩) hf hc'
    · split at hs
      · rename_i htype
        subst htype
        cases hs
        split
        · rename_i hlen
          exact hcall _ rfl fun l => ⟨[], Stream.acted_of_moved (.nil _) (.refl _) (Endpoint.onAck_moved hf hlen)⟩
        · rename_i hlen
          exact Turn.ignored hT _ rfl fun k => msg?_short hlen
      · split at hs
        · rename_i htype
          subst htype
          cases hs
          refine hcall _ rfl fun l => ?_
          obtain ⟨fs, hn, hw, hm⟩ := Ctx.destroy_moved env (c := ⟨t, { h.wire with received :=
            h.wire.received ++ [.stream FrameType.streamReset t.id payload] }, l⟩) "peer_reset"
            [.stream FrameType.streamReset t.id payload] (fun h1 => by simp [hf] at h1) (by simp [msgs_singleton])
          exact ⟨fs, Stream.acted_of_moved hn hw hm⟩
        · rename_i h1 h2 h3 h4
          cases hs
          exact Turn.ignored hT _ rfl fun k => by simp [msg?, h1, h2, h3, h4]

theorem destroy_turn (hT : s.toHub.TableOk) : ∃ f fs, Turn s.toHub (s.destroy env).toHub f [] fs := by
  unfold destroy
  split
  · obtain ⟨f, hf⟩ : ∃ f, Turn s.toHub s.toHub f [] [] :=
      Turn.of_control hT [] (by simpa using Still.refl s.toHub) (by simp) (by simp)
    exact ⟨f, [], hf⟩
  · let h0 : Hub Stream := { s.toHub with wire := { s.wire with closed := true } }
    have hw : h0.clearCongestion.wire.canSend = false := by simp [wire_clearCongestion, Wire.canSend, h0]
    have hm : ∀ (t : Stream) (l : Bool), method (fun c => c.destroy env "agent_gone") t h0.clearCongestion.wire l =
        (t.aborted, h0.clearCongestion.wire) := by
      intro t l
      simp [method, Ctx.destroy_silent env (c := ⟨t, h0.clearCongestion.wire, l⟩) (.inr hw)]
    obtain ⟨h1, h2⟩ := foldl_call hm Endpoint.aborted_aborted h0.clearCongestion.streams.values rfl
    have hF : ∀ t : Stream, t.aborted.finished = true ∧ t.Kept t.aborted ∧
        ∀ e, View t e → ∃ e', View t.aborted e' ∧ e.Run [] e' [] := fun t =>
      ⟨t.finished_aborted, t.aborted_moved.kept,
        (Stream.acted_of_moved (w := s.wire) (.nil _) (.refl _) t.aborted_moved).view⟩
    let h3 : Hub Stream := { h0.clearCongestion.streams.values.foldl
      (fun h a => h.call a (method fun c => c.destroy env "agent_gone")) h0.clearCongestion with streams := ∅ }
    obtain ⟨f, hf⟩ : ∃ f, Turn s.toHub h3 f [] [] := Turn.abort hT
      hF (Still.clearCongestion h0).objs streams_clearCongestion h2 rfl
      (by rw [h1, wire_clearCongestion]) (by rw [h1, wire_clearCongestion]) (by rw [h1, hw])
    exact ⟨f, [], hf⟩

theorem step_turn (hT : s.toHub.TableOk) {e : Event}
    (he : ∀ tunnelId remoteAddr chunks, e ≠ .accept tunnelId remoteAddr chunks)
    (hs : step env streamWindow s e = some s') :
    ∃ f ins fs, Turn s.toHub s'.toHub f ins fs ∧ (∀ g flushed, e = .frame g flushed → ins = [g]) ∧
      ((∀ g flushed, e ≠ .frame g flushed) → ins = []) := by
  have key : ∀ {h : Hub Stream}, (∃ f fs, Turn s.toHub h f [] fs) → (∀ g flushed, e ≠ .frame g flushed) →
      s'.toHub = h → ∃ f ins fs, Turn s.toHub s'.toHub f ins fs ∧ (∀ g flushed, e = .frame g flushed → ins = [g]) ∧
      ((∀ g flushed, e ≠ .frame g flushed) → ins = []) := by
    rintro h ⟨f, fs, hf⟩ hne rfl
    exact ⟨f, [], fs, hf, fun g flushed h1 => absurd h1 (hne g flushed), fun _ => rfl⟩
  cases e with
  | accept tunnelId remoteAddr chunks => exact absurd rfl (he tunnelId remoteAddr chunks)
  | data a chunk =>
    obtain ⟨h1, hh, rfl⟩ := Option.map_eq_some_iff.mp hs
    obtain ⟨t, k, ht, hk, hself, hother, hstreams, hwire⟩ := onSocket_some hh
    refine key (Turn.call hT _ ht hself hother hstreams hwire rfl rfl (by simp) fun l => ?_) (by simp) rfl
    split at hk
    · rename_i hread
      cases hk
      simp only [Socket.canRead, Bool.and_eq_true, Bool.not_eq_true'] at hread
      obtain ⟨fs, hn, hw, hm⟩ := Ctx.data_moved env (c := ⟨t, h1.wire, l⟩) chunk hread.1.2
      exact ⟨fs, Stream.acted_of_moved hn hw hm⟩
    · cases hk
  | «end» a =>
    obtain ⟨h1, hh, rfl⟩ := Option.map_eq_some_iff.mp hs
    obtain ⟨t, k, ht, hk, hself, hother, hstreams, hwire⟩ := onSocket_some hh
    refine key (Turn.call hT _ ht hself hother hstreams hwire rfl rfl (by simp) fun l => ?_) (by simp) rfl
    split at hk
    · cases hk
      obtain ⟨fs, hn, hw, hm⟩ := Ctx.end_moved env (c := ⟨t, h1.wire, l⟩)
      exact ⟨fs, Stream.acted_of_moved hn hw hm⟩
    · cases hk
  | drain a =>
    obtain ⟨h1, hh, hs1⟩ := Option.bind_eq_some_iff.mp hs
    obtain ⟨h2, hx, rfl⟩ := Option.map_eq_some_iff.mp hs1
    obtain ⟨t, k, ht, hk, hself, hother, hstreams, hwire⟩ := onSocket_some hh
    refine key (Turn.run hT _ ht hself hother hstreams hwire rfl rfl (by simp) (fun l r hm => ?_)
      (toOption_eq_some.mp hx)) (by simp) rfl
    split at hk
    · cases hk
      obtain ⟨c', hc', rfl⟩ := map_ok.mp hm
      exact Stream.onDrain_acted hc'
    · cases hk
  | error a =>
    cases hs
    refine key ?_ (by simp) rfl
    cases ht : s.objs[a]? with
    | none =>
      simp only [Hub.call, ht]
      obtain ⟨f, hf⟩ := Turn.of_control hT [] (by simpa using .refl _) (by simp) (by simp)
      exact ⟨f, [], hf⟩
    | some t =>
      refine Turn.call hT _ ht ht (fun _ _ => rfl) rfl (by simp) rfl rfl (by simp) fun l => ?_
      obtain ⟨fs, hn, hw, hm⟩ := Ctx.destroy_moved env (c := ⟨t, s.wire, l⟩) "socket_error" []
        (fun _ => rfl) (by simp)
      exact ⟨fs, Stream.acted_of_moved hn hw hm⟩
  | close a =>
    obtain ⟨h1, hh, rfl⟩ := Option.map_eq_some_iff.mp hs
    obtain ⟨t, k, ht, hk, hself, hother, hstreams, hwire⟩ := onSocket_some hh
    refine key (Turn.call hT _ ht hself hother hstreams hwire rfl rfl (by simp) fun l => ?_) (by simp) rfl
    cases hk
    obtain ⟨hm, hw⟩ := Ctx.close_moved (c := ⟨t, h1.wire, l⟩)
    exact ⟨[], Stream.acted_of_moved (.nil _) hw hm⟩
  | frame g flushed =>
    have key2 : ∀ {h : Hub Stream}, (∃ f fs, Turn s.toHub h f [g] fs) → s'.toHub = h →
        ∃ f ins fs, Turn s.toHub s'.toHub f ins fs ∧ (∀ g' flushed', Event.frame g flushed = .frame g' flushed' →
        ins = [g']) ∧ ((∀ g' flushed', Event.frame g flushed ≠ .frame g' flushed') → ins = []) := by
      rintro h ⟨f, fs, hf⟩ rfl
      refine ⟨f, [g], fs, hf, ?_, fun h1 => absurd rfl (h1 g flushed)⟩
      rintro g' flushed' h1
      cases h1
      rfl
    cases g with
    | control type body =>
      cases hs
      exact key2 (Turn.ignored hT _ rfl fun k => rfl) rfl
    | stream type id payload =>
      obtain ⟨h2, hx, rfl⟩ := Option.map_eq_some_iff.mp hs
      refine key2 ?_ rfl
      have hx := toOption_eq_some.mp hx
      cases hl : s.streams.lookup id with
      | some a => exact listed_turn hT hl hx
      | none =>
        simp only [handleStreamFrame, hl] at hx
        cases hx
        exact Turn.unknown hT hl rfl
  | control type body =>
    cases hs
    obtain ⟨f, hf⟩ := Turn.of_control hT [] (by simpa using .send env s.toHub (.control type body)) (by simp)
      (by simp)
    exact key ⟨f, _, hf⟩ (by simp) rfl
  | poll buffered =>
    simp only [step] at hs
    split at hs
    · cases hs
      obtain ⟨f, hf⟩ := Turn.of_control hT [] (by simpa using .poll env s.toHub buffered) (by simp) (by simp)
      exact key ⟨f, _, hf⟩ (by simp) rfl
    · cases hs
  | notOpen =>
    cases hs
    exact key ⟨_, _, Turn.notOpen hT⟩ (by simp) rfl
  | destroy =>
    cases hs
    exact key (destroy_turn hT) (by simp) rfl

end AgentSession

/-! ## The agent -/

namespace Agent

variable {env : WireEnv} {specs : List TunnelSpec} {a a' : Agent} {h h1 h' : Hub ClientStream} {x : Nat}

/-- An event of the local socket of the stream at `x`. -/
theorem onSocket_some {p : Socket → Option Socket} (hs : onSocket h x p = some h') :
    ∃ c k, h.objs[x]? = some c ∧ c.connected = true ∧ p c.socket = some k ∧
      h'.objs[x]? = some { c with socket := k } ∧ (∀ y, y ≠ x → h'.objs[y]? = h.objs[y]?) ∧
      h'.streams = h.streams ∧ h'.wire = { h.wire with received := h.wire.received ++ [] } := by
  unfold onSocket at hs
  split at hs
  · cases hs
  · rename_i c hc
    split at hs
    · rename_i hconn
      obtain ⟨k, hk, rfl⟩ := Option.map_eq_some_iff.mp hs
      exact ⟨c, k, hc, hconn, hk, List.getElem?_set_self (List.getElem?_eq_some_iff.mp hc).1,
        fun y hy => List.getElem?_set_ne (Ne.symm hy), rfl, by simp⟩
    · cases hs

theorem onSocket_wire {p : Socket → Option Socket} (hs : onSocket h x p = some h') : h'.wire = h.wire := by
  obtain ⟨-, -, -, -, -, -, -, -, hw⟩ := onSocket_some hs
  simpa using hw

/-- A frame for a stream that the table holds. -/
theorem listed_turn (hT : h.TableOk) {type id : Nat} {payload : Bytes} {flushed : Bool}
    (hx : h.streams.lookup id = some x)
    (hs : handleStreamFrame env { h with wire := { h.wire with received := h.wire.received ++
      [.stream type id payload] } } type id payload flushed = .ok h') :
    ∃ f fs, Turn h h' f [.stream type id payload] fs := by
  obtain ⟨c, hc, rfl, hf⟩ := (hT id x).mp hx
  change c.finished = false at hf
  have hins : ∀ i ∈ [Frame.stream type c.id payload],
      i.streamId? = none ∨ i.streamId? = some c.id ∧ c.finished = false := by
    intro i hi
    rw [List.mem_singleton.mp hi]
    exact .inr ⟨rfl, hf⟩
  have hcall : ∀ {m : ClientStream → Wire → Bool → ClientStream × Wire} (w : Wire), w = { h.wire with received :=
      h.wire.received ++ [.stream type c.id payload] } →
      (∀ l, ∃ fs, Acted c (m c w l).1 w (m c w l).2 [.stream type c.id payload] fs) →
      ∃ f fs, Turn h (Hub.call { h with wire := w } x m) f [.stream type c.id payload] fs :=
    fun w hw hA => Turn.call hT { h with wire := w } hc hc (fun _ _ => rfl) rfl hw rfl rfl hins hA
  have hrun : ∀ {m : ClientStream → Wire → Bool → Except JsError (ClientStream × Wire)} (w : Wire),
      w = { h.wire with received := h.wire.received ++ [.stream type c.id payload] } →
      (∀ l r, m c w l = .ok r → ∃ fs, Acted c r.1 w r.2 [.stream type c.id payload] fs) →
      Hub.run { h with wire := w } x m = .ok h' → ∃ f fs, Turn h h' f [.stream type c.id payload] fs :=
    fun w hw hA => Turn.run hT { h with wire := w } hc hc (fun _ _ => rfl) rfl hw rfl rfl hins hA
  unfold handleStreamFrame at hs
  simp only [hx] at hs
  split at hs
  · rename_i htype
    subst htype
    refine hrun _ rfl (fun l r hm => ?_) hs
    obtain ⟨c', hc', rfl⟩ := map_ok.mp hm
    exact ClientStream.onData_acted (c := ⟨c, _, l⟩) hf hc'
  · split at hs
    · rename_i htype
      subst htype
      refine hrun _ rfl (fun l r hm => ?_) hs
      obtain ⟨c', hc', rfl⟩ := map_ok.mp hm
      exact ClientStream.onEof_acted (c := ⟨c, _, l⟩) hf hc'
    · split at hs
      · rename_i htype
        subst htype
        cases hs
        split
        · rename_i hlen
          have hack := Endpoint.core_onAck c.toEndpoint (readUInt32BE payload)
          rw [if_neg (by simp [hf])] at hack
          exact hcall _ rfl fun l => ⟨[], ClientStream.acted_of_moved rfl (.nil _) (.refl _)
            (Endpoint.onAck_moved hf hlen) fun _ _ => ⟨congrArg (·.chunks) hack, congrArg (·.sentEof) hack⟩⟩
        · rename_i hlen
          exact Turn.ignored hT _ rfl fun k => msg?_short hlen
      · split at hs
        · rename_i htype
          subst htype
          cases hs
          refine hcall _ rfl fun l => ?_
          obtain ⟨fs, hn, hw, hm⟩ := Ctx.destroy_moved env (c := ⟨c.toEndpoint, { h.wire with received :=
            h.wire.received ++ [.stream FrameType.streamReset c.id payload] }, l⟩) "peer_reset"
            [.stream FrameType.streamReset c.id payload] (fun h1 => by simp [hf] at h1) (by simp [msgs_singleton])
          exact ⟨fs, ClientStream.acted_of_moved rfl hn hw hm fun _ hfin => by
            simp [Ctx.destroy_finished] at hfin⟩
        · rename_i h1 h2 h3 h4
          cases hs
          exact Turn.ignored hT _ rfl fun k => by simp [msg?, h1, h2, h3, h4]

theorem teardownSession_turn (hT : a.toHub.TableOk) : ∃ f fs, Turn a.toHub (a.teardownSession env).toHub f [] fs := by
  have hm : ∀ (c : ClientStream) (l : Bool),
      method (fun c => ClientStream.destroy env c "peer_reset") c a.toHub.clearCongestion.wire l =
        ({ c with toEndpoint := c.toEndpoint.aborted }, a.toHub.clearCongestion.wire) := by
    intro c l
    simp [method, ClientStream.destroy, ClientCtx.put, ClientCtx.base, Ctx.destroy_silent]
  let F : ClientStream → ClientStream := fun c => { c with toEndpoint := c.toEndpoint.aborted }
  obtain ⟨h1, h2⟩ := foldl_call (f := F) hm (fun c => by simp [F, Endpoint.aborted_aborted])
    a.toHub.clearCongestion.streams.values rfl
  have hF : ∀ c : ClientStream, (F c).finished = true ∧ c.toEndpoint.Kept (F c).toEndpoint ∧
      ∀ e, View c e → ∃ e', View (F c) e' ∧ e.Run [] e' [] := fun c =>
    ⟨c.toEndpoint.finished_aborted, c.toEndpoint.aborted_moved.kept,
      (ClientStream.acted_of_moved (w := a.wire) rfl (.nil _) (.refl _) c.toEndpoint.aborted_moved fun _ hf => by
        simp [Endpoint.finished_aborted] at hf).view⟩
  obtain ⟨f, hf⟩ : ∃ f, Turn a.toHub (a.teardownSession env).toHub f [] [] := Turn.abort hT
    hF (Still.clearCongestion a.toHub).objs streams_clearCongestion h2 rfl
    (by simp only [teardownSession]; rw [h1, wire_clearCongestion])
    (by simp only [teardownSession]; rw [h1, wire_clearCongestion])
    (by simp [teardownSession, Wire.canSend])
  exact ⟨f, [], hf⟩

/-- The agent registers its tunnels. -/
theorem registerTunnels_still (env : WireEnv) (specs : List TunnelSpec) (a : Agent) :
    ∃ fs, Still a.toHub (a.registerTunnels env specs).toHub fs ∧
    (∀ g ∈ fs, g.streamId? = none) ∧ (a.registerTunnels env specs).window = a.window ∧
      (a.registerTunnels env specs).handshook = a.handshook := by
  unfold registerTunnels
  generalize specs.zipIdx = l
  induction l generalizing a with
  | nil => exact ⟨[], .refl _, by simp, rfl, rfl⟩
  | cons p l ih =>
    obtain ⟨fs, h1, h2, h3, h4⟩ := ih (a.registerTunnel env p.2 p.1)
    refine ⟨_, (Still.send env a.toHub _).trans h1, fun g hg => ?_, h3, h4⟩
    rcases List.mem_append.mp hg with hg | hg
    · rw [List.mem_singleton.mp hg]
      rfl
    · exact h2 g hg

theorem handleFrame_control {type : Nat} {body : Obj} {flushed : Bool}
    (hs : a.handleFrame env flushed (.control type body) = .ok a') :
    a'.toHub = a.toHub ∧ a'.window = a.window ∧ a'.handshook = a.handshook := by
  simp only [handleFrame] at hs
  split at hs
  · obtain ⟨_, -, hs⟩ := bind_ok.mp hs
    obtain ⟨_, -, hs⟩ := bind_ok.mp hs
    obtain ⟨_, -, hs⟩ := bind_ok.mp hs
    cases hs
    exact ⟨rfl, rfl, rfl⟩
  · split at hs
    · obtain ⟨_, -, hs⟩ := bind_ok.mp hs
      obtain ⟨_, -, hs⟩ := bind_ok.mp hs
      obtain ⟨_, -, hs⟩ := bind_ok.mp hs
      cases hs
      exact ⟨rfl, rfl, rfl⟩
    · cases hs
      exact ⟨rfl, rfl, rfl⟩

theorem step_turn (hT : a.toHub.TableOk)
    (hseen : ∀ (x : Nat) (c : ClientStream), a.objs[x]? = some c → ∃ e, ClientStream.View c e)
    {e : Event} (he : ∀ g flushed, e = .frame g flushed → a.handshook = true ∧
      ∀ id payload, g ≠ .stream FrameType.streamOpen id payload)
    (hs : step env specs a e = some a') :
    (∃ f ins fs, Turn a.toHub a'.toHub f ins fs ∧ (∀ g flushed, e = .frame g flushed → ins = [g]) ∧
      ((∀ g flushed, e ≠ .frame g flushed) → ins = [])) ∧ a'.window = a.window ∧ a'.handshook = a.handshook := by
  have key : ∀ {b : Agent}, (∃ f fs, Turn a.toHub b.toHub f [] fs) → (∀ g flushed, e ≠ .frame g flushed) →
      b.window = a.window ∧ b.handshook = a.handshook →
      (∃ f ins fs, Turn a.toHub b.toHub f ins fs ∧ (∀ g flushed, e = .frame g flushed → ins = [g]) ∧
      ((∀ g flushed, e ≠ .frame g flushed) → ins = [])) ∧ b.window = a.window ∧ b.handshook = a.handshook := by
    rintro b ⟨f, fs, hf⟩ hne hw
    exact ⟨⟨f, [], fs, hf, fun g flushed h1 => absurd h1 (hne g flushed), fun _ => rfl⟩, hw⟩
  cases e with
  | dialed x flushed =>
    simp only [step] at hs
    split at hs
    · rename_i hd
      obtain ⟨h1, hx, rfl⟩ := Option.map_eq_some_iff.mp hs
      cases hc : a.objs[x]? with
      | none => simp [dialling, hc] at hd
      | some c =>
        simp only [dialling, hc, Option.any_some, Bool.not_eq_true'] at hd
        refine key (Turn.run hT _ hc hc (fun _ _ => rfl) rfl (by simp) rfl rfl (by simp) (fun l r hm => ?_)
          (toOption_eq_some.mp hx)) (by simp) ⟨rfl, rfl⟩
        obtain ⟨c', hc', rfl⟩ := map_ok.mp hm
        exact ClientStream.attach_acted (c := ⟨c, a.wire, l⟩) hd (hseen x c hc) hc'
    · cases hs
  | dialFailed x message =>
    simp only [step] at hs
    split at hs
    · rename_i hd
      cases hs
      cases hc : a.objs[x]? with
      | none => simp [dialling, hc] at hd
      | some c =>
        refine key (Turn.call hT _ hc hc (fun _ _ => rfl) rfl (by simp) rfl rfl (by simp) fun l => ?_) (by simp)
          ⟨rfl, rfl⟩
        exact ClientStream.dialFailed_acted (c := ⟨c, a.wire, l⟩) message
    · cases hs
  | data x chunk =>
    obtain ⟨h1, hh, rfl⟩ := Option.map_eq_some_iff.mp hs
    obtain ⟨c, k, hc, hconn, hk, hself, hother, hstreams, hwire⟩ := onSocket_some hh
    refine key (Turn.call hT _ hc hself hother hstreams hwire rfl rfl (by simp) fun l => ?_) (by simp) ⟨rfl, rfl⟩
    split at hk
    · rename_i hread
      cases hk
      simp only [Socket.canRead, Bool.and_eq_true, Bool.not_eq_true'] at hread
      obtain ⟨fs, hn, hw, hm⟩ := Ctx.data_moved env (c := ⟨c.toEndpoint, h1.wire, l⟩) chunk hread.1.2
      exact ⟨fs, ClientStream.acted_of_moved rfl hn hw hm fun h2 => by simp [hconn] at h2⟩
    · cases hk
  | «end» x =>
    obtain ⟨h1, hh, rfl⟩ := Option.map_eq_some_iff.mp hs
    obtain ⟨c, k, hc, hconn, hk, hself, hother, hstreams, hwire⟩ := onSocket_some hh
    refine key (Turn.call hT _ hc hself hother hstreams hwire rfl rfl (by simp) fun l => ?_) (by simp) ⟨rfl, rfl⟩
    split at hk
    · cases hk
      obtain ⟨fs, hn, hw, hm⟩ := Ctx.end_moved env (c := ⟨c.toEndpoint, h1.wire, l⟩)
      exact ⟨fs, ClientStream.acted_of_moved rfl hn hw hm fun h2 => by simp [hconn] at h2⟩
    · cases hk
  | drain x =>
    obtain ⟨h1, hh, hs1⟩ := Option.bind_eq_some_iff.mp hs
    obtain ⟨h2, hx, rfl⟩ := Option.map_eq_some_iff.mp hs1
    obtain ⟨c, k, hc, hconn, hk, hself, hother, hstreams, hwire⟩ := onSocket_some hh
    refine key (Turn.run hT _ hc hself hother hstreams hwire rfl rfl (by simp) (fun l r hm => ?_)
      (toOption_eq_some.mp hx)) (by simp) ⟨rfl, rfl⟩
    split at hk
    · cases hk
      obtain ⟨c', hc', rfl⟩ := map_ok.mp hm
      exact ClientStream.onDrain_acted (c := ⟨c, h1.wire, l⟩) hconn hc'
    · cases hk
  | error x =>
    obtain ⟨h1, hh, rfl⟩ := Option.map_eq_some_iff.mp hs
    obtain ⟨c, k, hc, hconn, hk, hself, hother, hstreams, hwire⟩ := onSocket_some hh
    cases hk
    refine key (Turn.call hT _ hc hself hother hstreams hwire rfl rfl (by simp) fun l => ?_) (by simp) ⟨rfl, rfl⟩
    obtain ⟨fs, hn, hw, hm⟩ := Ctx.destroy_moved env (c := ⟨c.toEndpoint, h1.wire, l⟩) "local_error" []
      (fun _ => rfl) (by simp)
    exact ⟨fs, ClientStream.acted_of_moved rfl hn hw hm fun h2 => by simp [hconn] at h2⟩
  | close x =>
    obtain ⟨h1, hh, rfl⟩ := Option.map_eq_some_iff.mp hs
    obtain ⟨c, k, hc, hconn, hk, hself, hother, hstreams, hwire⟩ := onSocket_some hh
    cases hk
    refine key (Turn.call hT _ hc hself hother hstreams hwire rfl rfl (by simp) fun l => ?_) (by simp) ⟨rfl, rfl⟩
    obtain ⟨hm, hw⟩ := Ctx.close_moved (c := ⟨c.toEndpoint, h1.wire, l⟩)
    exact ⟨[], ClientStream.acted_of_moved rfl (.nil _) hw hm fun h2 => by simp [hconn] at h2⟩
  | frame g flushed =>
    obtain ⟨hh, hne⟩ := he g flushed rfl
    have key2 : ∀ {b : Agent}, (∃ f fs, Turn a.toHub b.toHub f [g] fs) → b.window = a.window ∧ b.handshook = a.handshook →
        (∃ f ins fs, Turn a.toHub b.toHub f ins fs ∧ (∀ g' flushed', Event.frame g flushed = .frame g' flushed' →
        ins = [g']) ∧ ((∀ g' flushed', Event.frame g flushed ≠ .frame g' flushed') → ins = [])) ∧
          b.window = a.window ∧ b.handshook = a.handshook := by
      rintro b ⟨f, fs, hf⟩ hw
      refine ⟨⟨f, [g], fs, hf, ?_, fun h1 => absurd rfl (h1 g flushed)⟩, hw⟩
      rintro g' flushed' h1
      cases h1
      rfl
    have hx := toOption_eq_some.mp hs
    simp only [onMessage, hh, if_true] at hx
    cases g with
    | control type body =>
      obtain ⟨h1, h2⟩ := handleFrame_control hx
      exact key2 (Turn.ignored hT _ h1 fun _ => rfl) ⟨h2.1, h2.2.trans hh.symm⟩
    | stream type id payload =>
      simp only [handleFrame] at hx
      split at hx
      · rename_i htype
        exact absurd (congrArg (Frame.stream · id payload) htype) (hne id payload)
      · obtain ⟨h1, hx2, rfl⟩ := map_ok.mp hx
        refine key2 ?_ ⟨rfl, hh.symm⟩
        cases hl : a.streams.lookup id with
        | some x => exact listed_turn hT hl hx2
        | none =>
          simp only [handleStreamFrame, hl] at hx2
          cases hx2
          exact Turn.unknown hT hl rfl
  | poll buffered =>
    simp only [step] at hs
    split at hs
    · cases hs
      obtain ⟨f, hf⟩ := Turn.of_control hT [] (by simpa using .poll env a.toHub buffered) (by simp) (by simp)
      exact key ⟨f, _, hf⟩ (by simp) ⟨rfl, rfl⟩
    · cases hs
  | notOpen =>
    cases hs
    exact key ⟨_, _, Turn.notOpen hT⟩ (by simp) ⟨rfl, rfl⟩
  | teardown =>
    cases hs
    exact key (teardownSession_turn hT) (by simp) ⟨rfl, rfl⟩

end Agent

end UpTunnel
