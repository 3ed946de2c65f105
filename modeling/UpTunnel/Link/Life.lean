import UpTunnel.Lib.Account
import UpTunnel.StreamTable

/-!
# UpTunnel.Link.Life

The life of every stream of a server session in terms of the frames that carry its id, whoever is at the other end:
as long as no stream id has been given twice, these are all the frames sent and received with that id.

* `AgentSession.Lives`: every stream is an `End.Run` from its beginning.
* `AgentSession.Lives.step`: kept by every event, where ids do not run out and no frame names a stream ahead of its
  STREAM_OPEN.
* `AgentSession.Lives.step_wire`: what an event does to the frames sent and received.
-/

universe u

theorem End.Run.trans {α : Type u} {e e' e'' : End α} {ins outs ins' outs' : List (Msg α)} (h : e.Run ins e' outs)
    (h' : e'.Run ins' e'' outs') : e.Run (ins ++ ins') e'' (outs ++ outs') := by
  induction h' with
  | refl => simpa using h
  | step _ hf hs ih =>
    rw [← List.append_assoc, ← List.append_assoc]
    exact ih.step hf hs
  | drop _ hf hms ih =>
    rw [← List.append_assoc, ← List.append_assoc]
    exact ih.drop hf hms

namespace UpTunnel

open Js Hub StreamObj EndView

namespace AgentSession

/-- The stream `t` has consumed the messages for it and sent `outs`; what the WebSocket has taken of these is what it
took while it was open. -/
structure Lived (window : Int) (w : Wire) (t : Stream) (outs : List (Msg UInt8)) : Prop where
  run : (End.fresh window).Run (msgs t.id w.received) (Stream.asEnd t) outs
  sent : msgs t.id w.sent <+: outs
  all : w.canSend = true → msgs t.id w.sent = outs

/-- The frames name streams that have been opened. -/
def Known (n : Nat) (fs : List Frame) : Prop := ∀ f ∈ fs, ∀ k, f.streamId? = some k → k ≤ n

structure Lives (window : Int) (s : AgentSession) : Prop where
  table : s.toHub.TableOk
  bound : s.objs.length ≤ MAX_STREAM_ID
  ids : ∀ (a : Nat) (t : Stream), s.objs[a]? = some t → t.id = a + 1
  next : s.objs.length < MAX_STREAM_ID → s.nextStreamId = s.objs.length + 1
  sent : Known s.objs.length s.wire.sent
  received : Known s.objs.length s.wire.received
  opens : ∀ (i k : Nat) (payload : Bytes), s.wire.sent[i]? = some (.stream FrameType.streamOpen k payload) →
    (∃ t, s.objs[k - 1]? = some t ∧ t.id = k) ∧
      ∀ (j : Nat) (f : Frame), j < i → s.wire.sent[j]? = some f → f.streamId? ≠ some k
  reads : ∀ (a : Nat) (t : Stream), s.objs[a]? = some t → t.Reads
  lived : ∀ (a : Nat) (t : Stream), s.objs[a]? = some t → ∃ outs, Lived window s.wire t outs

/-- Ids do not run out, and no frame names a stream that was not opened. -/
def InOrder (s : AgentSession) : Event → Prop
  | .accept .. => s.objs.length < MAX_STREAM_ID
  | .frame f _ => ∀ k, f.streamId? = some k → k ≤ s.objs.length
  | _ => True

/-- The frame that comes in with an event. -/
def Event.ins : Event → List Frame
  | .frame f _ => [f]
  | .accept .. => []
  | .data .. => []
  | .end _ => []
  | .drain _ => []
  | .error _ => []
  | .close _ => []
  | .control .. => []
  | .poll _ => []
  | .notOpen => []
  | .destroy => []

variable {env : WireEnv} {window : Int} {s s' : AgentSession}

theorem Known.mono {n m : Nat} {fs : List Frame} (h : Known n fs) (hle : n ≤ m) : Known m fs :=
  fun f hf k hk => (h f hf k hk).trans hle

theorem Known.append {n : Nat} {fs gs : List Frame} (h : Known n fs) (h' : Known n gs) : Known n (fs ++ gs) :=
  fun f hf => (List.mem_append.mp hf).elim (h f) (h' f)

/-- A stream that is not opened has no messages. -/
theorem Known.msgs {n k : Nat} {fs : List Frame} (h : Known n fs) (hk : n < k) : msgs k fs = [] :=
  msgs_of_ne fun f hf he => by have := h f hf k he; omega

theorem known_passed {n : Nat} {fs : List Frame} (h : Known n fs) (w : Wire) : Known n (w.passed fs) := by
  unfold Wire.passed
  split
  · exact h
  · simp [Known]

/-- A longer life: more messages, and what was passed of those that were sent. -/
theorem Lived.goOn {w w' : Wire} {t t' : Stream} {outs : List (Msg UInt8)} {ins fs : List Frame}
    (h : Lived window w t outs) (hid : t'.id = t.id)
    (hr : (Stream.asEnd t).Run (msgs t.id ins) (Stream.asEnd t') (msgs t.id fs))
    (hreceived : w'.received = w.received ++ ins) (hsent : w'.sent = w.sent ++ w.passed fs)
    (hcan : w'.canSend = true → w.canSend = true) : Lived window w' t' (outs ++ msgs t.id fs) where
  run := by
    rw [hid, hreceived, msgs_append]
    exact h.run.trans hr
  sent := by
    rw [hid, hsent, msgs_append]
    cases hc : w.canSend with
    | true =>
      rw [Wire.passed, if_pos hc, h.all hc]
    | false =>
      rw [Wire.passed, if_neg (by simp [hc]), msgs_nil, List.append_nil]
      exact h.sent.trans (List.prefix_append _ _)
  all hc := by
    have hc := hcan hc
    rw [hid, hsent, msgs_append, Wire.passed, if_pos hc, h.all hc]

theorem lives_new (window : Int) : new.Lives window where
  table k a := by simp [new]
  bound := by simp [new]
  ids a t h := by simp [new] at h
  next _ := rfl
  sent f hf := by simp [new] at hf
  received f hf := by simp [new] at hf
  opens i k payload h := by simp [new] at h
  reads a t h := by simp [new] at h
  lived a t h := by simp [new] at h

/-- An event that opens no stream. -/
theorem Lives.turn (h : s.Lives window) {f : Nat → Stream → Stream} {ins fs : List Frame}
    (hT : Turn s.toHub s'.toHub f ins fs) (hins : Known s.objs.length ins)
    (hnext : s'.nextStreamId = s.nextStreamId) : s'.Lives window := by
  have hlen : s'.objs.length = s.objs.length := by
    refine Nat.le_antisymm ?_ ?_
    · have := hT.objs s.objs.length
      rw [List.getElem?_eq_none (Nat.le_refl _), Option.map_none, List.getElem?_eq_none_iff] at this
      exact this
    · have := hT.objs s'.objs.length
      rw [List.getElem?_eq_none (Nat.le_refl _), eq_comm, Option.map_eq_none_iff, List.getElem?_eq_none_iff] at this
      exact this
  have hobj : ∀ {a : Nat} {t' : Stream}, s'.objs[a]? = some t' → ∃ t, s.objs[a]? = some t ∧ t' = f a t := by
    intro a t' ht'
    rw [hT.objs] at ht'
    obtain ⟨t, ht, rfl⟩ := Option.map_eq_some_iff.mp ht'
    exact ⟨t, ht, rfl⟩
  have hfs : Known s.objs.length fs := by
    intro g hg k hk
    rcases hT.names g hg k hk with ⟨a, t, ht, hid, -⟩ | ⟨-, i, hi, hik⟩
    · have := h.ids a t ht
      have := (List.getElem?_eq_some_iff.mp ht).1
      have hid : t.id = k := hid
      omega
    · exact hins i hi k hik
  refine ⟨hT.table, hlen ▸ h.bound, fun a t' ht' => ?_, fun hl => ?_, ?_, ?_, fun i k payload hi => ?_,
    fun a t' ht' => ?_, fun a t' ht' => ?_⟩
  · obtain ⟨t, ht, rfl⟩ := hobj ht'
    exact (hT.kept a t ht).id.trans (h.ids a t ht)
  · rw [hnext, hlen]
    exact h.next (hlen ▸ hl)
  · rw [hlen, hT.sent]
    exact h.sent.append (known_passed hfs _)
  · rw [hlen, hT.received]
    exact h.received.append hins
  · rw [hT.sent, List.getElem?_append] at hi
    split at hi
    · rename_i hlt
      obtain ⟨⟨t, ht, hid⟩, hfirst⟩ := h.opens i k payload hi
      refine ⟨⟨f (k - 1) t, by rw [hT.objs, ht]; rfl, (hT.kept _ t ht).id.trans hid⟩, fun j g hj hg => ?_⟩
      rw [hT.sent, List.getElem?_append_left (by omega)] at hg
      exact hfirst j g hj hg
    · have hmem := List.mem_of_getElem? hi
      unfold Wire.passed at hmem
      split at hmem
      · exact absurd rfl (hT.noOpen _ hmem k payload)
      · cases hmem
  · obtain ⟨t, ht, rfl⟩ := hobj ht'
    obtain ⟨e', he', -⟩ := hT.view a t ht _ ⟨rfl, h.reads a t ht⟩
    exact he'.2
  · obtain ⟨t, ht, rfl⟩ := hobj ht'
    obtain ⟨outs, hlived⟩ := h.lived a t ht
    obtain ⟨e', ⟨rfl, -⟩, hrun⟩ := hT.view a t ht _ ⟨rfl, h.reads a t ht⟩
    have hkept := hT.kept a t ht
    rcases hrun with hrun | ⟨-, hf, a', u, hu, hid, hfin⟩
    · exact ⟨_, hlived.goOn hkept.id hrun hT.received hT.sent hT.canSend⟩
    · -- no two streams have one id
      have h1 := h.ids a t ht
      have h2 := h.ids a' u hu
      have hid : u.id = t.id := hid
      obtain rfl : a' = a := by omega
      obtain rfl : t = u := Option.some.inj (ht.symm.trans hu)
      exact absurd (hf.symm.trans hfin) (by simp)

/-- The ids are given in order. -/
theorem Lives.alloc (h : s.Lives window) (hl : s.objs.length < MAX_STREAM_ID) :
    s.allocStreamId.1 = some (s.objs.length + 1) ∧
      (s.objs.length + 1 < MAX_STREAM_ID → s.allocStreamId.2 = s.objs.length + 2) := by
  have hnext := h.next hl
  have hfree : s.nextStreamId ∉ s.streams := by
    refine AList.lookup_eq_none.mp ?_
    by_contra hne
    obtain ⟨a, ha⟩ := Option.ne_none_iff_exists'.mp hne
    obtain ⟨t, ht, hid, -⟩ := (h.table _ a).mp ha
    have h1 := h.ids a t ht
    have h2 := (List.getElem?_eq_some_iff.mp ht).1
    have hid : t.id = s.nextStreamId := hid
    omega
  unfold allocStreamId allocFrom
  dsimp only
  rw [if_neg hfree, hnext]
  refine ⟨rfl, fun hlt => ?_⟩
  rw [if_neg (by omega)]

theorem Lives.accept (h : s.Lives window) (hl : s.objs.length < MAX_STREAM_ID) (tunnelId remoteAddr : String)
    (chunks : List Bytes) :
    (s.openStream env window tunnelId remoteAddr (accepted chunks) chunks.flatten).Lives window := by
  obtain ⟨hid, hnext⟩ := h.alloc hl
  obtain ⟨f, t0, fs, hobjs, hsame, hstreams, hdoes, hn, htid, -, htf, htr, hrun⟩ :=
    Sys.openStream_opens env window tunnelId remoteAddr chunks hid
  have hnext' : (s.openStream env window tunnelId remoteAddr (accepted chunks) chunks.flatten).nextStreamId =
      s.allocStreamId.2 := by
    simp [openStream, hid]
  generalize s.openStream env window tunnelId remoteAddr (accepted chunks) chunks.flatten = s' at *
  have hlen : s'.objs.length = s.objs.length + 1 := by
    refine Nat.le_antisymm ?_ ?_
    · have := hobjs (s.objs.length + 1)
      rw [if_neg (by omega), List.getElem?_eq_none (Nat.le_succ _), Option.map_none,
        List.getElem?_eq_none_iff] at this
      exact this
    · have := hobjs s.objs.length
      rw [if_pos rfl] at this
      exact (List.getElem?_eq_some_iff.mp this).1
  have hcases : ∀ {a : Nat} {t' : Stream}, s'.objs[a]? = some t' → (a = s.objs.length ∧ t' = t0) ∨
      ∃ t, s.objs[a]? = some t ∧ t' = f a t := by
    intro a t' ht'
    rw [hobjs] at ht'
    split at ht'
    · exact .inl ⟨‹_›, (Option.some.inj ht').symm⟩
    · obtain ⟨t, ht, rfl⟩ := Option.map_eq_some_iff.mp ht'
      exact .inr ⟨t, ht, rfl⟩
  have hfs : Known (s.objs.length + 1) (.streamJson FrameType.streamOpen (s.objs.length + 1)
      [("tunnelId", .str tunnelId), ("remoteAddr", .str remoteAddr)] :: fs) := by
    intro g hg k hk
    rcases List.mem_cons.mp hg with rfl | hg
    · exact (Option.some.inj hk).ge
    · obtain ⟨type, payload, rfl, -⟩ := hn g hg
      exact (Option.some.inj hk).ge
  have hold : ∀ {a : Nat} {t : Stream}, s.objs[a]? = some t → s'.objs[a]? = some (f a t) := by
    intro a t ht
    rw [hobjs, if_neg (by have := (List.getElem?_eq_some_iff.mp ht).1; omega), ht]
    rfl
  refine ⟨?_, hlen ▸ hl, fun a t' ht' => ?_, fun hlt => ?_, ?_, ?_, fun i k payload hi => ?_, fun a t' ht' => ?_,
    fun a t' ht' => ?_⟩
  · refine TableOk.insert h.table (fun b t ht hk => ?_) hstreams hobjs hsame htid htf
    have h1 := h.ids b t ht
    have h2 := (List.getElem?_eq_some_iff.mp ht).1
    have hk : t.id = s.objs.length + 1 := hk
    omega
  · rcases hcases ht' with ⟨rfl, rfl⟩ | ⟨t, ht, rfl⟩
    · exact htid
    · exact (hsame a t).kept.id.trans (h.ids a t ht)
  · rw [hnext', hlen]
    exact hnext (hlen ▸ hlt)
  · rw [hlen, hdoes.sent]
    exact (h.sent.mono (Nat.le_succ _)).append (known_passed hfs _)
  · rw [hlen, hdoes.received]
    exact h.received.mono (Nat.le_succ _)
  · rw [hdoes.sent, List.getElem?_append] at hi
    split at hi
    · rename_i hlt
      obtain ⟨⟨t, ht, htk⟩, hfirst⟩ := h.opens i k payload hi
      refine ⟨⟨f (k - 1) t, hold ht, (hsame _ t).kept.id.trans htk⟩, fun j g hj hg => ?_⟩
      rw [hdoes.sent, List.getElem?_append_left (by omega)] at hg
      exact hfirst j g hj hg
    · rename_i hlt
      unfold Wire.passed at hi
      split at hi
      · cases hi' : i - s.wire.sent.length with
        | zero =>
          rw [hi'] at hi
          obtain ⟨rfl, -⟩ : k = s.objs.length + 1 ∧ True := by
            cases hi
            exact ⟨rfl, trivial⟩
          refine ⟨⟨t0, by rw [hobjs, if_pos (by omega)], htid⟩, fun j g hj hg he => ?_⟩
          rw [hdoes.sent, List.getElem?_append_left (by omega)] at hg
          have := h.sent g (List.mem_of_getElem? hg) _ he
          omega
        | succ n =>
          rw [hi', List.getElem?_cons_succ] at hi
          obtain ⟨type, payload', he, hne⟩ := hn _ (List.mem_of_getElem? hi)
          cases he
          exact absurd rfl hne
      · simp at hi
  · rcases hcases ht' with ⟨rfl, rfl⟩ | ⟨t, ht, rfl⟩
    · exact htr
    · exact ((hsame a t).view _ ⟨rfl, h.reads a t ht⟩).2
  · rcases hcases ht' with ⟨rfl, rfl⟩ | ⟨t, ht, rfl⟩
    · have hnone : ∀ gs, Known s.objs.length gs → msgs t'.id gs = [] := fun gs hk => hk.msgs (by omega)
      have hnew : Lived window s.wire (Endpoint.new t'.id (accepted []) window s.wire) [] := by
        refine ⟨?_, ?_, fun _ => ?_⟩
        · rw [show (Endpoint.new t'.id (accepted []) window s.wire).id = t'.id from rfl, hnone _ h.received]
          exact .refl
        · rw [show (Endpoint.new t'.id (accepted []) window s.wire).id = t'.id from rfl, hnone _ h.sent]
        · exact hnone _ h.sent
      have hreceived : s'.wire.received = s.wire.received ++ [] := by rw [hdoes.received, List.append_nil]
      refine ⟨_, hnew.goOn rfl ?_ hreceived hdoes.sent ?_⟩
      · have hmsgs : msgs t'.id (.streamJson FrameType.streamOpen (s.objs.length + 1)
            [("tunnelId", .str tunnelId), ("remoteAddr", .str remoteAddr)] :: fs) = msgs (s.objs.length + 1) fs := by
          rw [htid]
          simp [msgs, Frame.streamJson]
        show (End.fresh window).Run _ _ (msgs t'.id _)
        rw [hmsgs]
        exact hrun
      · exact fun hc => hdoes.canSend ▸ hc
    · obtain ⟨outs, hlived⟩ := h.lived a t ht
      have heq : Stream.asEnd t = Stream.asEnd (f a t) := ((hsame a t).view _ ⟨rfl, h.reads a t ht⟩).1
      have hkid := (hsame a t).kept.id
      have hne : t.id < s.objs.length + 1 := by
        have h1 := h.ids a t ht
        have h2 := (List.getElem?_eq_some_iff.mp ht).1
        omega
      have hfsnil : msgs t.id (.streamJson FrameType.streamOpen (s.objs.length + 1)
          [("tunnelId", .str tunnelId), ("remoteAddr", .str remoteAddr)] :: fs) = [] := by
        refine msgs_of_ne fun g hg he => ?_
        rcases List.mem_cons.mp hg with rfl | hg
        · have := Option.some.inj he
          omega
        · obtain ⟨type, payload, rfl, -⟩ := hn g hg
          have := Option.some.inj he
          omega
      have hreceived : s'.wire.received = s.wire.received ++ [] := by rw [hdoes.received, List.append_nil]
      refine ⟨_, hlived.goOn hkid ?_ hreceived hdoes.sent fun hc => hdoes.canSend ▸ hc⟩
      rw [hfsnil, ← heq]
      exact .refl

/-- Every event keeps it. -/
theorem Lives.step (h : s.Lives window) {e : Event} (hok : s.InOrder e) (hs : step env window s e = some s') :
    s'.Lives window := by
  by_cases he : ∃ tunnelId remoteAddr chunks, e = .accept tunnelId remoteAddr chunks
  · obtain ⟨tunnelId, remoteAddr, chunks, rfl⟩ := he
    cases hs
    exact h.accept hok tunnelId remoteAddr chunks
  · have hne : ∀ tunnelId remoteAddr chunks, e ≠ .accept tunnelId remoteAddr chunks :=
      fun tunnelId remoteAddr chunks he' => he ⟨tunnelId, remoteAddr, chunks, he'⟩
    obtain ⟨f, ins, fs, hT, h1, h2⟩ := step_turn h.table hne hs
    refine h.turn hT ?_ ?_
    · by_cases hf : ∃ g flushed, e = .frame g flushed
      · obtain ⟨g, flushed, rfl⟩ := hf
        rw [h1 g flushed rfl]
        intro i hi k hk
        cases List.mem_singleton.mp hi
        exact hok k hk
      · rw [h2 fun g flushed he' => hf ⟨g, flushed, he'⟩]
        simp [Known]
    · by_cases hd : e = .destroy
      · subst hd
        cases hs
        unfold destroy
        split
        · rfl
        · exact (finished_frame _ _).2.2
      · rw [step_settles hne hd hs]
        exact (finished_frame _ _).2.2

/-- Nothing that was sent is taken back, and only a frame that comes in is received. -/
theorem Lives.step_wire (h : s.Lives window) {e : Event} (hok : s.InOrder e)
    (hs : AgentSession.step env window s e = some s') :
    s.wire.sent <+: s'.wire.sent ∧ s'.wire.received = s.wire.received ++ e.ins := by
  by_cases he : ∃ tunnelId remoteAddr chunks, e = .accept tunnelId remoteAddr chunks
  · obtain ⟨tunnelId, remoteAddr, chunks, rfl⟩ := he
    cases hs
    obtain ⟨f, t0, fs, -, -, -, hdoes, -⟩ :=
      Sys.openStream_opens env window tunnelId remoteAddr chunks (h.alloc hok).1
    exact ⟨by rw [hdoes.sent]; exact List.prefix_append _ _, hdoes.received.trans (List.append_nil _).symm⟩
  · have hne : ∀ tunnelId remoteAddr chunks, e ≠ .accept tunnelId remoteAddr chunks :=
      fun tunnelId remoteAddr chunks he' => he ⟨tunnelId, remoteAddr, chunks, he'⟩
    obtain ⟨f, ins, fs, hT, h1, h2⟩ := step_turn h.table hne hs
    refine ⟨by rw [hT.sent]; exact List.prefix_append _ _, ?_⟩
    have hins : ins = e.ins := by
      cases e with
      | frame g flushed => exact h1 g flushed rfl
      | accept tunnelId remoteAddr chunks => exact absurd rfl (hne tunnelId remoteAddr chunks)
      | data | «end» | drain | error | close | control | poll | notOpen | destroy => exact h2 nofun
    rw [hT.received, hins]

end AgentSession

end UpTunnel
