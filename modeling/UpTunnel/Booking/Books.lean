import UpTunnel.Booking.System

/-!
# UpTunnel.Booking.Books

What a session keeps of its tunnels, and what it has told the device about them.

* `Books.request`, `Books.settle`: a tunnel is made by one request, which has one reply; a tunnel that
  visitors can come by has been announced.
* `Books.visit`: so every STREAM_OPEN is sent after the TUNNEL_OK of its tunnel.
-/

namespace UpTunnel

open Js Relay

namespace Booking

variable {σ : Type}

/-! ## What has been said -/

/-- The tunnel at `t` is one of the session `a`. -/
def Own (s : Relay) (a t : Nat) (id : String) (place : Place) : Prop :=
  s.tunnels[t]?.map fixed = some (id, place, a)

/-- `f` replies to the request `k`. -/
def Answers (f : Frame) (k : Nat) : Prop :=
  ∃ type body, f = .control type body ∧ body.get "reqId" = some (.str (toString k))

/-- `f` is the TUNNEL_OK for the request `k`. -/
def Announces (f : Frame) (k : Nat) (id : String) : Prop :=
  ∃ body, f = .control FrameType.tunnelOk body ∧ body.get "reqId" = some (.str (toString k)) ∧
    body.get "tunnelId" = some (.str id)

/-- `place` is of the kind that the request asks for, under the name it asks for. -/
def Fits : Ask → Place → Prop
  | .http sub, .http sub' => sub' = sub
  | .tcp _, .tcp _ => True
  | _, _ => False

/-- The request `k` is the one for `spec`, and asks for a `place`. -/
def Asked (env : BookingEnv σ) (k : Nat) (place : Place) : Prop :=
  ∃ spec req, env.specs[k]? = some spec ∧ parseRequest env.toEngine (env.ask (toString k) spec) = .ok req ∧
    Fits req.ask place

/-- The tunnels of the session are made by requests that it has heard, each by its own. -/
structure Accounts (env : BookingEnv σ) (l : Ledger) (heard : Nat) : Prop where
  inv : l.relay.Inv
  self : ∃ r, l.relay.agents[env.self]? = some r
  made : ∀ t k, l.made.lookup t = some k →
    k < heard ∧ ∃ id place, Own l.relay env.self t id place ∧ id ≠ "" ∧ Asked env k place
  madeOnce : ∀ t t' k, l.made.lookup t = some k → l.made.lookup t' = some k → t = t'

/-- What the session has told the device about its tunnels. -/
structure Said (env : BookingEnv σ) (l : Ledger) (came : Dict Nat Nat) (sent : List Frame) (heard : Nat) : Prop where
  replies : ∀ type body, .control type body ∈ sent → type = FrameType.helloOk ∧ body = env.hello ∨
    ∃ k < heard, body.get "reqId" = some (.str (toString k)) ∧ (type = FrameType.error ∨
      type = FrameType.tunnelOk ∧ ∃ t id place, l.made.lookup t = some k ∧ Own l.relay env.self t id place ∧
        body.get "tunnelId" = some (.str id))
  once : ∀ (j j' : Nat) f f' k, sent[j]? = some f → sent[j']? = some f' → Answers f k → Answers f' k → j = j'
  opens : ∀ (j id : Nat) payload, sent[j]? = some (.stream FrameType.streamOpen id payload) →
    ∃ t k tid place, came.lookup j = some t ∧ l.made.lookup t = some k ∧ Own l.relay env.self t tid place ∧
      (streamFrameJson payload).get "tunnelId" = some (.str tid) ∧
      ∃ (i : Nat) (f : Frame), i < j ∧ sent[i]? = some f ∧ Announces f k tid

/-- What it has still to say: requests that wait for a bind have no reply, and nobody comes by a tunnel
that it has not announced. -/
structure Due (env : BookingEnv σ) (l : Ledger) (sent : List Frame) (up : Bool) : Prop where
  waiting : ∀ t q, l.waiting.lookup t = some q → ∃ k, q = some (toString k) ∧ l.made.lookup t = some k ∧
    l.relay.Pending t ∧ ∀ f ∈ sent, ¬ Answers f k
  reachable : up = true → ∀ (t : Nat) tn, l.relay.tunnels[t]? = some tn → tn.agent = env.self → Reachable l.relay t →
    ∃ k, l.made.lookup t = some k ∧ ∃ f ∈ sent, Announces f k tn.id

theorem toString_injective : Function.Injective (toString : Nat → String) := by
  intro m n h
  have h' : Nat.toDigits 10 m = Nat.toDigits 10 n := by
    simpa [toString, Nat.repr] using congrArg String.toList h
  rw [← Nat.ofDigitChars_toDigits (b := 10) (n := m) (by decide) (by decide), h',
    Nat.ofDigitChars_toDigits (by decide) (by decide)]

section
variable {env : BookingEnv σ} {l l' : Ledger} {came : Dict Nat Nat} {sent fs : List Frame} {f : Frame}
  {up : Bool} {n n' k k' : Nat} {id id' : String} {place place' : Place} {t t' : Nat}

theorem Answers.unique (h : Answers f k) (h' : Answers f k') : k = k' := by
  obtain ⟨type, body, rfl, hk⟩ := h
  obtain ⟨type', body', he, hk'⟩ := h'
  cases he
  rw [hk] at hk'
  exact toString_injective (Json.str.inj (Option.some.inj hk'))

theorem Announces.answers (h : Announces f k id) : Answers f k := by
  obtain ⟨body, rfl, hk, -⟩ := h
  exact ⟨_, body, rfl, hk⟩

theorem not_answers_of_mild (h : Mild fs) (hf : f ∈ fs) : ¬ Answers f k := by
  rintro ⟨type, body, rfl, -⟩
  exact h.not_control type body hf

theorem Own.ids {s : Relay} {a a' : Nat} (hI : s.Inv) (h : Own s a t id place) (h' : Own s a' t' id place') : t = t' := by
  refine hI.ids t t' id ?_ ?_
  · obtain ⟨tn, ht, he⟩ := Option.map_eq_some_iff.mp h
    simp [idOf, ht, show tn.id = id from congrArg (·.1) he]
  · obtain ⟨tn, ht, he⟩ := Option.map_eq_some_iff.mp h'
    simp [idOf, ht, show tn.id = id from congrArg (·.1) he]

/-! ### A ledger that grows -/

/-- What is in the ledger `l` of the session `a` stays. -/
structure Grows (a : Nat) (l l' : Ledger) : Prop where
  made : ∀ t k, l.made.lookup t = some k → l'.made.lookup t = some k
  own : ∀ t id place, Own l.relay a t id place → Own l'.relay a t id place

theorem Said.grows (h : Said env l came sent n) (hg : Grows env.self l l') (hn : n ≤ n') : Said env l' came sent n' where
  replies type body hm := by
    rcases h.replies type body hm with h0 | ⟨k, hk, hid, he | ⟨ht, t, id, place, hmade, hown, htid⟩⟩
    · exact .inl h0
    · exact .inr ⟨k, by omega, hid, .inl he⟩
    · exact .inr ⟨k, by omega, hid, .inr ⟨ht, t, id, place, hg.made t k hmade, hg.own t id place hown, htid⟩⟩
  once := h.once
  opens j id payload hj := by
    obtain ⟨t, k, tid, place, hc, hmade, hown, hp, hi⟩ := h.opens j id payload hj
    exact ⟨t, k, tid, place, hc, hg.made t k hmade, hg.own t tid place hown, hp, hi⟩

theorem getElem?_append_some {α : Type} {xs ys : List α} {i : Nat} {x : α} (h : xs[i]? = some x) :
    (xs ++ ys)[i]? = some x := by
  rw [List.getElem?_append_left (List.getElem?_eq_some_iff.mp h).1, h]

theorem Said.mild (h : Said env l came sent n) (hfs : Mild fs) : Said env l came (sent ++ fs) n where
  replies type body hm := h.replies type body ((List.mem_append.mp hm).resolve_right (hfs.not_control type body))
  once j j' f f' k hj hj' ha ha' := by
    have hold : ∀ (j : Nat) f, (sent ++ fs)[j]? = some f → Answers f k → sent[j]? = some f := by
      intro j f hj ha
      rw [List.getElem?_append] at hj
      split at hj
      · exact hj
      · exact absurd ha (not_answers_of_mild hfs (List.mem_of_getElem? hj))
    exact h.once j j' f f' k (hold j f hj ha) (hold j' f' hj' ha') ha ha'
  opens j id payload hj := by
    rw [List.getElem?_append] at hj
    split at hj
    · obtain ⟨t, k, tid, place, hc, hmade, hown, hp, i, f, hi, hf, ha⟩ := h.opens j id payload hj
      exact ⟨t, k, tid, place, hc, hmade, hown, hp, i, f, hi, getElem?_append_some hf, ha⟩
    · exact absurd (List.mem_of_getElem? hj) (hfs.not_open id payload)

/-- A reply to a request that has had none. -/
theorem Said.reply (h : Said env l came sent n) {type : Nat} {body : Obj}
    (hnew : ∀ f ∈ sent, ¬ Answers f k)
    (hk : k < n) (hid : body.get "reqId" = some (.str (toString k)))
    (hb : type = FrameType.error ∨ type = FrameType.tunnelOk ∧ ∃ t id place, l.made.lookup t = some k ∧
      Own l.relay env.self t id place ∧ body.get "tunnelId" = some (.str id)) :
    Said env l came (sent ++ [.control type body]) n where
  replies type' body' hm := by
    rcases List.mem_append.mp hm with hm | hm
    · exact h.replies type' body' hm
    · cases List.mem_singleton.mp hm
      exact .inr ⟨k, hk, hid, hb⟩
  once j j' f f' k' hj hj' ha ha' := by
    have hlast : ∀ (i : Nat) g, (sent ++ [.control type body])[i]? = some g → Answers g k' →
        sent[i]? = some g ∨ i = sent.length ∧ k' = k := by
      intro i g hi hg
      rw [List.getElem?_append] at hi
      split at hi
      · exact .inl hi
      · rw [List.getElem?_singleton] at hi
        split at hi
        · cases hi
          exact .inr ⟨by omega, hg.unique ⟨type, body, rfl, hid⟩⟩
        · cases hi
    rcases hlast j f hj ha with h1 | ⟨h1, rfl⟩ <;> rcases hlast j' f' hj' ha' with h2 | ⟨h2, h3⟩
    · exact h.once j j' f f' k' h1 h2 ha ha'
    · exact absurd (h3 ▸ ha) (hnew f (List.mem_of_getElem? h1))
    · exact absurd ha' (hnew f' (List.mem_of_getElem? h2))
    · omega
  opens j id payload hj := by
    rw [List.getElem?_append] at hj
    split at hj
    · obtain ⟨t, k, tid, place, hc, hmade, hown, hp, i, f, hi, hf, ha⟩ := h.opens j id payload hj
      exact ⟨t, k, tid, place, hc, hmade, hown, hp, i, f, hi, getElem?_append_some hf, ha⟩
    · rw [List.getElem?_singleton] at hj
      split at hj
      · cases hj
      · cases hj

/-- A visitor comes by a tunnel that has been announced. -/
theorem Said.visit (h : Said env l came sent n) {id : Nat} {payload : Bytes} {tid : String}
    (hmade : l.made.lookup t = some k) (hown : Own l.relay env.self t tid place)
    (hp : (streamFrameJson payload).get "tunnelId" = some (.str tid)) (hf : f ∈ sent) (ha : Announces f k tid) :
    Said env l (came.insert sent.length t) (sent ++ [.stream FrameType.streamOpen id payload]) n where
  replies type body hm := h.replies type body ((List.mem_append.mp hm).resolve_right (by simp))
  once j j' f f' k hj hj' ha ha' := by
    have hold : ∀ (j : Nat) f, (sent ++ [.stream FrameType.streamOpen id payload])[j]? = some f → Answers f k →
        sent[j]? = some f := by
      intro j f hj ha
      rw [List.getElem?_append] at hj
      split at hj
      · exact hj
      · obtain ⟨type, body, rfl, -⟩ := ha
        have hm := List.mem_of_getElem? hj
        simp at hm
    exact h.once j j' f f' k (hold j f hj ha) (hold j' f' hj' ha') ha ha'
  opens j id' payload' hj := by
    rw [List.getElem?_append] at hj
    split at hj
    · rename_i hlt
      obtain ⟨t, k, tid, place, hc, hmade, hown, hp, i, f, hi, hf, ha⟩ := h.opens j id' payload' hj
      refine ⟨t, k, tid, place, ?_, hmade, hown, hp, i, f, hi, getElem?_append_some hf, ha⟩
      rw [AList.lookup_insert_ne (by omega), hc]
    · rename_i hlt
      rw [List.getElem?_singleton] at hj
      split at hj
      · have hj' : j = sent.length := by omega
        cases hj
        obtain ⟨i, hi⟩ := List.mem_iff_getElem?.mp hf
        have hlt := (List.getElem?_eq_some_iff.mp hi).1
        exact ⟨t, k, tid, place, by rw [hj', AList.lookup_insert], hmade, hown, hp, i, f, by omega,
          getElem?_append_some hi, ha⟩
      · cases hj

/-! ### The registry -/

theorem Own.agentOf {s : Relay} {a : Nat} (h : Own s a t id place) : s.agentOf t = some a := by
  obtain ⟨tn, ht, he⟩ := Option.map_eq_some_iff.mp h
  simp [Relay.agentOf, ht, show tn.agent = a from congrArg (·.2.2) he]

theorem Own.apart {s s' : Relay} {a : Nat} (hs : Apart a s s') (h : Own s a t id place) : Own s' a t id place := by
  obtain ⟨tn, ht, he⟩ := Option.map_eq_some_iff.mp h
  exact Option.map_eq_some_iff.mpr ⟨tn, (hs.tunnels t tn (congrArg (·.2.2) he)).mpr ht, he⟩

theorem Own.same {s s' : Relay} {a : Nat} (hs : SameTunnels s s') (h : Own s a t id place) : Own s' a t id place :=
  (hs t).trans h

theorem Own.concat {s s' : Relay} {a : Nat} {tn : Tunnel} (hs : s'.tunnels = s.tunnels ++ [tn])
    (h : Own s a t id place) : Own s' a t id place := by
  obtain ⟨tn', ht, he⟩ := Option.map_eq_some_iff.mp h
  exact Option.map_eq_some_iff.mpr ⟨tn', by rw [hs]; exact getElem?_append_some ht, he⟩

/-- A ledger in which the session's tunnels are what they were. -/
theorem Accounts.grows (h : Accounts env l n) (hg : Grows env.self l l') (hI : l'.relay.Inv)
    (hself : ∃ r, l'.relay.agents[env.self]? = some r) (hm : l'.made = l.made) (hn : n ≤ n') : Accounts env l' n' where
  inv := hI
  self := hself
  made t k ht := by
    obtain ⟨hk, id, place, hown, hne, ha⟩ := h.made t k (hm ▸ ht)
    exact ⟨by omega, id, place, hg.own t id place hown, hne, ha⟩
  madeOnce t t' k ht ht' := h.madeOnce t t' k (hm ▸ ht) (hm ▸ ht')

section
variable {relay : Relay}

theorem Grows.apart {a : Nat} (hs : Apart a l.relay relay) : Grows a l { l with relay } :=
  ⟨fun _ _ h => h, fun _ _ _ h => h.apart hs⟩

theorem Due.apart (h : Due env l sent up) (hA : Accounts env l n) (hs : Apart env.self l.relay relay) :
    Due env { l with relay } sent up where
  waiting t q hq := by
    obtain ⟨k, rfl, hm, hp, hno⟩ := h.waiting t q hq
    obtain ⟨-, id, place, hown, -⟩ := hA.made t k hm
    refine ⟨k, rfl, hm, AList.lookup_isSome.mp ?_, hno⟩
    rw [hs.opening t hown.agentOf]
    exact AList.lookup_isSome.mpr hp
  reachable hu t tn ht ha hr := by
    have ht' := (hs.tunnels t tn ha).mp ht
    have hag : l.relay.agentOf t = some env.self := agentOf_eq_some.mpr ⟨tn, ht', ha⟩
    refine h.reachable hu t tn ht' ha ?_
    rcases hr with hl | ⟨tn', htn', hlis⟩
    · exact .inl ((hs.live t hag).mp hl)
    · rw [ht] at htn'
      cases htn'
      exact .inr ⟨tn, ht', hlis⟩

/-- Nobody is told anything any more. -/
theorem Due.gone (h : Due env l sent up) (hc : relay.opening = l.relay.opening) :
    Due env { l with relay } sent false where
  waiting t q hq := by
    obtain ⟨k, rfl, hm, hp, hno⟩ := h.waiting t q hq
    exact ⟨k, rfl, hm, by rwa [Pending, hc], hno⟩
  reachable hu := by cases hu

end

/-- Frames that are no replies; the session may have gone down since. -/
theorem Due.append (h : Due env l sent up) (hfs : ∀ f ∈ fs, ∀ k, ¬ Answers f k) {up' : Bool}
    (hu : up' = true → up = true) : Due env l (sent ++ fs) up' where
  waiting t q hq := by
    obtain ⟨k, rfl, hm, hp, hno⟩ := h.waiting t q hq
    exact ⟨k, rfl, hm, hp, fun f hf => (List.mem_append.mp hf).elim (hno f) fun hf => hfs f hf k⟩
  reachable hup t tn ht ha hr := by
    obtain ⟨k, hm, f, hf, hann⟩ := h.reachable (hu hup) t tn ht ha hr
    exact ⟨k, hm, f, List.mem_append_left _ hf, hann⟩

/-! ### A request -/

theorem Said.answers_lt (h : Said env l came sent n) (hf : f ∈ sent) (ha : Answers f k) : k < n := by
  have ha' := ha
  obtain ⟨type, body, rfl, hid⟩ := ha
  rcases h.replies type body hf with ⟨-, rfl⟩ | ⟨k', hk', hid', -⟩
  · rw [env.hello_reqId] at hid
    cases hid
  · have he : Answers (.control type body) k' := ⟨type, body, rfl, hid'⟩
    rw [ha'.unique he]
    exact hk'

theorem Said.fresh (h : Said env l came sent n) : ∀ f ∈ sent, ¬ Answers f n := fun f hf ha => by
  have := h.answers_lt hf ha
  omega

/-- A reply that no waiting request is about. -/
theorem Due.reply (h : Due env l sent up) (ha : Answers f k)
    (hk : ∀ t q, l.waiting.lookup t = some q → l.made.lookup t ≠ some k) : Due env l (sent ++ [f]) up where
  waiting t q hq := by
    obtain ⟨k', rfl, hm, hp, hno⟩ := h.waiting t q hq
    refine ⟨k', rfl, hm, hp, fun g hg ha' => ?_⟩
    rcases List.mem_append.mp hg with hg | hg
    · exact hno g hg ha'
    · cases List.mem_singleton.mp hg
      exact hk t _ hq (ha.unique ha' ▸ hm)
  reachable hu t tn ht hag hr := by
    obtain ⟨k, hm, f, hf, hann⟩ := h.reachable hu t tn ht hag hr
    exact ⟨k, hm, f, List.mem_append_left _ hf, hann⟩

theorem Accounts.lt (h : Accounts env l n) (hm : l.made.lookup t = some k) : t < l.relay.tunnels.length := by
  obtain ⟨-, id, place, hown, -⟩ := h.made t k hm
  obtain ⟨tn, ht, -⟩ := Option.map_eq_some_iff.mp hown
  exact (List.getElem?_eq_some_iff.mp ht).1

theorem Grows.enters {tn : Tunnel} (hA : Accounts env l n) (hE : Ledger.Enters l l' n tn) : Grows env.self l l' where
  made t k hm := by
    have := hA.lt hm
    rw [hE.made, AList.lookup_insert_ne (by omega), hm]
  own t id place h := h.concat hE.tunnels

theorem Accounts.enters {tn : Tunnel} (hA : Accounts env l n) (hE : Ledger.Enters l l' n tn) (ha : tn.agent = env.self)
    (hne : tn.id ≠ "") (hask : Asked env n tn.place) : Accounts env l' (n + 1) where
  inv := hE.inv
  self := by
    obtain ⟨r, hr⟩ := hA.self
    have hlt := (List.getElem?_eq_some_iff.mp hr).1
    rw [← hE.agents] at hlt
    exact ⟨_, List.getElem?_eq_getElem hlt⟩
  made t k hm := by
    rw [hE.made, Dict.lookup_insert_ite] at hm
    split at hm
    · rename_i he
      cases hm
      refine ⟨by omega, tn.id, tn.place, ?_, hne, hask⟩
      rw [Own, he, hE.tunnels, List.getElem?_concat_length, Option.map_some, fixed, ha]
    · obtain ⟨hk, id, place, hown, h⟩ := hA.made t k hm
      exact ⟨by omega, id, place, hown.concat hE.tunnels, h⟩
  madeOnce t t' k hm hm' := by
    rw [hE.made, Dict.lookup_insert_ite] at hm hm'
    split at hm <;> split at hm'
    · omega
    · cases hm
      have := (hA.made t' _ hm').1
      omega
    · cases hm'
      have := (hA.made t _ hm).1
      omega
    · exact hA.madeOnce t t' k hm hm'

/-- What is owed once the tunnel of the request `n` is in: nobody comes by it unless it has been announced. -/
theorem Due.enters {tn : Tunnel} (h : Due env l sent up) (hA : Accounts env l n) (hE : Ledger.Enters l l' n tn)
    (hw : ∀ t q, l'.waiting.lookup t = some q → l.waiting.lookup t = some q ∨
      t = l.relay.tunnels.length ∧ q = some (toString n) ∧ l'.relay.Pending t ∧ ∀ f ∈ sent, ¬ Answers f n)
    (hp : ∀ t, l.relay.Pending t → l'.relay.Pending t)
    (hl : ∀ u, l'.relay.Live u → u = l.relay.tunnels.length ∨ l.relay.Live u)
    (hlis : tn.listener = false)
    (hnew : up = true → l'.relay.Live l.relay.tunnels.length → ∃ f ∈ sent, Announces f n tn.id) :
    Due env l' sent up where
  waiting t q hq := by
    rcases hw t q hq with hq | ⟨rfl, rfl, hpt, hno⟩
    · obtain ⟨k, rfl, hm, hpt, hno⟩ := h.waiting t q hq
      exact ⟨k, rfl, (Grows.enters hA hE).made t k hm, hp t hpt, hno⟩
    · exact ⟨n, rfl, by rw [hE.made, AList.lookup_insert], hpt, hno⟩
  reachable hu t tn' ht ha hr := by
    have hlast : l'.relay.tunnels[l.relay.tunnels.length]? = some tn := by rw [hE.tunnels, List.getElem?_concat_length]
    by_cases he : t = l.relay.tunnels.length
    · subst he
      rw [hlast] at ht
      cases ht
      rcases hr with hlive | ⟨tn', htn', hlis'⟩
      · obtain ⟨f, hf, hann⟩ := hnew hu hlive
        exact ⟨n, by rw [hE.made, AList.lookup_insert], f, hf, hann⟩
      · rw [hlast] at htn'
        cases htn'
        simp [hlis] at hlis'
    · have hold : l'.relay.tunnels[t]? = l.relay.tunnels[t]? := by rw [hE.tunnels, getElem?_concat, if_neg he]
      rw [hold] at ht
      obtain ⟨k, hm, hann⟩ := h.reachable hu t tn' ht ha (hr.imp (fun hlive => (hl t hlive).resolve_left he)
        fun ⟨tn, htn, h⟩ => ⟨tn, hold ▸ htn, h⟩)
      exact ⟨k, (Grows.enters hA hE).made t k hm, hann⟩

theorem announces_tunnelOk (cfg : Config) (k : Nat) (tn : Tunnel) :
    ∃ body, tunnelOk cfg (some (toString k)) tn = .control FrameType.tunnelOk body ∧
      body.get "reqId" = some (.str (toString k)) ∧ body.get "tunnelId" = some (.str tn.id) := by
  refine ⟨_, rfl, ?_, ?_⟩
  · simp [Obj.get, reqIdField]
  · simp [Obj.get, reqIdField, List.lookup_cons]

theorem answers_tunnelError (k : Nat) (code message : String) :
    ∃ body, tunnelError (some (toString k)) code message = .control FrameType.error body ∧
      body.get "reqId" = some (.str (toString k)) := by
  refine ⟨_, rfl, ?_⟩
  simp [Obj.get, reqIdField]

/-- What holds between a session's ledger and what it has sent. -/
structure Books (env : BookingEnv σ) (l : Ledger) (came : Dict Nat Nat) (sent : List Frame) (up : Bool) (heard : Nat) :
    Prop where
  accounts : Accounts env l heard
  said : Said env l came sent heard
  due : Due env l sent up

/-- A request is refused. -/
theorem Books.refuse (h : Books env l came sent up n) (code message : String) :
    Books env l came (sent ++ if up then [tunnelError (some (toString n)) code message] else []) up (n + 1) := by
  have hg : Grows env.self l l := ⟨fun _ _ h => h, fun _ _ _ h => h⟩
  have hA : Accounts env l (n + 1) := h.accounts.grows hg h.accounts.inv h.accounts.self rfl (by omega)
  have hS : Said env l came sent (n + 1) := h.said.grows hg (by omega)
  cases up with
  | false => simpa using ⟨hA, hS, h.due⟩
  | true =>
    obtain ⟨body, he, hid⟩ := answers_tunnelError n code message
    rw [if_pos rfl, he]
    refine ⟨hA, hS.reply h.said.fresh (by omega) hid (.inl rfl), h.due.reply ⟨_, body, rfl, hid⟩ fun t q _ hm => ?_⟩
    have := (h.accounts.made t n hm).1
    omega

/-- The session hears its request `n`. -/
theorem Books.request (h : Books env l came sent up n) {r : Registrant} {spec : σ} {reply : Option Frame}
    (hr : l.relay.agents[env.self]? = some r) (hid : ∀ tn ∈ l.relay.tunnels, tn.id ≠ id) (hne : id ≠ "")
    (hspec : env.specs[n]? = some spec)
    (hl : l.request env.cfg env.toEngine env.self r n (env.ask (toString n) spec) id = (l', reply)) :
    Books env l' came (sent ++ if up then reply.toList else []) up (n + 1) := by
  have hreq : str? ((env.ask (toString n) spec).get "reqId") = some (toString n) := by
    rw [env.ask_reqId]
    rfl
  have hlen : ¬ l.relay.Live l.relay.tunnels.length := fun hl =>
    absurd (known_lt h.accounts.inv (.inl hl)) (Nat.lt_irrefl _)
  rcases Ledger.request_cases h.accounts.inv hr hid hl with ⟨rfl, code, message, rfl⟩ |
    ⟨req, tn, hparse, rfl, hag, hlis, hE, ⟨sub, hask, hplace, rfl, hw, ho, hlive⟩ |
      ⟨remotePort, port, hask, hplace, rfl, hw, ho, hlive⟩⟩
  · rw [hreq]
    exact h.refuse code message
  · have hA := h.accounts.enters hE hag hne ⟨spec, req, hspec, hparse, by rw [hask, hplace]; rfl⟩
    have hS : Said env l' came sent (n + 1) := h.said.grows (Grows.enters h.accounts hE) (by omega)
    have hp : ∀ t, l.relay.Pending t → l'.relay.Pending t := fun t hp => by rwa [Pending, ho]
    have hwait : ∀ (sent : List Frame) t q, l'.waiting.lookup t = some q → l.waiting.lookup t = some q ∨
        t = l.relay.tunnels.length ∧ q = some (toString n) ∧ l'.relay.Pending t ∧ ∀ f ∈ sent, ¬ Answers f n :=
      fun _ t q hq => .inl (hw ▸ hq)
    cases up with
    | false =>
      simp only [Bool.false_eq_true, if_false, List.append_nil]
      exact ⟨hA, hS, h.due.enters h.accounts hE (hwait sent) hp (fun u => (hlive u).mp) hlis fun hu => by cases hu⟩
    | true =>
      obtain ⟨body, he, hid, htid⟩ := announces_tunnelOk env.cfg n tn
      simp only [if_true, Option.toList_some, hreq, he]
      have hown : Own l'.relay env.self l.relay.tunnels.length tn.id tn.place := by
        rw [Own, hE.tunnels, List.getElem?_concat_length, Option.map_some, fixed, hag]
      refine ⟨hA, hS.reply h.said.fresh (by omega) hid (.inr ⟨rfl, _, tn.id, tn.place, ?_, hown, htid⟩), ?_⟩
      · rw [hE.made, AList.lookup_insert]
      · refine Due.enters (h.due.reply ⟨_, body, rfl, hid⟩ fun t q hq hm => ?_) h.accounts hE (hwait _) hp
          (fun u => (hlive u).mp) hlis fun _ _ => ⟨_, List.mem_append_right _ (List.mem_singleton_self _), body, rfl, hid, htid⟩
        have := (h.accounts.made t n hm).1
        omega
  · have hA := h.accounts.enters hE hag hne ⟨spec, req, hspec, hparse, by rw [hask, hplace]; trivial⟩
    have hS : Said env l' came sent (n + 1) := h.said.grows (Grows.enters h.accounts hE) (by omega)
    rw [show (sent ++ if up then (none : Option Frame).toList else []) = sent by simp]
    refine ⟨hA, hS, h.due.enters h.accounts hE (fun t q hq => ?_) (fun t hp => ?_) (fun u hu => .inr ((hlive u).mp hu)) hlis
      fun _ hl => absurd ((hlive _).mp hl) hlen⟩
    · rw [hw, Dict.lookup_insert_ite] at hq
      split at hq
      · rename_i he
        subst he
        cases hq
        exact .inr ⟨rfl, hreq, by rw [Pending, ho]; exact (AList.mem_insert _).mpr (.inl rfl), h.said.fresh⟩
      · exact .inl hq
    · rw [Pending, ho]
      exact (AList.mem_insert _).mpr (.inr hp)

/-! ### A bind that settles -/

/-- The bind of a tunnel of the session is over, and its request is answered. -/
theorem Books.settle (h : Books env l came sent up n) {failure : Option String}
    (hl : l.settle env.cfg t failure = some (l', f)) : Books env l' came (sent ++ if up then [f] else []) up n := by
  obtain ⟨q, tn, hq, ht, hE, hcases⟩ := Ledger.settle_cases h.accounts.inv hl
  obtain ⟨k, rfl, hm, hp, hno⟩ := h.due.waiting t q hq
  obtain ⟨hk, id, place, hown, -, -⟩ := h.accounts.made t k hm
  have htn : tn.id = id ∧ tn.agent = env.self := by
    rw [Own, ht] at hown
    exact ⟨congrArg (·.1) (Option.some.inj hown), congrArg (·.2.2) (Option.some.inj hown)⟩
  have hsame : SameTunnels l.relay l'.relay := by
    intro u
    rcases hcases with ⟨-, he, -⟩ | ⟨-, he, -⟩
    · rw [he]
      exact fixed_modify _ t u true
    · rw [he]
  have hg : Grows env.self l l' := ⟨fun _ _ h => by rw [hE.made, h], fun _ _ _ h => h.same hsame⟩
  have hself : ∃ r, l'.relay.agents[env.self]? = some r := by
    obtain ⟨r, hr⟩ := h.accounts.self
    have hlt := (List.getElem?_eq_some_iff.mp hr).1
    rw [← hE.agents] at hlt
    exact ⟨_, List.getElem?_eq_getElem hlt⟩
  have hA : Accounts env l' n := h.accounts.grows hg hE.inv hself hE.made (Nat.le_refl n)
  have hS : Said env l' came sent n := h.said.grows hg (Nat.le_refl n)
  have hm' : l'.made.lookup t = some k := hg.made t k hm
  have hreply : ∃ type body, f = .control type body ∧ body.get "reqId" = some (.str (toString k)) ∧
      (type = FrameType.error ∨ type = FrameType.tunnelOk ∧ body.get "tunnelId" = some (.str id)) := by
    rcases hcases with ⟨rfl, -⟩ | ⟨⟨code, message, rfl⟩, -⟩
    · obtain ⟨body, he, h1, h2⟩ := announces_tunnelOk env.cfg k tn
      exact ⟨_, body, he, h1, .inr ⟨rfl, by rw [h2, htn.1]⟩⟩
    · obtain ⟨body, he, h1⟩ := answers_tunnelError k code message
      exact ⟨_, body, he, h1, .inl rfl⟩
  obtain ⟨type, body, rfl, hid, htype⟩ := hreply
  have hS1 : Said env l' came (sent ++ [.control type body]) n :=
    hS.reply hno hk hid (htype.imp_right fun h => ⟨h.1, t, id, place, hm', hg.own t id place hown, h.2⟩)
  have hwaiting : ∀ gs : List Frame, (∀ g ∈ gs, Answers g k) → ∀ u q, l'.waiting.lookup u = some q →
      ∃ k', q = some (toString k') ∧ l'.made.lookup u = some k' ∧ l'.relay.Pending u ∧ ∀ g ∈ sent ++ gs, ¬ Answers g k' := by
    intro gs hgs u q hu
    rw [hE.waiting, Dict.lookup_erase_ite] at hu
    split at hu
    · cases hu
    rename_i hne
    obtain ⟨k', rfl, hmu, hpu, hnou⟩ := h.due.waiting u q hu
    refine ⟨k', rfl, hg.made u k' hmu, AList.lookup_isSome.mp ?_, fun g hgm ha => ?_⟩
    · rw [hE.opening, if_neg hne]
      exact AList.lookup_isSome.mpr hpu
    · rcases List.mem_append.mp hgm with hgm | hgm
      · exact hnou g hgm ha
      · cases (hgs g hgm).unique ha
        exact hne (h.accounts.madeOnce u t k hmu hm)
  cases up with
  | false =>
    simp only [Bool.false_eq_true, if_false]
    rw [List.append_nil]
    exact ⟨hA, hS, by simpa using hwaiting [] (by simp), fun hu => by cases hu⟩
  | true =>
    rw [if_pos rfl]
    refine ⟨hA, hS1, hwaiting _ (fun g hg => ?_), fun _ u tn' htn' hag hr => ?_⟩
    · cases List.mem_singleton.mp hg
      exact ⟨type, body, rfl, hid⟩
    rcases hcases with ⟨hf, he, hlive⟩ | ⟨-, he, hlive⟩
    · by_cases hu : u = t
      · subst hu
        rw [he, List.getElem?_modify_eq, ht] at htn'
        cases htn'
        obtain ⟨body', hf', h1, h2⟩ := announces_tunnelOk env.cfg k tn
        exact ⟨k, hm', _, List.mem_append_right _ (List.mem_singleton_self _), body', hf.trans hf', h1, h2⟩
      · have hold : l'.relay.tunnels[u]? = l.relay.tunnels[u]? := by rw [he, List.getElem?_modify_ne _ _ (Ne.symm hu)]
        rw [hold] at htn'
        obtain ⟨k', hmu, g, hgm, hann⟩ := h.due.reachable rfl u tn' htn' hag
          (hr.imp (fun hl => ((hlive u).mp hl).resolve_left hu) fun ⟨tn, htn, h⟩ => ⟨tn, hold ▸ htn, h⟩)
        exact ⟨k', hg.made u k' hmu, g, List.mem_append_left _ hgm, hann⟩
    · rw [he] at htn'
      obtain ⟨k', hmu, g, hgm, hann⟩ := h.due.reachable rfl u tn' htn' hag
        (hr.imp (hlive u).mp fun ⟨tn, htn, h⟩ => ⟨tn, he ▸ htn, h⟩)
      exact ⟨k', hg.made u k' hmu, g, List.mem_append_left _ hgm, hann⟩

/-! ### A visitor -/

theorem Books.visit (h : Books env l came sent up n) {tn : Tunnel} {sid : Nat} {payload : Bytes}
    (ht : l.relay.tunnels[t]? = some tn) (ha : tn.agent = env.self) (hr : Reachable l.relay t)
    (hp : (streamFrameJson payload).get "tunnelId" = some (.str tn.id)) (hfs : Mild fs) :
    Books env l (if up then came.insert sent.length t else came)
      (sent ++ if up then .stream FrameType.streamOpen sid payload :: fs else []) up n := by
  cases up with
  | false => simpa using h
  | true =>
    obtain ⟨k, hm, f, hf, hann⟩ := h.due.reachable rfl t tn ht ha hr
    obtain ⟨-, id, place, hown, -⟩ := h.accounts.made t k hm
    have hid : tn.id = id := by
      rw [Own, ht] at hown
      exact congrArg (·.1) (Option.some.inj hown)
    have hS : Said env l (came.insert sent.length t) (sent ++ [.stream FrameType.streamOpen sid payload]) n :=
      h.said.visit hm hown (hid ▸ hp) hf (hid ▸ hann)
    simp only [if_true]
    rw [List.append_cons]
    refine ⟨h.accounts, hS.mild hfs, ?_⟩
    rw [← List.append_cons]
    refine h.due.append (fun g hg k' ha' => ?_) fun h => h
    rcases List.mem_cons.mp hg with rfl | hg
    · obtain ⟨_, _, he, -⟩ := ha'
      cases he
    · exact not_answers_of_mild hfs hg ha'

theorem Books.talk (h : Books env l came sent up n) (hfs : Mild fs) {up' : Bool} (hu : up' = true → up = true) :
    Books env l came (sent ++ fs) up' n :=
  ⟨h.accounts, h.said.mild hfs, h.due.append (fun _ hf _ => not_answers_of_mild hfs hf) hu⟩

end

end Booking

end UpTunnel
